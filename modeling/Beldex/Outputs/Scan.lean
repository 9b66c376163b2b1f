import Beldex.Foundation.Reads
import Beldex.Outputs.Stored

/-!
# Resolving the rings of a transaction

An input names its ring members by their numbers in the output database.  They
are read from the database, or, for native inputs, from a table that was filled
in bulk when a batch of blocks arrived.  What is in the table stays right while
the database grows, so both paths give the rows with the numbers of the input.
-/

namespace Beldex.Outputs

open Basic Crypto Foundation Foundation.Fallible Table List

variable {H P : Type} [DecidableEq H]

/-! ## Offsets -/

def absoluteFrom : UInt64 -> List UInt64 -> List UInt64
  | _, [] => []
  | last, offset :: rest => (last + offset) :: absoluteFrom (last + offset) rest

/-- Each offset counts from the one before it, with the wrap of the word. -/
def relativeOutputOffsetsToAbsolute (offsets : List UInt64) : List UInt64 :=
  absoluteFrom 0 offsets

structure RingRef where
  amount : UInt64
  keyOffsets : List UInt64
  kImage : KeyImage

/-- Privacy-token inputs read the outputs of amount zero. -/
def ringRef? : TxIn -> Option RingRef
  | .toKey txin => some ⟨txin.amount, txin.keyOffsets, txin.kImage⟩
  | .zyInput txin => some ⟨0, txin.keyOffsets, txin.kImage⟩
  | _ => none

def RingRef.offsets (ref : RingRef) : List UInt64 :=
  relativeOutputOffsetsToAbsolute ref.keyOffsets

/-- Read rows in order, up to the first that does not exist. -/
def getOutputKeys (K : OutputConstants P) (db : OutputDb P) (amount : UInt64)
    (offsets : List UInt64) : List (OutputData P) :=
  mapWhile (getOutputKey K db amount) offsets

/-! ## The scan table -/

abbrev ScanTable (H P : Type) := Table H (Table KeyImage (List (OutputData P)))

structure ScanPlan (H P : Type) where
  table : ScanTable H P
  offsetMap : UInt64 -> List UInt64

def planTransaction (prefixHash : Transaction P -> H) (plan : ScanPlan H P)
    (tx : Transaction P) : Except String (ScanPlan H P) := do
  rejectIf (plan.table.find? (prefixHash tx)).isSome
    "Duplicate tx found from incoming blocks."
  let refs <- orReject (tx.vin.mapM ringRef?)
    "Unsupported input type from incoming blocks."
  .ok
    { table := plan.table.set (prefixHash tx) empty
      offsetMap := fun amount =>
        plan.offsetMap amount ++
          (refs.filter fun ref => ref.amount = amount).flatMap RingRef.offsets }

def sortUnique (offsets : List UInt64) : List UInt64 :=
  (offsets.mergeSort fun a b => decide (a <= b)).eraseReps

def rowFor (offsets : List UInt64) (rows : List (OutputData P)) (needed : UInt64) :
    Option (OutputData P) :=
  if needed ∈ offsets then rows[offsets.idxOf needed]? else none

def scanRing (K : OutputConstants P) (db : OutputDb P) (offsetMap : UInt64 -> List UInt64)
    (ref : RingRef) : List (OutputData P) :=
  let offsets := sortUnique (offsetMap ref.amount)
  mapWhile (rowFor offsets (getOutputKeys K db ref.amount offsets)) ref.offsets

def emplaceRing (K : OutputConstants P) (db : OutputDb P)
    (offsetMap : UInt64 -> List UInt64) (rings : Table KeyImage (List (OutputData P)))
    (ref : RingRef) : Table KeyImage (List (OutputData P)) :=
  match rings.find? ref.kImage with
  | some _ => rings
  | none => rings.set ref.kImage (scanRing K db offsetMap ref)

def fillTransaction (K : OutputConstants P) (prefixHash : Transaction P -> H)
    (db : OutputDb P) (offsetMap : UInt64 -> List UInt64) (table : ScanTable H P)
    (tx : Transaction P) : ScanTable H P :=
  let rings := (table.find? (prefixHash tx)).getD empty
  table.set (prefixHash tx)
    ((tx.vin.filterMap ringRef?).foldl (emplaceRing K db offsetMap) rings)

/-- The table for the transactions of a batch of blocks; a bad batch leaves none. -/
def prepareScanTable (K : OutputConstants P) (prefixHash : Transaction P -> H)
    (db : OutputDb P) (txs : List (Transaction P)) : ScanTable H P :=
  match run (planTransaction prefixHash) ⟨empty, fun _ => []⟩ txs with
  | .ok plan => txs.foldl (fillTransaction K prefixHash db plan.offsetMap) plan.table
  | .error _ => empty

/-! ## Scanning -/

structure ChainState (H P : Type) where
  db : OutputDb P
  scanTable : ScanTable H P

def fetchOutputs (K : OutputConstants P) (st : ChainState H P) (txPrefixHash : H)
    (ref : RingRef) : Except String (List (OutputData P)) :=
  let missing := "Output does not exist! amount = " ++ toString ref.amount
  match (st.scanTable.find? txPrefixHash).bind fun rings => rings.find? ref.kImage with
  | none => do
      let outputs := getOutputKeys K st.db ref.amount ref.offsets
      rejectIf (ref.offsets.length != outputs.length) missing
      .ok outputs
  | some outputs =>
    -- Partial results of the bulk read are completed now.
    if outputs.length < ref.offsets.length ∧ 0 < outputs.length then do
      let addOffsets := ref.offsets.drop outputs.length
      let addOutputs := getOutputKeys K st.db ref.amount addOffsets
      rejectIf (addOffsets.length != addOutputs.length) missing
      .ok (outputs ++ addOutputs)
    else
      .ok outputs

/-- Visit the ring members in order; `count` of them have been visited. -/
def visitOutputs (K : OutputConstants P) (db : OutputDb P) (unlocked : UInt64 -> Bool)
    (amount : UInt64) (outputs : List (OutputData P)) :
    Nat -> List UInt64 -> Except String (List (OutputData P))
  | _, [] => .ok []
  | count, i :: rest => do
      let output <- orReject (outputs[count]?.or (getOutputKey K db amount i))
        ("Output does not exist! amount = " ++ toString amount ++ ", absolute_offset = " ++
          toString i)
      rejectIf (!unlocked output.unlockTime)
        ("One of outputs for one of inputs has wrong tx.unlock_time = " ++
          toString output.unlockTime)
      let ring <- visitOutputs K db unlocked amount outputs (count + 1) rest
      .ok (output :: ring)

def scanOutputkeysForIndexes (K : OutputConstants P) (st : ChainState H P)
    (unlocked : UInt64 -> Bool) (txPrefixHash : H) (ref : RingRef) :
    Except String (List (OutputData P)) := do
  rejectIf ref.keyOffsets.isEmpty "the input has no key offsets"
  let outputs <- fetchOutputs K st txPrefixHash ref
  visitOutputs K st.db unlocked ref.amount outputs 0 ref.offsets

/-- The ring members of a privacy-token input, which skips the scan table. -/
def scanOutputkeysForIndexesZy (K : OutputConstants P) (st : ChainState H P)
    (unlocked : UInt64 -> Bool) (ref : RingRef) : Except String (List (OutputData P)) := do
  rejectIf ref.keyOffsets.isEmpty "the input has no key offsets"
  let outputs := getOutputKeys K st.db ref.amount ref.offsets
  rejectIf (ref.offsets.length != outputs.length) "Output does not exist! (zyphora input)"
  visitOutputs K st.db unlocked ref.amount outputs 0 ref.offsets

/-! ## Both paths give the rows of the input -/

variable {K : OutputConstants P} {db db' : OutputDb P}

def IsRingOf (K : OutputConstants P) (db : OutputDb P) (ref : RingRef)
    (ring : List (OutputData P)) : Prop :=
  List.Forall₂ (fun offset data => getOutputKey K db ref.amount offset = some data) ref.offsets ring

variable {unlocked : UInt64 -> Bool}

theorem isRing_visitOutputs {amount : UInt64} {outputs ring : List (OutputData P)} {count : Nat}
    {offsets : List UInt64} (hreads : Reads (getOutputKey K db amount) offsets (outputs.drop count))
    (h : visitOutputs K db unlocked amount outputs count offsets = .ok ring) :
    List.Forall₂ (fun offset data => getOutputKey K db amount offset = some data) offsets ring := by
  induction offsets generalizing count ring with
  | nil =>
    cases h
    exact .nil
  | cons i rest ih =>
    rcases orReject_bind_ok.mp h with ⟨output, hout, h⟩
    rcases rejectIf_bind_ok.mp h with ⟨_, h⟩
    rcases bind_ok.mp h with ⟨tail, htail, hring⟩
    cases hring
    refine .cons ?_ (ih ?_ htail)
    · cases hat : outputs[count]? with
      | none =>
        rw [hat] at hout
        exact hout
      | some data =>
        rw [hat, Option.some_or, Option.some.injEq] at hout
        subst hout
        rcases hreads 0 data (by simpa using hat) with ⟨a, ha, hget⟩
        rw [getElem?_cons_zero, Option.some.injEq] at ha
        rw [ha]
        exact hget
    · intro k data hk
      rw [getElem?_drop] at hk
      rcases hreads (k + 1) data (by rw [getElem?_drop, <- hk]; congr 1; omega)
        with ⟨a, ha, hget⟩
      exact ⟨a, by simpa using ha, hget⟩

/-! ## The scan table is right -/

/-- The ring was read for an input with this prefix hash and key image. -/
def ReadFor (K : OutputConstants P) (prefixHash : Transaction P -> H) (db : OutputDb P)
    (hash : H) (kImage : KeyImage) (ring : List (OutputData P)) : Prop :=
  exists (tx : Transaction P) (txin : TxIn) (ref : RingRef),
    prefixHash tx = hash ∧ txin ∈ tx.vin ∧ ringRef? txin = some ref ∧
      ref.kImage = kImage ∧ Reads (getOutputKey K db ref.amount) ref.offsets ring

def RingsOf (K : OutputConstants P) (prefixHash : Transaction P -> H) (db : OutputDb P)
    (hash : H) (rings : Table KeyImage (List (OutputData P))) : Prop :=
  forall kImage ring, rings.find? kImage = some ring -> ReadFor K prefixHash db hash kImage ring

def Coherent (K : OutputConstants P) (prefixHash : Transaction P -> H) (db : OutputDb P)
    (table : ScanTable H P) : Prop :=
  forall hash rings, table.find? hash = some rings -> RingsOf K prefixHash db hash rings

variable {prefixHash : Transaction P -> H} {table : ScanTable H P}

omit [DecidableEq H] in
theorem ringsOf_empty (K : OutputConstants P) (prefixHash : Transaction P -> H)
    (db : OutputDb P) (hash : H) : RingsOf K prefixHash db hash empty := by
  intro kImage ring hring
  simp at hring

theorem coherent_empty (K : OutputConstants P) (prefixHash : Transaction P -> H)
    (db : OutputDb P) : Coherent K prefixHash db empty := by
  intro hash rings hrings
  simp at hrings

theorem Coherent.extends (hc : Coherent K prefixHash db table) (hext : Extends db db') :
    Coherent K prefixHash db' table := by
  intro hash rings hrings kImage ring hring
  rcases hc hash rings hrings kImage ring hring with
    ⟨tx, txin, ref, hhash, hmem, href, hkey, hreads⟩
  exact ⟨tx, txin, ref, hhash, hmem, href, hkey,
    hreads.mono fun offset data hget => hext.getOutputKey hget⟩

variable {rings : Table KeyImage (List (OutputData P))}

theorem Coherent.set {hash : H} (hc : Coherent K prefixHash db table)
    (hrings : RingsOf K prefixHash db hash rings) :
    Coherent K prefixHash db (table.set hash rings) := by
  intro hash' rings' hfind
  rcases find?_set_cases hfind with ⟨rfl, rfl⟩ | ⟨_, hfind⟩
  · exact hrings
  · exact hc hash' rings' hfind

theorem reads_scanRing (K : OutputConstants P) (db : OutputDb P)
    (offsetMap : UInt64 -> List UInt64) (ref : RingRef) :
    Reads (getOutputKey K db ref.amount) ref.offsets (scanRing K db offsetMap ref) := by
  refine (Reads.mapWhile _ _).mono ?_
  intro needed data hdata
  unfold rowFor at hdata
  split at hdata
  next hmem =>
    rcases Reads.mapWhile _ _ _ data hdata with ⟨offset, hoffset, hget⟩
    rw [getElem?_idxOf hmem, Option.some.injEq] at hoffset
    rw [hoffset]
    exact hget
  · cases hdata

def PlanCoherent (K : OutputConstants P) (prefixHash : Transaction P -> H)
    (db : OutputDb P) (plan : ScanPlan H P) : Prop :=
  Coherent K prefixHash db plan.table

variable {tx : Transaction P}

theorem planCoherent_step {plan plan' : ScanPlan H P}
    (h : planTransaction prefixHash plan tx = .ok plan')
    (hc : PlanCoherent K prefixHash db plan) : PlanCoherent K prefixHash db plan' := by
  rcases rejectIf_bind_ok.mp h with ⟨_, h⟩
  rcases orReject_bind_ok.mp h with ⟨refs, _, hplan⟩
  cases hplan
  exact Coherent.set hc (ringsOf_empty K prefixHash db (prefixHash tx))

omit [DecidableEq H] in
theorem RingsOf.emplaceRing {ref : RingRef} (hrings : RingsOf K prefixHash db (prefixHash tx) rings)
    (href : ref ∈ tx.vin.filterMap ringRef?) (offsetMap : UInt64 -> List UInt64) :
    RingsOf K prefixHash db (prefixHash tx) (Outputs.emplaceRing K db offsetMap rings ref) := by
  intro kImage ring hring
  unfold Outputs.emplaceRing at hring
  cases hfind : rings.find? ref.kImage with
  | some bound =>
    rw [hfind] at hring
    exact hrings kImage ring hring
  | none =>
    rw [hfind] at hring
    rcases find?_set_cases hring with ⟨heq, rfl⟩ | ⟨_, hring⟩
    · rcases mem_filterMap.mp href with ⟨txin, hmem, hsome⟩
      exact ⟨tx, txin, ref, rfl, hmem, hsome, heq.symm, reads_scanRing K db offsetMap ref⟩
    · exact hrings kImage ring hring

omit [DecidableEq H] in
theorem RingsOf.foldl_emplaceRing {refs : List RingRef}
    (hrings : RingsOf K prefixHash db (prefixHash tx) rings)
    (hrefs : forall ref, ref ∈ refs -> ref ∈ tx.vin.filterMap ringRef?)
    (offsetMap : UInt64 -> List UInt64) :
    RingsOf K prefixHash db (prefixHash tx)
      (refs.foldl (Outputs.emplaceRing K db offsetMap) rings) := by
  induction refs generalizing rings with
  | nil => exact hrings
  | cons ref rest ih =>
    exact ih (hrings.emplaceRing (hrefs ref mem_cons_self) offsetMap)
      fun ref' hmem => hrefs ref' (mem_cons_of_mem ref hmem)

theorem Coherent.fillTransaction (hc : Coherent K prefixHash db table)
    (offsetMap : UInt64 -> List UInt64) (tx : Transaction P) :
    Coherent K prefixHash db (Outputs.fillTransaction K prefixHash db offsetMap table tx) := by
  refine hc.set (RingsOf.foldl_emplaceRing ?_ (fun _ h => h) offsetMap)
  cases hfind : table.find? (prefixHash tx) with
  | none => exact ringsOf_empty K prefixHash db (prefixHash tx)
  | some rings => exact hc (prefixHash tx) rings hfind

theorem Coherent.foldl_fillTransaction (hc : Coherent K prefixHash db table)
    (offsetMap : UInt64 -> List UInt64) (txs : List (Transaction P)) :
    Coherent K prefixHash db
      (txs.foldl (Outputs.fillTransaction K prefixHash db offsetMap) table) := by
  induction txs generalizing table with
  | nil => exact hc
  | cons tx rest ih => exact ih (hc.fillTransaction offsetMap tx)

theorem coherent_prepareScanTable (K : OutputConstants P)
    (prefixHash : Transaction P -> H) (db : OutputDb P) (txs : List (Transaction P)) :
    Coherent K prefixHash db (prepareScanTable K prefixHash db txs) := by
  unfold prepareScanTable
  cases hplan : run (planTransaction prefixHash) ⟨empty, fun _ => []⟩ txs with
  | error reason => exact coherent_empty K prefixHash db
  | ok plan =>
    have hc : PlanCoherent K prefixHash db plan :=
      run_preserves planCoherent_step hplan (coherent_empty K prefixHash db)
    exact Coherent.foldl_fillTransaction hc plan.offsetMap txs

/-! ## Scanning a native input -/

def DistinctKeyImages (tx : Transaction P) : Prop :=
  forall txin txin' ref ref', txin ∈ tx.vin -> txin' ∈ tx.vin ->
    ringRef? txin = some ref -> ringRef? txin' = some ref' ->
    ref.kImage = ref'.kImage -> txin = txin'

def BindsInputs (prefixHash : Transaction P -> H) : Prop :=
  forall tx tx', prefixHash tx = prefixHash tx' -> tx.vin = tx'.vin

variable {st : ChainState H P} {tx : Transaction P} {txin : TxIn} {ref : RingRef}
  {ring : List (OutputData P)}

theorem reads_fetchOutputs (hbinds : BindsInputs prefixHash)
    (hc : Coherent K prefixHash st.db st.scanTable) (hdist : DistinctKeyImages tx)
    (hmem : txin ∈ tx.vin) (href : ringRef? txin = some ref)
    (h : fetchOutputs K st (prefixHash tx) ref = .ok ring) :
    Reads (getOutputKey K st.db ref.amount) ref.offsets ring := by
  unfold fetchOutputs at h
  cases hfind : (st.scanTable.find? (prefixHash tx)).bind fun rings => rings.find? ref.kImage with
  | none =>
    simp only [hfind, rejectIf_bind_ok] at h
    cases h.2
    exact Reads.mapWhile _ _
  | some outputs =>
    have houts : Reads (getOutputKey K st.db ref.amount) ref.offsets outputs := by
      rcases Option.bind_eq_some_iff.mp hfind with ⟨rings, hrings, hring⟩
      rcases hc _ rings hrings _ outputs hring with
        ⟨tx', txin', ref', hhash, hmem', href', hkey, hreads⟩
      rw [hbinds tx' tx hhash] at hmem'
      have hsame := hdist txin txin' ref ref' hmem hmem' href href' hkey.symm
      rw [hsame, href', Option.some.injEq] at href
      rw [href] at hreads
      exact hreads
    simp only [hfind] at h
    split at h
    · cases (rejectIf_bind_ok.mp h).2
      exact houts.append (Reads.mapWhile _ _)
    · cases h
      exact houts

end Beldex.Outputs
