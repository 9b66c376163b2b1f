import Beldex.Foundation.Matching
import Beldex.Outputs.Database

/-!
# What the output database holds

The chain as a list of outputs, in the order in which they were stored.  A
database that was built from a chain has the outputs of each amount as its rows,
numbered from zero, and lists each output of amount zero in the table of its
kind.
-/

namespace Beldex.Outputs

open Basic Crypto Foundation Foundation.Fallible List OutputDb

variable {P : Type}

/-! ## The outputs of a chain -/

def IsNativeOutput (out : TxOut P) : Prop :=
  exists key, out.target = .toKey key

def IsZyphoraOutput (out : TxOut P) : Prop :=
  exists zout, out.target = .zyphora zout

def storedOutputs (tx : Transaction P) : List (TxOut P) :=
  if .toScript ∈ tx.vin ∨ .toScripthash ∈ tx.vin then []
  else tx.vout.map (storedOutput tx)

def entryOutputs (entry : BlockEntry P) : List (TxOut P) :=
  (entry.block.minerTx :: entry.txs).flatMap storedOutputs

def chainOutputs (chain : List (BlockEntry P)) : List (TxOut P) :=
  chain.flatMap entryOutputs

def bucket (outs : List (TxOut P)) (amount : UInt64) : List (TxOut P) :=
  outs.filter fun out => out.amount = amount

/-! ## Rows and outputs -/

def Describes (K : OutputConstants P) (data : OutputData P) (out : TxOut P) : Prop :=
  match out.target with
  | .toKey key => data.pubkey = key ∧ data.blindedTokenId = K.nullTid
  | .zyphora zout =>
    data.pubkey = zout.stealthAddress ∧ data.commitment = zout.amountCommitment ∧
      data.blindedTokenId = zout.blindedTokenId
  | _ => False

inductive WritesRow (K : OutputConstants P) (db : OutputDb P) (out : TxOut P) :
    OutputDb P -> Prop where
  | native {key : PublicKey} {data : OutputData P} (htarget : out.target = .toKey key)
      (hdata : Describes K data out) :
      WritesRow K db out (db.putRow out.amount false data)
  | zyphora {zout : TxOutZyphora P} {data : OutputData P}
      (htarget : out.target = .zyphora zout) (hdata : Describes K data out) :
      WritesRow K db out (db.putRow out.amount true data)

/-- The two databases agree on outputs; only spent keys or the height differ. -/
def SameOutputs (db db' : OutputDb P) : Prop :=
  db'.outputAmounts = db.outputAmounts ∧
    db'.nativeOutputHeights = db.nativeOutputHeights ∧
    db'.zyOutputHeights = db.zyOutputHeights

inductive Writes (K : OutputConstants P) :
    OutputDb P -> List (TxOut P) -> OutputDb P -> Prop where
  | done {db : OutputDb P} : Writes K db [] db
  | same {db mid db' : OutputDb P} {outs : List (TxOut P)}
      (hsame : SameOutputs db mid) (hrest : Writes K mid outs db') : Writes K db outs db'
  | row {db mid db' : OutputDb P} {out : TxOut P} {outs : List (TxOut P)}
      (hrow : WritesRow K db out mid) (hrest : Writes K mid outs db') :
      Writes K db (out :: outs) db'

/-! ## What the writing functions write -/

theorem SameOutputs.refl (db : OutputDb P) : SameOutputs db db :=
  ⟨rfl, rfl, rfl⟩

theorem SameOutputs.trans {db mid db' : OutputDb P} (h : SameOutputs db mid)
    (h' : SameOutputs mid db') : SameOutputs db db' :=
  ⟨h'.1.trans h.1, h'.2.1.trans h.2.1, h'.2.2.trans h.2.2⟩

variable {K : OutputConstants P} {db db' : OutputDb P} {tx : Transaction P}

theorem Writes.ofSame (h : SameOutputs db db') : Writes K db [] db' :=
  .same h .done

theorem Writes.append {mid : OutputDb P} {outs outs' : List (TxOut P)}
    (h : Writes K db outs mid) (h' : Writes K mid outs' db') : Writes K db (outs ++ outs') db' := by
  induction h with
  | done => exact h'
  | same hsame _ ih => exact .same hsame (ih h')
  | row hrow _ ih => exact .row hrow (ih h')

theorem writesRow_addOutput {out : TxOut P} {unlockTime : UInt64} {commitment : Option P}
    (h : addOutput K db out unlockTime commitment = .ok db') : WritesRow K db out db' := by
  unfold addOutput at h
  cases htarget : out.target with
  | toKey key =>
    simp only [htarget] at h
    rcases rejectIf_bind_ok.mp h with ⟨_, hput⟩
    cases hput
    exact .native htarget (by simp [Describes, htarget])
  | zyphora zout =>
    simp only [htarget] at h
    cases h
    exact .zyphora htarget (by simp [Describes, htarget])
  | _ => simp [htarget] at h

theorem writes_addOutputs {i n : Nat} {outs : List (TxOut P)}
    (h : addOutputs K tx db i n outs = .ok db') : Writes K db (outs.map (storedOutput tx)) db' := by
  induction outs generalizing db i n with
  | nil =>
    cases h
    exact .done
  | cons out rest ih =>
    rcases bind_ok.mp h with ⟨commitment, _, h⟩
    rcases bind_ok.mp h with ⟨mid, hrow, hrest⟩
    exact .row (writesRow_addOutput hrow) (ih hrest)

theorem sameOutputs_addSpentKey {kImage : KeyImage}
    (h : addSpentKey db kImage = .ok db') : SameOutputs db db' := by
  rcases rejectIf_bind_ok.mp h with ⟨_, hput⟩
  cases hput
  exact ⟨rfl, rfl, rfl⟩

theorem addSpentInputs_spec {vin : List TxIn} {supported : Bool}
    (h : addSpentInputs db vin = .ok (db', supported)) :
    SameOutputs db db' ∧ (supported = false <-> .toScript ∈ vin ∨ .toScripthash ∈ vin) := by
  induction vin generalizing db with
  | nil =>
    cases h
    exact ⟨.refl _, by simp⟩
  | cons txin rest ih =>
    cases txin with
    | gen height =>
      rcases ih h with ⟨hsame, hsupp⟩
      exact ⟨hsame, by simpa using hsupp⟩
    | toScript | toScripthash =>
      cases h
      exact ⟨.refl _, by simp⟩
    | _ =>
      rcases bind_ok.mp h with ⟨mid, hkey, hrest⟩
      rcases ih hrest with ⟨hsame, hsupp⟩
      exact ⟨(sameOutputs_addSpentKey hkey).trans hsame, by simpa using hsupp⟩

theorem writes_addTransaction (h : addTransaction K db tx = .ok db') :
    Writes K db (storedOutputs tx) db' := by
  rcases bind_ok.mp h with ⟨⟨mid, supported⟩, hins, h⟩
  rcases addSpentInputs_spec hins with ⟨hsame, hsupp⟩
  unfold storedOutputs
  cases supported with
  | true =>
    rw [if_neg (by simpa using hsupp)]
    exact .same hsame (writes_addOutputs h)
  | false =>
    rw [if_pos (hsupp.mp rfl)]
    cases h
    exact .ofSame (hsame.trans ⟨rfl, rfl, rfl⟩)

theorem writes_addTransactions {txs : List (Transaction P)}
    (h : run (addTransaction K) db txs = .ok db') :
    Writes K db (txs.flatMap storedOutputs) db' := by
  induction txs generalizing db with
  | nil =>
    cases h
    exact .done
  | cons tx rest ih =>
    rcases run_cons_ok.mp h with ⟨mid, htx, hrest⟩
    rw [flatMap_cons]
    exact (writes_addTransaction htx).append (ih hrest)

theorem writes_addBlock {entry : BlockEntry P} (h : addBlock K db entry = .ok db') :
    Writes K db (entryOutputs entry) db' := by
  rcases rejectIf_bind_ok.mp h with ⟨_, h⟩
  rcases bind_ok.mp h with ⟨mid, hrun, hput⟩
  cases hput
  rw [<- append_nil (entryOutputs entry)]
  exact (writes_addTransactions hrun).append (.ofSame ⟨rfl, rfl, rfl⟩)

/-! ## The database of a chain -/

structure Holds (K : OutputConstants P) (db : OutputDb P) (outs : List (TxOut P)) : Prop where
  rows : forall amount, List.Forall₂ (fun out row => Describes K row.data out)
    (bucket outs amount) (db.outputAmounts amount)
  numbered : forall (amount : UInt64) (i : Nat) (row : OutKey P),
    (db.outputAmounts amount)[i]? = some row -> row.amountIndex = i
  native : forall i, (exists height, (height, i) ∈ db.nativeOutputHeights) <->
    exists out, (bucket outs 0)[i]? = some out ∧ IsNativeOutput out
  zyphora : forall i, (exists height, (height, i) ∈ db.zyOutputHeights) <->
    exists out, (bucket outs 0)[i]? = some out ∧ IsZyphoraOutput out

theorem holds_empty (K : OutputConstants P) : Holds K (empty P) [] where
  rows := fun _ => .nil
  numbered := fun amount i row h => by simp [empty] at h
  native := fun i => by simp [empty, bucket]
  zyphora := fun i => by simp [empty, bucket]

theorem bucket_concat (outs : List (TxOut P)) (out : TxOut P) (amount : UInt64) :
    bucket (outs ++ [out]) amount =
      if out.amount = amount then bucket outs amount ++ [out] else bucket outs amount := by
  unfold bucket
  rw [filter_append]
  split <;> simp_all

theorem getElem?_concat_eq_some {α : Type} {l : List α} {a b : α} {i : Nat} :
    (l ++ [a])[i]? = some b <-> l[i]? = some b ∨ (i = l.length ∧ a = b) := by
  rcases Nat.lt_trichotomy i l.length with h | h | h
  · rw [getElem?_append_left h]
    simp [ne_of_lt h]
  · subst h
    simp
  · rw [getElem?_append_right (le_of_lt h), getElem?_eq_none (by simp; omega),
      getElem?_eq_none (by omega)]
    simp [Nat.ne_of_gt h]

namespace Holds

variable {outs : List (TxOut P)} {out : TxOut P} {isZyphora : Bool} {data : OutputData P}

theorem length_rows (h : Holds K db outs) (amount : UInt64) :
    (db.outputAmounts amount).length = (bucket outs amount).length :=
  (h.rows amount).length_eq.symm

theorem same (h : Holds K db outs) (hsame : SameOutputs db db') : Holds K db' outs where
  rows := by rw [hsame.1]; exact h.rows
  numbered := by rw [hsame.1]; exact h.numbered
  native := by rw [hsame.2.1]; exact h.native
  zyphora := by rw [hsame.2.2]; exact h.zyphora

theorem listed_concat {Kind : TxOut P -> Prop} {listed : List (UInt64 × Nat)}
    {isKind : Prop} [Decidable isKind] (height : UInt64) (hkind : isKind <-> Kind out)
    (hlisted : forall i, (exists height, (height, i) ∈ listed) <->
      exists o, (bucket outs 0)[i]? = some o ∧ Kind o) (i : Nat) :
    (exists h, (h, i) ∈ if out.amount = 0 ∧ isKind then
        listed ++ [(height, (bucket outs 0).length)] else listed) <->
      exists o, (bucket (outs ++ [out]) 0)[i]? = some o ∧ Kind o := by
  rw [bucket_concat]
  by_cases hamt : out.amount = 0
  · simp only [hamt, true_and, if_true, getElem?_concat_eq_some, or_and_right, exists_or]
    rw [<- hlisted]
    split
    next hk =>
      simp [mem_append, exists_or, hkind.mp hk]
    next hk =>
      simp [mt hkind.mpr hk]
  · rw [if_neg hamt, if_neg fun h => hamt h.1]
    exact hlisted i

section

variable (h : Holds K db outs)
include h

theorem putRow (hdata : Describes K data out) (hnative : isZyphora = false <-> IsNativeOutput out)
    (hzyphora : isZyphora = true <-> IsZyphoraOutput out) :
    Holds K (db.putRow out.amount isZyphora data) (outs ++ [out]) where
  rows := fun amount => by
    rw [bucket_concat]
    by_cases ha : amount = out.amount
    · subst ha
      simp only [OutputDb.putRow, if_true]
      exact rel_append (h.rows out.amount) (.cons hdata .nil)
    · simp only [OutputDb.putRow, if_neg ha, if_neg (Ne.symm ha)]
      exact h.rows amount
  numbered := fun amount i row hrow => by
    by_cases ha : amount = out.amount
    · subst ha
      simp only [OutputDb.putRow, if_true] at hrow
      rcases getElem?_concat_eq_some.mp hrow with hold | ⟨hi, hnew⟩
      · exact h.numbered _ _ _ hold
      · rw [<- hnew]
        exact hi.symm
    · simp only [OutputDb.putRow, if_neg ha] at hrow
      exact h.numbered _ _ _ hrow
  native := fun i => by
    have hlist := listed_concat db.height hnative h.native i
    by_cases ha : out.amount = 0
    · simpa [OutputDb.putRow, ha, h.length_rows] using hlist
    · simpa [OutputDb.putRow, ha] using hlist
  zyphora := fun i => by
    have hlist := listed_concat db.height hzyphora h.zyphora i
    by_cases ha : out.amount = 0
    · simpa [OutputDb.putRow, ha, h.length_rows] using hlist
    · simpa [OutputDb.putRow, ha] using hlist

theorem writesRow (hrow : WritesRow K db out db') : Holds K db' (outs ++ [out]) := by
  cases hrow with
  | native htarget hdata | zyphora htarget hdata =>
    exact h.putRow hdata (by simp [IsNativeOutput, htarget]) (by simp [IsZyphoraOutput, htarget])

theorem writes {outs' : List (TxOut P)}
    (hwrites : Writes K db outs' db') : Holds K db' (outs ++ outs') := by
  induction hwrites generalizing outs with
  | done =>
    rw [append_nil]
    exact h
  | same hsame _ ih => exact ih (h.same hsame)
  | row hrow _ ih =>
    rw [append_cons]
    exact ih (h.writesRow hrow)

theorem exists_of_getOutputKey {amount index : UInt64}
    (hget : getOutputKey K db amount index = some data) :
    exists out row, (bucket outs amount)[index.toNat]? = some out ∧
      Describes K row.data out ∧ data = readRow K amount row := by
  rcases Option.map_eq_some_iff.mp hget with ⟨row, hfind, hdata⟩
  rcases mem_iff_getElem?.mp (mem_of_find?_eq_some hfind) with ⟨i, hi⟩
  have hnum : row.amountIndex = index.toNat := by
    simpa using find?_some hfind
  rw [h.numbered amount i row hi] at hnum
  rw [hnum] at hi
  rcases Matching.exists_left_of_getElem? (h.rows amount) hi with ⟨out, hout, hrow⟩
  exact ⟨out, row, hout, hrow, hdata.symm⟩

end

end Holds

/-! ## Rows stay -/

def Extends (db db' : OutputDb P) : Prop :=
  forall amount, db.outputAmounts amount <+: db'.outputAmounts amount

theorem Extends.getOutputKey (h : Extends db db') {amount index : UInt64}
    {data : OutputData P} (hget : getOutputKey K db amount index = some data) :
    getOutputKey K db' amount index = some data := by
  unfold Outputs.getOutputKey row? at *
  rcases h amount with ⟨more, hmore⟩
  rcases Option.map_eq_some_iff.mp hget with ⟨row, hrow, hdata⟩
  rw [<- hmore, find?_append, hrow]
  exact congrArg some hdata

theorem extends_putRow (db : OutputDb P) (amount : UInt64) (isZyphora : Bool)
    (data : OutputData P) : Extends db (db.putRow amount isZyphora data) := by
  intro a
  by_cases ha : a = amount
  · subst ha
    simp [OutputDb.putRow]
  · simp [OutputDb.putRow, ha]

theorem Writes.extends {outs : List (TxOut P)} (h : Writes K db outs db') : Extends db db' := by
  induction h with
  | done => exact fun amount => prefix_rfl
  | same hsame _ ih =>
    intro amount
    rw [<- hsame.1]
    exact ih amount
  | row hrow _ ih =>
    intro amount
    refine List.IsPrefix.trans ?_ (ih amount)
    cases hrow with
    | _ => exact extends_putRow _ _ _ _ amount

end Beldex.Outputs
