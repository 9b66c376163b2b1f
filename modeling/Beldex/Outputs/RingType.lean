import Beldex.Outputs.CheckInputs

/-!
# Kinds of ring members

Native and privacy-token outputs share the numbering of amount zero.  The rings
of an accepted transaction keep to the kind of their inputs exactly when the
offsets of each input are numbers that the database lists for that kind, because
no check on the way looks at the kind of a ring member.
-/

namespace Beldex.Outputs

open Basic Crypto Foundation Foundation.Fallible Token List

variable {H P Blob : Type} [DecidableEq H]

/-! ## Runs of a node -/

inductive ChainEvent (P : Type) where
  | addBlock (entry : BlockEntry P)
  | prepareHandleIncomingBlocks (txs : List (Transaction P))
  | cleanupHandleIncomingBlocks

def ChainState.genesis (H P : Type) [DecidableEq H] : ChainState H P where
  db := OutputDb.empty P
  scanTable := Table.empty

def applyEvent (K : OutputConstants P) (prefixHash : Transaction P -> H)
    (st : ChainState H P) : ChainEvent P -> Except String (ChainState H P)
  | .addBlock entry => do
      let db <- addBlock K st.db entry
      .ok { st with db := db }
  | .prepareHandleIncomingBlocks txs =>
    .ok { st with scanTable := prepareScanTable K prefixHash st.db txs }
  | .cleanupHandleIncomingBlocks => .ok { st with scanTable := Table.empty }

def chainOf (events : List (ChainEvent P)) : List (BlockEntry P) :=
  events.filterMap fun event =>
    match event with
    | .addBlock entry => some entry
    | _ => none

structure StoresOutputs (K : OutputConstants P) (prefixHash : Transaction P -> H)
    (st : ChainState H P) (outs : List (TxOut P)) : Prop where
  holds : Holds K st.db outs
  coherent : Coherent K prefixHash st.db st.scanTable

variable {K : OutputConstants P} {prefixHash : Transaction P -> H}
  {st st' : ChainState H P} {outs : List (TxOut P)}

theorem storesOutputs_genesis (K : OutputConstants P) (prefixHash : Transaction P -> H) :
    StoresOutputs K prefixHash (ChainState.genesis H P) [] where
  holds := holds_empty K
  coherent := coherent_empty K prefixHash (OutputDb.empty P)

theorem StoresOutputs.applyEvent {event : ChainEvent P} (hst : StoresOutputs K prefixHash st outs)
    (h : Outputs.applyEvent K prefixHash st event = .ok st') :
    StoresOutputs K prefixHash st' (outs ++ chainOutputs (chainOf [event])) := by
  cases event with
  | addBlock entry =>
    rcases bind_ok.mp h with ⟨db, hadd, hst'⟩
    cases hst'
    have hwrites := writes_addBlock hadd
    have hchain : chainOutputs (chainOf [ChainEvent.addBlock entry]) = entryOutputs entry := by
      simp [chainOf, chainOutputs]
    rw [hchain]
    exact ⟨hst.holds.writes hwrites, hst.coherent.extends hwrites.extends⟩
  | prepareHandleIncomingBlocks txs =>
    cases h
    have hchain : outs ++ chainOutputs (chainOf [ChainEvent.prepareHandleIncomingBlocks txs]) =
        outs := by
      simp [chainOf, chainOutputs]
    rw [hchain]
    exact ⟨hst.holds, coherent_prepareScanTable K prefixHash st.db txs⟩
  | cleanupHandleIncomingBlocks =>
    cases h
    have hchain : outs ++ chainOutputs
        (chainOf [(ChainEvent.cleanupHandleIncomingBlocks : ChainEvent P)]) = outs := by
      simp [chainOf, chainOutputs]
    rw [hchain]
    exact ⟨hst.holds, coherent_empty K prefixHash st.db⟩

theorem chainOutputs_chainOf_cons (event : ChainEvent P) (events : List (ChainEvent P)) :
    chainOutputs (chainOf (event :: events)) =
      chainOutputs (chainOf [event]) ++ chainOutputs (chainOf events) := by
  unfold chainOutputs chainOf
  rw [<- singleton_append, filterMap_append, flatMap_append]

theorem StoresOutputs.run {events : List (ChainEvent P)} (hst : StoresOutputs K prefixHash st outs)
    (h : Fallible.run (Outputs.applyEvent K prefixHash) st events = .ok st') :
    StoresOutputs K prefixHash st' (outs ++ chainOutputs (chainOf events)) := by
  induction events generalizing st outs with
  | nil =>
    cases h
    simpa [chainOf, chainOutputs] using hst
  | cons event rest ih =>
    rcases run_cons_ok.mp h with ⟨mid, hevent, hrest⟩
    rw [chainOutputs_chainOf_cons, <- append_assoc]
    exact ih (hst.applyEvent hevent) hrest

/-! ## What was checked before a block is added -/

structure KeyChecks (P : Type) where
  checkKey : PublicKey -> Bool
  checkTokenKey : P -> Bool
  checkCommitment : P -> Bool

def checkTxOutput (C : KeyChecks P) (tx : Transaction P) (o : TxOut P) : Except String Unit := do
  rejectIf (isRingct tx && o.amount != 0) "output of a ringct transaction has an amount"
  match o.target with
  | .toKey key => rejectIf (!C.checkKey key) "txout_to_key has invalid pubkey"
  | .zyphora zout => do
      rejectIf (!C.checkKey zout.stealthAddress || !C.checkTokenKey zout.blindedTokenId ||
          !C.checkCommitment zout.amountCommitment)
        "tx_out_zyphora has invalid pubkey field"
      rejectIf (o.amount != 0) "tx_out_zyphora has non-zero plaintext amount"
  | _ => .ok ()

def checkTxOutputFields (C : KeyChecks P) (tx : Transaction P) : Except String Unit :=
  checkAll (checkTxOutput C tx) tx.vout

structure CheckedEntry (C : KeyChecks P) (entry : BlockEntry P) : Prop where
  coinbase : isMinerTx entry.block.minerTx = true ∧ isRingct entry.block.minerTx = true
  txs : forall tx, tx ∈ entry.txs -> checkTxOutputFields C tx = .ok ()

variable {C : KeyChecks P}

theorem isZyphoraOutput_storedOutput {tx : Transaction P} {o : TxOut P} :
    IsZyphoraOutput (storedOutput tx o) <-> IsZyphoraOutput o := by
  unfold storedOutput IsZyphoraOutput
  split <;> rfl

variable {out : TxOut P}

theorem amount_eq_zero_of_checkedEntry {entry : BlockEntry P} (h : CheckedEntry C entry)
    (hmem : out ∈ entryOutputs entry) (hzyphora : IsZyphoraOutput out) : out.amount = 0 := by
  rcases mem_flatMap.mp hmem with ⟨tx, htx, hout⟩
  unfold storedOutputs at hout
  split at hout
  · cases hout
  · rcases mem_map.mp hout with ⟨o, ho, rfl⟩
    rcases mem_cons.mp htx with rfl | htx
    · simp [storedOutput, h.coinbase]
    · have hchk := checkAll_eq_ok.mp (h.txs tx htx) o ho
      rcases isZyphoraOutput_storedOutput.mp hzyphora with ⟨zout, htarget⟩
      unfold checkTxOutput at hchk
      simp only [htarget, rejectIf_bind_ok, rejectIf_ok, bne_eq_false_iff_eq] at hchk
      have hamt := hchk.2.2
      unfold storedOutput
      split
      · rfl
      · exact hamt

/-! ## What an accepted transaction has passed -/

variable {O : InputOracles H P} {ctx : InputContext} {collectConflicts : Bool}
  {tx : Transaction P} {scan scan' : InputScan P} {txin : TxIn}

theorem checkInput_eq_ok (h : checkInput O K ctx st collectConflicts tx scan txin = .ok scan') :
    exists ref ring, ringRef? txin = some ref ∧
      resolveRing K st (isOutputUnlocked ctx st.db.height) (O.prefixHash tx) txin = .ok ring ∧
      (forall last, scan.lastKeyImage = some last -> keyImageRank ref.kImage < keyImageRank last) ∧
      scan'.lastKeyImage = some ref.kImage ∧
      checkMasterNodeStake O ctx txin ref.kImage = .ok () := by
  rcases orReject_bind_ok.mp h with ⟨ref, href, h⟩
  rcases rejectIf_bind_ok.mp h with ⟨_, h⟩
  rcases rejectIf_bind_ok.mp h with ⟨_, h⟩
  rcases bind_ok.mp h with ⟨scan₁, horder, h⟩
  rcases bind_ok.mp h with ⟨scan₂, hspent, h⟩
  rcases reject_bind_ok.mp h with ⟨ring, hring, h⟩
  rcases bind_ok.mp h with ⟨_, hstake, hpush⟩
  cases hpush
  rcases rejectIf_bind_ok.mp horder with ⟨hsort, horder⟩
  cases horder
  rcases rejectIf_bind_ok.mp hspent with ⟨_, hspent⟩
  cases hspent
  refine ⟨ref, ring, href, hring, ?_, rfl, hstake⟩
  intro last hlast
  rw [hlast] at hsort
  simpa using hsort

theorem checkInputs_eq_ok {vin : List TxIn}
    (h : run (checkInput O K ctx st collectConflicts tx) scan vin = .ok scan') :
    (forall txin, txin ∈ vin -> exists ref ring, ringRef? txin = some ref ∧
      resolveRing K st (isOutputUnlocked ctx st.db.height) (O.prefixHash tx) txin = .ok ring ∧
      checkMasterNodeStake O ctx txin ref.kImage = .ok () ∧
      forall last, scan.lastKeyImage = some last -> keyImageRank ref.kImage < keyImageRank last) ∧
    forall txin txin' ref ref', txin ∈ vin -> txin' ∈ vin -> ringRef? txin = some ref ->
      ringRef? txin' = some ref' -> ref.kImage = ref'.kImage -> txin = txin' := by
  induction vin generalizing scan with
  | nil => simp
  | cons first rest ih =>
    rcases run_cons_ok.mp h with ⟨mid, hfirst, hrest⟩
    rcases checkInput_eq_ok hfirst with ⟨ref, ring, href, hring, hlast, hmid, hstake⟩
    rcases ih hrest with ⟨hresolve, hdist⟩
    -- Every later key image is below that of the first input.
    have hbelow : forall txin ref', txin ∈ rest -> ringRef? txin = some ref' ->
        keyImageRank ref'.kImage < keyImageRank ref.kImage := by
      intro txin ref' hmem href'
      rcases hresolve txin hmem with ⟨ref'', _, href'', _, _, hrank⟩
      rw [href', Option.some.injEq] at href''
      rw [href'']
      exact hrank ref.kImage hmid
    constructor
    · intro txin hmem
      rcases mem_cons.mp hmem with rfl | hmem
      · exact ⟨ref, ring, href, hring, hstake, hlast⟩
      · rcases hresolve txin hmem with ⟨ref', ring', href', hring', hstake', _⟩
        refine ⟨ref', ring', href', hring', hstake', ?_⟩
        intro last hlast'
        exact lt_trans (hbelow txin ref' hmem href') (hlast last hlast')
    · intro txin txin' r r' hmem hmem' hr hr' hkey
      rcases mem_cons.mp hmem with rfl | hin
      · rcases mem_cons.mp hmem' with rfl | hin'
        · rfl
        · have hlt := hbelow txin' r' hin' hr'
          rw [href, Option.some.injEq] at hr
          rw [hr, hkey] at hlt
          exact absurd hlt (lt_irrefl _)
      · rcases mem_cons.mp hmem' with rfl | hin'
        · have hlt := hbelow txin r hin hr
          rw [href, Option.some.injEq] at hr'
          rw [hr', hkey] at hlt
          exact absurd hlt (lt_irrefl _)
        · exact hdist txin txin' r r' hin hin' hr hr' hkey

theorem checkTxInputs_resolves [AddCommGroup P] [DecidableEq P] {T : TokenOracles P}
    {codec : TokenCodec P Blob} {tokenDb : TokenDb Blob} {checked : CheckedInputs P}
    (h : checkTxInputs O T codec tokenDb K ctx st collectConflicts tx = .ok checked) :
    (forall txin, txin ∈ tx.vin -> exists ref ring, ringRef? txin = some ref ∧
      resolveRing K st (isOutputUnlocked ctx st.db.height) (O.prefixHash tx) txin = .ok ring ∧
      checkMasterNodeStake O ctx txin ref.kImage = .ok ()) ∧ DistinctKeyImages tx := by
  rcases bind_ok.mp h with ⟨_, _, h⟩
  rcases bind_ok.mp h with ⟨_, _, h⟩
  rcases bind_ok.mp h with ⟨passed, hpassed, _⟩
  unfold checkByType at hpassed
  split at hpassed
  · rcases bind_ok.mp hpassed with ⟨_, _, hpassed⟩
    rcases bind_ok.mp hpassed with ⟨scan, hscan, _⟩
    rcases checkInputs_eq_ok hscan with ⟨hresolve, hdist⟩
    refine ⟨fun txin hmem => ?_, hdist⟩
    rcases hresolve txin hmem with ⟨ref, ring, href, hring, hstake, _⟩
    exact ⟨ref, ring, href, hring, hstake⟩
  · rcases rejectIf_bind_ok.mp hpassed with ⟨hempty, _⟩
    have hnil : tx.vin = [] := by simpa using hempty
    simp [hnil, DistinctKeyImages]

variable {ref : RingRef}

theorem isRingOf_resolveRing {unlocked : UInt64 -> Bool} {ring : List (OutputData P)}
    (hbinds : BindsInputs prefixHash) (hc : Coherent K prefixHash st.db st.scanTable)
    (hdist : DistinctKeyImages tx) (hmem : txin ∈ tx.vin) (href : ringRef? txin = some ref)
    (h : resolveRing K st unlocked (prefixHash tx) txin = .ok ring) :
    IsRingOf K st.db ref ring := by
  unfold resolveRing at h
  simp only [href] at h
  split at h
  · rcases within_bind_ok.mp h with ⟨scanned, hscan, h⟩
    rcases rejectIf_bind_ok.mp h with ⟨_, h⟩
    cases h
    unfold scanOutputkeysForIndexesZy at hscan
    simp only [rejectIf_bind_ok] at hscan
    exact isRing_visitOutputs (Reads.mapWhile _ _) hscan.2.2
  · rcases within_bind_ok.mp h with ⟨scanned, hscan, h⟩
    rcases rejectIf_bind_ok.mp h with ⟨_, h⟩
    cases h
    rcases rejectIf_bind_ok.mp hscan with ⟨_, hscan⟩
    rcases bind_ok.mp hscan with ⟨outputs, hfetch, hvisit⟩
    have hreads : Reads (getOutputKey K st.db ref.amount) ref.offsets (outputs.drop 0) :=
      reads_fetchOutputs hbinds hc hdist hmem href hfetch
    exact isRing_visitOutputs hreads hvisit

/-! ## Kinds -/

def OfInputKind (K : OutputConstants P) (out : TxOut P) (data : OutputData P) :
    TxIn -> Prop
  | .zyInput _ => IsZyphoraOutput out ∧ data.blindedTokenId ≠ K.nullTid
  | _ => IsNativeOutput out

/-- Each member of the ring is an output of the input's kind, found at its offset. -/
def RingSeparated (K : OutputConstants P) (outs : List (TxOut P)) (txin : TxIn)
    (ref : RingRef) (ring : List (OutputData P)) : Prop :=
  List.Forall₂ (fun offset data => exists out,
    (bucket outs ref.amount)[offset.toNat]? = some out ∧ Describes K data out ∧
      OfInputKind K out data txin) ref.offsets ring

def RingTypesSeparated (O : InputOracles H P) (K : OutputConstants P) (ctx : InputContext)
    (st : ChainState H P) (outs : List (TxOut P)) (tx : Transaction P) : Prop :=
  forall txin ref ring, txin ∈ tx.vin -> ringRef? txin = some ref ->
    resolveRing K st (isOutputUnlocked ctx st.db.height) (O.prefixHash tx) txin = .ok ring ->
    RingSeparated K outs txin ref ring

def OffsetListed (K : OutputConstants P) (db : OutputDb P) (ref : RingRef)
    (offset : UInt64) : TxIn -> Prop
  | .zyInput _ =>
    (exists height, (height, offset.toNat) ∈ db.zyOutputHeights) ∧
      forall data, getOutputKey K db 0 offset = some data -> data.blindedTokenId ≠ K.nullTid
  | _ => ref.amount = 0 -> exists height, (height, offset.toNat) ∈ db.nativeOutputHeights

def OffsetsListed (K : OutputConstants P) (db : OutputDb P) (tx : Transaction P) : Prop :=
  forall txin ref offset, txin ∈ tx.vin -> ringRef? txin = some ref ->
    offset ∈ ref.offsets -> OffsetListed K db ref offset txin

variable {db : OutputDb P} {data : OutputData P}

theorem exists_described (hholds : Holds K db outs)
    (hzero : forall out, out ∈ outs -> IsZyphoraOutput out -> out.amount = 0)
    {amount offset : UInt64} (hget : getOutputKey K db amount offset = some data) :
    exists out, (bucket outs amount)[offset.toNat]? = some out ∧ Describes K data out := by
  rcases hholds.exists_of_getOutputKey hget with ⟨out, row, hout, hrow, hdata⟩
  refine ⟨out, hout, ?_⟩
  unfold readRow at hdata
  split at hdata
  · rw [hdata]
    exact hrow
  next hamt =>
    rcases mem_filter.mp (mem_of_getElem? hout) with ⟨hmem, hbucket⟩
    cases htarget : out.target with
    | toKey key =>
      simp only [Describes, htarget] at hrow ⊢
      rw [hdata]
      exact ⟨hrow.1, rfl⟩
    | zyphora zout =>
      have hnone := hzero out hmem ⟨zout, htarget⟩
      exact absurd ((of_decide_eq_true hbucket).symm.trans hnone) hamt
    | _ => simp [Describes, htarget] at hrow

theorem isNative_or_isZyphora (h : Describes K data out) :
    IsNativeOutput out ∨ IsZyphoraOutput out := by
  cases htarget : out.target with
  | toKey key => exact .inl ⟨key, htarget⟩
  | zyphora zout => exact .inr ⟨zout, htarget⟩
  | _ => simp [Describes, htarget] at h

section

variable (hholds : Holds K db outs)
  (hzero : forall out, out ∈ outs -> IsZyphoraOutput out -> out.amount = 0)
  (href : ringRef? txin = some ref)
include hholds hzero href

theorem ofInputKind_iff_offsetListed
    {offset : UInt64}
    (hget : getOutputKey K db ref.amount offset = some data)
    (hout : (bucket outs ref.amount)[offset.toNat]? = some out)
    (hdescribes : Describes K data out) :
    OfInputKind K out data txin <-> OffsetListed K db ref offset txin := by
  cases txin with
  | toKey txin =>
    constructor
    · intro hnative hamt
      rw [hamt] at hout
      exact (hholds.native offset.toNat).mpr ⟨out, hout, hnative⟩
    · intro hlisted
      by_cases hamt : ref.amount = 0
      · rcases (hholds.native offset.toNat).mp (hlisted hamt) with ⟨out', hout', hnative⟩
        rw [hamt, hout', Option.some.injEq] at hout
        rw [<- hout]
        exact hnative
      · rcases isNative_or_isZyphora hdescribes with hnative | hzyphora
        · exact hnative
        · rcases mem_filter.mp (mem_of_getElem? hout) with ⟨hmem, hbucket⟩
          have hbucket := of_decide_eq_true hbucket
          exact absurd (hbucket.symm.trans (hzero out hmem hzyphora)) hamt
  | zyInput txin =>
    cases href
    constructor
    · rintro ⟨hzyphora, hnonnull⟩
      refine ⟨(hholds.zyphora offset.toNat).mpr ⟨out, hout, hzyphora⟩, ?_⟩
      intro data' hget'
      rw [hget, Option.some.injEq] at hget'
      rw [<- hget']
      exact hnonnull
    · rintro ⟨hlisted, hnonnull⟩
      rcases (hholds.zyphora offset.toNat).mp hlisted with ⟨out', hout', hzyphora⟩
      rw [hout', Option.some.injEq] at hout
      rw [<- hout]
      exact ⟨hzyphora, hnonnull data hget⟩
  | _ => cases href

theorem ringSeparated_iff
    {ring : List (OutputData P)}
    (hring : IsRingOf K db ref ring) :
    RingSeparated K outs txin ref ring <->
      forall offset, offset ∈ ref.offsets -> OffsetListed K db ref offset txin := by
  unfold RingSeparated
  unfold IsRingOf at hring
  generalize ref.offsets = offsets at hring ⊢
  induction hring with
  | nil => simp
  | cons hget _ ih =>
    rw [forall₂_cons, ih, forall_mem_cons]
    refine and_congr_left fun _ => ?_
    rcases exists_described hholds hzero hget with ⟨out, hout, hdescribes⟩
    rw [<- ofInputKind_iff_offsetListed hholds hzero href hget hout hdescribes]
    constructor
    · rintro ⟨out', hout', _, hkind⟩
      rw [hout, Option.some.injEq] at hout'
      rw [hout']
      exact hkind
    · intro hkind
      exact ⟨out, hout, hdescribes, hkind⟩

end

/-- In every run of a node, whose blocks passed the output checks, the rings of an
accepted transaction keep to the kinds of its inputs exactly when the database lists
every offset of every input for the input's kind. -/
theorem ringTypesSeparated_iff [AddCommGroup P] [DecidableEq P] (O : InputOracles H P)
    (T : TokenOracles P) (codec : TokenCodec P Blob) (tokenDb : TokenDb Blob) (C : KeyChecks P)
    (K : OutputConstants P) (ctx : InputContext) (events : List (ChainEvent P))
    (st : ChainState H P) (collectConflicts : Bool) (tx : Transaction P) (checked : CheckedInputs P)
    (hbinds : BindsInputs O.prefixHash)
    (hchain : forall entry, entry ∈ chainOf events -> CheckedEntry C entry)
    (hrun : run (applyEvent K O.prefixHash) (ChainState.genesis H P) events = .ok st) (haccepted :
      checkTxInputs O T codec tokenDb K ctx st collectConflicts tx = .ok checked) :
    RingTypesSeparated O K ctx st (chainOutputs (chainOf events)) tx <->
      OffsetsListed K st.db tx := by
  have hst := (storesOutputs_genesis K O.prefixHash).run hrun
  rw [nil_append] at hst
  have hzero : forall out, out ∈ chainOutputs (chainOf events) -> IsZyphoraOutput out ->
      out.amount = 0 := by
    intro out hmem
    rcases mem_flatMap.mp hmem with ⟨entry, hent, hout⟩
    exact amount_eq_zero_of_checkedEntry (hchain entry hent) hout
  rcases checkTxInputs_resolves haccepted with ⟨hresolves, hdist⟩
  have hiff : forall {txin ref ring}, txin ∈ tx.vin -> ringRef? txin = some ref ->
      resolveRing K st (isOutputUnlocked ctx st.db.height) (O.prefixHash tx) txin = .ok ring ->
      (RingSeparated K (chainOutputs (chainOf events)) txin ref ring <->
        forall offset, offset ∈ ref.offsets -> OffsetListed K st.db ref offset txin) := by
    intro txin ref ring hmem href hring
    exact ringSeparated_iff hst.holds hzero href
      (isRingOf_resolveRing hbinds hst.coherent hdist hmem href hring)
  constructor
  · intro hseparated txin ref offset hmem href hoffset
    rcases hresolves txin hmem with ⟨ref', ring, href', hring, _⟩
    rw [href, Option.some.injEq] at href'
    subst href'
    exact (hiff hmem href hring).mp (hseparated txin ref ring hmem href hring) offset hoffset
  · intro hlisted txin ref ring hmem href hring
    exact (hiff hmem href hring).mpr fun offset hoffset =>
      hlisted txin ref offset hmem href hoffset

/-! ## Two rings over the integers -/

def ringConstants : OutputConstants Int where
  zeroCommit := fun amount => amount.toNat
  nullTid := 0

def ringKeyChecks : KeyChecks Int where
  checkKey := fun _ => true
  checkTokenKey := fun _ => true
  checkCommitment := fun _ => true

/-- A ring signature is accepted when its pseudo output is that of a ring member. -/
def ringOracles : InputOracles (List TxIn) Int where
  prefixHash := Transaction.vin
  formatTransactionHash := fun _ => ""
  formatKeyImage := fun _ => ""
  verRctNonSemanticsSimple := fun _ rv rings _ =>
    rv.pseudoOuts.length == rings.length &&
      (rv.pseudoOuts.zip rings).all fun entry => entry.2.any fun m => m.mask == entry.1
  verMlsag := fun _ _ _ _ => false
  hasMultiOutputBulletproof := fun _ => false
  validateBnsTx := fun _ _ _ => .error ""
  commit := fun amount _ => amount.toNat
  checkStateTx := fun _ => .error ⟨"", [], ""⟩

def noTokenOracles : TokenOracles Int where
  nullPoint := 0
  tid2rct := fun _ => 0
  isInMainSubgroup := fun _ => false
  getTransactionPrefixHash := fun _ => nullHash
  getHf21TokenProofMessage := fun _ _ => nullHash
  verifySchnorrSig := fun _ _ _ => false
  verifyLinearCompositionProof := fun _ _ _ => false
  verifyDoubleSchnorrSig := fun _ _ _ _ => false
  verifyBgeProof := fun _ _ _ _ => false
  verifyVectorUgAggregationProof := fun _ _ _ _ => false
  verBulletproofPlus := fun _ _ => false
  verZySig := fun _ _ _ _ => false

def ringContext : InputContext where
  hfVersion := .hf22PrivacyTokens
  nettype := .mainnet
  currentTime := 0
  bnsValidationHeight := 0
  blacklistedKeyImages := []
  lockedKeyImage := fun _ => none

def nativeOutput (n : BitVec 256) : TxOut Int where
  amount := 0
  target := .toKey ⟨n⟩

def tokenOutput (n : BitVec 256) : TxOut Int where
  amount := 0
  target := .zyphora
    { stealthAddress := ⟨n⟩, amountCommitment := 7, blindedTokenId := 3
      encryptedAmount := 0, mixAttr := 0, version := 0 }

/-- A transaction with the given inputs and outputs; native outputs hold fifty. -/
def sampleTx (vin : List TxIn) (vout : List (TxOut Int)) (sig : RctSig Int) : Transaction Int :=
  { Transaction.setNull Int with
    version := .v4TxTypes
    vin := vin
    vout := vout
    outputUnlockTimes := vout.map fun _ => 0
    rctSignatures := { sig with outPk := vout.map fun _ => ⟨⟨0⟩, 50⟩ } }

def sampleEntry (height : UInt64) (txs : List (Transaction Int)) : BlockEntry Int where
  block :=
    { emptyBlock Int with
      majorVersion := .hf22PrivacyTokens
      minorVersion := 22
      minerTx := sampleTx [.gen height] [nativeOutput 9] (Transaction.setNull Int).rctSignatures
      txHashes := txs.map fun _ => nullHash }
  txs := txs

def ringEvents (vout : List (TxOut Int)) : List (ChainEvent Int) :=
  [.addBlock (sampleEntry 0 [sampleTx [] vout (Transaction.setNull Int).rctSignatures]),
    .addBlock (sampleEntry 1 [])]

def ringState (vout : List (TxOut Int)) : ChainState (List TxIn) Int :=
  match run (applyEvent ringConstants ringOracles.prefixHash)
    (ChainState.genesis (List TxIn) Int) (ringEvents vout) with
  | .ok st => st
  | .error _ => ChainState.genesis (List TxIn) Int

def ringInput : TxIn :=
  .toKey { amount := 0, keyOffsets := [1, 1, 1, 1, 1, 1, 1, 1, 1, 1], kImage := ⟨5⟩ }

def spendFifty : Transaction Int :=
  sampleTx [ringInput] [nativeOutput 11, nativeOutput 12]
    { type := .bulletproofPlus
      txnFee := 0
      outPk := []
      clsags := [{ s := [], c1 := zeroKey, keyImage := ⟨5⟩, d := zeroKey }]
      pseudoOuts := [50] }

theorem checkedEntry_sampleEntry {txs : List (Transaction Int)}
    (h : forall tx, tx ∈ txs -> checkTxOutputFields ringKeyChecks tx = .ok ())
    (height : UInt64) : CheckedEntry ringKeyChecks (sampleEntry height txs) where
  coinbase := ⟨rfl, rfl⟩
  txs := h

theorem checkedEntry_ringEvents {vout : List (TxOut Int)} (h : checkTxOutputFields ringKeyChecks
      (sampleTx [] vout (Transaction.setNull Int).rctSignatures) = .ok ()) :
    forall entry, entry ∈ chainOf (ringEvents vout) -> CheckedEntry ringKeyChecks entry := by
  intro entry hent
  rcases mem_cons.mp hent with rfl | hent
  · exact checkedEntry_sampleEntry (by simpa using h) 0
  · rw [mem_singleton.mp hent]
    exact checkedEntry_sampleEntry (by simp) 1

def tenNative : List (TxOut Int) :=
  [nativeOutput 1, nativeOutput 2, nativeOutput 3, nativeOutput 4, nativeOutput 5,
    nativeOutput 6, nativeOutput 7, nativeOutput 8, nativeOutput 9, nativeOutput 10]

theorem ringTypesSeparated_iff_tenNative :
    BindsInputs ringOracles.prefixHash ∧
    (RingTypesSeparated ringOracles ringConstants ringContext (ringState tenNative)
        (chainOutputs (chainOf (ringEvents tenNative))) spendFifty <->
      OffsetsListed ringConstants (ringState tenNative).db spendFifty) :=
  ⟨fun _ _ h => h, ringTypesSeparated_iff ringOracles noTokenOracles (plainCodec Int) TokenDb.empty
      ringKeyChecks ringConstants ringContext (ringEvents tenNative) (ringState tenNative)
      false spendFifty ⟨spendFifty, 0, []⟩ (fun _ _ h => h) (checkedEntry_ringEvents rfl)
      rfl rfl⟩

def mixedOutputs : List (TxOut Int) :=
  [nativeOutput 1, tokenOutput 2, tokenOutput 3, tokenOutput 4, tokenOutput 5,
    tokenOutput 6, tokenOutput 7, tokenOutput 8, tokenOutput 9, tokenOutput 10]

/-- A native input with nine privacy-token outputs in its ring is accepted. -/
theorem mixedRing_accepted :
    run (applyEvent ringConstants ringOracles.prefixHash)
        (ChainState.genesis (List TxIn) Int) (ringEvents mixedOutputs) =
      .ok (ringState mixedOutputs) ∧ (forall entry, entry ∈ chainOf (ringEvents mixedOutputs) ->
      CheckedEntry ringKeyChecks entry) ∧ featurePrivacyTokens <= ringContext.hfVersion ∧
    checkTxInputs ringOracles noTokenOracles (plainCodec Int) TokenDb.empty ringConstants
        ringContext (ringState mixedOutputs) false spendFifty = .ok ⟨spendFifty, 0, []⟩ ∧
    ¬ RingTypesSeparated ringOracles ringConstants ringContext (ringState mixedOutputs)
        (chainOutputs (chainOf (ringEvents mixedOutputs))) spendFifty := by
  refine ⟨rfl, checkedEntry_ringEvents rfl, by decide, rfl, ?_⟩
  intro hseparated
  have hring := hseparated ringInput _ _ mem_cons_self rfl rfl
  -- The second member is the output number two, a privacy-token output.
  cases hring with
  | cons _ htail =>
    cases htail with
    | cons hsecond _ =>
      rcases hsecond with ⟨out, hout, _, key, hkey⟩
      have htoken : out = tokenOutput 2 := (Option.some.inj hout).symm
      rw [htoken] at hkey
      cases hkey

end Beldex.Outputs
