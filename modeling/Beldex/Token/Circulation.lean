import Beldex.Token.Conservation
import Beldex.Token.Ownership
import Beldex.Token.Rewind
import Beldex.Token.Supply
import Mathlib.Algebra.BigOperators.Group.Multiset.Basic
import Mathlib.Logic.Relation

/-!
# Circulating amounts and recorded supplies

The amounts of a token live in unspent outputs, its supply in the token state of
the database.  Each block moves the two by the same amount as long as none of
its transactions issues units while it spends privacy-token inputs and its
coinbase, whose outputs nobody proves anything about, has no privacy-token
outputs, so that they agree along every chain of such blocks.
-/

namespace Beldex.Token

open Basic Crypto Foundation Foundation.Fallible Foundation.Pedersen Table List

variable {Blob : Type}

/-! ## The recorded supply -/

section

variable {P : Type} {codec : TokenCodec P Blob} {db : TokenDb Blob}

def recordedSupply (codec : TokenCodec P Blob) (db : TokenDb Blob) (t : TokenId) : Nat :=
  match loadTokenState codec db t with
  | .ok state => state.currentSupply.toNat
  | .error _ => 0

/-- The copy of a token holds supply `n`; an unregistered token has none. -/
def SupplyAt (codec : TokenCodec P Blob) (db : TokenDb Blob)
    (states : Table TokenId TokenConsensusState) (t : TokenId) (n : Int) : Prop :=
  exists s, stateIn codec db states t = .ok s ∧
    (s.existing = false -> s.currentSupply = 0) ∧ (s.currentSupply.toNat : Int) = n

theorem supplyAt_empty (hdb : Stored codec db) (t : TokenId) :
    SupplyAt codec db empty t (recordedSupply codec db t) := by
  unfold SupplyAt recordedSupply stateIn loadTokenState
  cases hrow : db.tokenHistories t with
  | none => exact ⟨{}, rfl, fun _ => rfl, rfl⟩
  | some blob =>
    rcases hdb t blob hrow with ⟨s, hexisting, rfl⟩
    refine ⟨s, ?_, ?_, ?_⟩
    · simp [within, codec.parse_dumpState]
    · intro hnew
      rw [hexisting] at hnew
      cases hnew
    · simp [within, codec.parse_dumpState]

variable {op : TokenDescriptorOperation P}

theorem TokenStep.currentSupply_eq {s s' : TokenConsensusState} (h : TokenStep op s s')
    (hfresh : s.existing = false -> s.currentSupply = 0) :
    (s'.currentSupply.toNat : Int) =
      s.currentSupply.toNat + operationDelta codec (getOrCalculateTokenId codec op) op := by
  unfold operationDelta
  rw [if_pos rfl]
  cases h with
  | register hop hnew _ _ =>
    rw [hop, hfresh hnew]
    simp [TokenConsensusState.registered]
  | mint hop _ _ hfits =>
    rw [hop]
    change ((s.currentSupply + op.amount).toNat : Int) = _
    rw [toNat_add_of_le_max hfits]
    push_cast
    rfl
  | burn hop _ _ hle =>
    have hsub : (s.currentSupply - op.amount).toNat = s.currentSupply.toNat - op.amount.toNat :=
      UInt64.toNat_sub_of_le _ _ (UInt64.le_iff_toNat_le.mpr hle)
    rw [hop]
    change ((s.currentSupply - op.amount).toNat : Int) = _
    rw [hsub]
    simp only
    omega
  | update hop _ _ => simp [hop]

variable {work : BlockWork}

theorem stateIn_of_touch {id : TokenId} {state : TokenConsensusState} {undo : List TokenUndoEntry}
    (h : work.touch codec db id = .ok (state, undo)) :
    stateIn codec db work.states id = .ok state := by
  unfold stateIn
  rcases touch_cases h with ⟨hfind, _⟩ | ⟨hfind, hload, _⟩
  · rw [hfind]
  · rw [hfind]
    exact hload

variable {work' : BlockWork} {t : TokenId} {n : Int}

theorem supplyAt_step (hstep : applyBlockOperation codec db work op = .ok work')
    (h : SupplyAt codec db work.states t n) :
    SupplyAt codec db work'.states t (n + operationDelta codec t op) := by
  rcases applyBlockOperation_eq_ok hstep with
    ⟨state, next, undo, _, htouch, happly, rfl⟩
  have hin := stateIn_of_touch htouch
  have htoken := applyTokenOperationToState_step happly
  rcases h with ⟨s, hs, hfresh, hn⟩
  by_cases hid : t = getOrCalculateTokenId codec op
  · subst hid
    rw [hin] at hs
    cases hs
    refine ⟨_, by unfold stateIn; rw [find?_set_self], ?_, ?_⟩
    · intro hnew
      rw [htoken.existing_eq_true] at hnew
      cases hnew
    · rw [<- hn]
      exact htoken.currentSupply_eq hfresh
  · refine ⟨s, ?_, hfresh, ?_⟩
    · unfold stateIn at hs ⊢
      rw [find?_set_of_ne _ _ hid]
      exact hs
    · rw [hn]
      simp [operationDelta, Ne.symm hid]

theorem supplyAt_run {ops : List (TokenDescriptorOperation P)}
    (hrun : run (applyBlockOperation codec db) work ops = .ok work')
    (h : SupplyAt codec db work.states t n) :
    SupplyAt codec db work'.states t (n + (ops.map (operationDelta codec t)).sum) := by
  induction ops generalizing work n with
  | nil =>
    cases hrun
    simpa using h
  | cons op rest ih =>
    rcases run_cons_ok.mp hrun with ⟨work1, hfirst, hrest⟩
    have hnext := ih hrest (supplyAt_step hfirst h)
    rw [map_cons, sum_cons, <- add_assoc]
    exact hnext

theorem loadTokenState_persist (work : BlockWork) (height : Nat) (t : TokenId) :
    loadTokenState codec (work.persist codec db height) t = stateIn codec db work.states t := by
  unfold loadTokenState stateIn
  rw [persist_tokenHistories, writeAll_apply]
  cases hfind : work.states.find? t with
  | none => rfl
  | some s => simp [within, codec.parse_dumpState]

end

/-! ## Chains -/

/-- A transaction of a block, with the rings it was verified against and the
members that its signatures spend. -/
structure RingTx where
  tx : Transaction Commitment
  pubkeys : List (List (Ctkey Commitment))
  tokenIdRings : List (List Commitment)
  spent : List Member

structure AcceptedRingTx (O : TokenOracles Commitment) (codec : TokenCodec Commitment Blob)
    (db : TokenDb Blob) (hf : Hf) (entry : RingTx) : Prop where
  accepted : AcceptedTx O codec db hf entry.tx entry.pubkeys entry.tokenIdRings
  indexable : Indexable entry.tx
  spends : Spends entry.tx entry.pubkeys entry.tokenIdRings entry.spent

def spentMembers (block : List RingTx) : List Member :=
  block.flatMap RingTx.spent

def createdMembers (block : List RingTx) : List Member :=
  block.flatMap fun entry => outputMembers entry.tx

structure Ledger (Blob : Type) where
  height : Nat
  db : TokenDb Blob
  unspent : Multiset Member

def Ledger.genesis : Ledger Blob where
  height := 0
  db := TokenDb.empty
  unspent := 0

def Ledger.circulating (ledger : Ledger Blob) (t : TokenId) : Nat :=
  (ledger.unspent.map fun m => amountOf t m.mask).sum

/-- One more block, all of whose transactions are accepted and allowed.  The outputs of the
coinbase are added as they are.  Every output is spent once; native outputs come and go
besides. -/
inductive LedgerStep (O : TokenOracles Commitment) (codec : TokenCodec Commitment Blob)
    (networkVersion : Nat -> Hf) (allowed allowedMiner : Transaction Commitment -> Prop) :
    Ledger Blob -> Ledger Blob -> Prop where
  | block {ledger : Ledger Blob} {db' : TokenDb Blob} {minerTx : Transaction Commitment}
      {block : List RingTx} {nativeSpent nativeCreated kept : Multiset Member} :
      allowedMiner minerTx ->
      (forall entry, entry ∈ block ->
        AcceptedRingTx O codec ledger.db (networkVersion ledger.height) entry ∧ allowed entry.tx) ->
      addBlockTokens codec networkVersion ledger.db ledger.height
        (block.map RingTx.tx) = .ok db' -> (forall m, m ∈ nativeSpent -> IsNativeMember m) ->
      (forall m, m ∈ nativeCreated -> IsNativeMember m) ->
      ledger.unspent = spentMembers block + nativeSpent + kept ->
      LedgerStep O codec networkVersion allowed allowedMiner ledger
        { height := ledger.height + 1
          db := db'
          unspent :=
            kept + (createdMembers block ++ outputMembers minerTx : List Member) + nativeCreated }

section Chain

variable {O : TokenOracles Commitment} {codec : TokenCodec Commitment Blob}
  {networkVersion : Nat -> Hf}

theorem totalAmount_append (t : TokenId) (ms ns : List Member) :
    totalAmount t (ms ++ ns) = totalAmount t ms + totalAmount t ns := by
  unfold totalAmount
  rw [map_append, sum_append]

theorem sum_amountOf_native {ms : Multiset Member} (h : forall m, m ∈ ms -> IsNativeMember m)
    (t : TokenId) : (ms.map fun m => amountOf t m.mask).sum = 0 := by
  apply Multiset.sum_eq_zero
  intro n hn
  rcases Multiset.mem_map.mp hn with ⟨m, hm, rfl⟩
  exact amountOf_of_isNativeMember (h m hm) t

theorem sum_amountOf_coe (t : TokenId) (ms : List Member) :
    ((ms : Multiset Member).map fun m => amountOf t m.mask).sum = totalAmount t ms := rfl

variable {hf : Hf} {block : List RingTx}

theorem totalAmount_block (hO : SoundOracles O) {db : TokenDb Blob}
    (hblock : forall entry, entry ∈ block ->
      AcceptedRingTx O codec db hf entry ∧ ¬ IssuesWhileSpending entry.tx)
    (hchain : forall m, m ∈ spentMembers block -> IsChainMember m) (t : TokenId) :
    (totalAmount t (createdMembers block) : Int) - totalAmount t (spentMembers block) =
      ((blockOperations (block.map RingTx.tx)).map (operationDelta codec t)).sum := by
  induction block with
  | nil => rfl
  | cons entry rest ih =>
    rcases hblock entry mem_cons_self with ⟨hent, hallowed⟩
    have hnet := totalAmount_net hO hent.accepted hent.indexable hent.spends
      (fun m hm => hchain m (mem_append_left _ hm)) t
    rw [(realisedNet_eq_declaredNet_iff hent.accepted).mpr hallowed t] at hnet
    have hrest := ih (fun e he => hblock e (mem_cons_of_mem entry he))
      (fun m hm => hchain m (mem_append_right _ hm))
    unfold createdMembers spentMembers blockOperations declaredNet at *
    rw [flatMap_cons, flatMap_cons, map_cons, flatMap_cons,
      map_append, sum_append, totalAmount_append, totalAmount_append]
    push_cast
    omega

theorem blockOperations_eq_nil {db : TokenDb Blob} (hfork : hf < featurePrivacyTokens)
    (hblock : forall entry, entry ∈ block -> AcceptedRingTx O codec db hf entry) :
    blockOperations (block.map RingTx.tx) = [] := by
  unfold blockOperations
  rw [flatMap_eq_nil_iff]
  intro tx htx
  rcases mem_map.mp htx with ⟨entry, hent, rfl⟩
  have hvalid := (hblock entry hent).accepted.operations
  unfold validateTxTokenOperationsAgainstDb at hvalid
  rw [if_pos hfork, rejectIf_ok] at hvalid
  simpa using hvalid

structure SupplyInvariant (codec : TokenCodec Commitment Blob) (ledger : Ledger Blob) : Prop where
  stored : Stored codec ledger.db
  members : forall m, m ∈ ledger.unspent -> IsChainMember m
  circulating_eq : forall t, ledger.circulating t = recordedSupply codec ledger.db t

theorem supplyInvariant_genesis (codec : TokenCodec Commitment Blob) :
    SupplyInvariant codec Ledger.genesis where
  stored := stored_empty
  members := fun m hm => by simp [Ledger.genesis] at hm
  circulating_eq := fun _ => rfl

theorem recordedSupply_addBlockTokens {db db' : TokenDb Blob} (hdb : Stored codec db) {height : Nat}
    (hblock : forall entry, entry ∈ block ->
      AcceptedRingTx O codec db (networkVersion height) entry)
    (h : addBlockTokens codec networkVersion db height (block.map RingTx.tx) = .ok db')
    (t : TokenId) :
    (recordedSupply codec db' t : Int) = recordedSupply codec db t +
        ((blockOperations (block.map RingTx.tx)).map (operationDelta codec t)).sum := by
  unfold addBlockTokens at h
  split at h
  · rcases bind_ok.mp h with ⟨work, hrun, hpersist⟩
    cases hpersist
    rcases supplyAt_run hrun (supplyAt_empty hdb t) with ⟨s, hs, _, hn⟩
    rw [<- hn]
    unfold recordedSupply
    rw [loadTokenState_persist, hs]
  next hfork =>
    cases h
    rw [blockOperations_eq_nil ((Hf.lt_iff_not_le _ _).mpr hfork) hblock]
    simp

variable {ledger : Ledger Blob}

theorem supplyInvariant_step (hO : SoundOracles O) {ledger' : Ledger Blob}
    (hstep : LedgerStep O codec networkVersion (fun tx => ¬ IssuesWhileSpending tx)
      (fun tx => tx.zyOutputs = []) ledger ledger') (h : SupplyInvariant codec ledger) :
    SupplyInvariant codec ledger' := by
  cases hstep with
  | @block db' minerTx block nativeSpent nativeCreated kept hminer hblock hadd hspentNative
      hnative hunspent =>
      have hcoinbase : outputMembers minerTx = [] := by
        unfold outputMembers
        rw [hminer]
        rfl
      rw [hcoinbase, append_nil]
      have hspent : forall m, m ∈ spentMembers block -> IsChainMember m := by
        intro m hm
        apply h.members
        rw [hunspent]
        simp [hm]
      constructor
      · exact stored_addBlockTokens h.stored hadd
      · intro m hm
        rcases Multiset.mem_add.mp hm with hm | hm
        · rcases Multiset.mem_add.mp hm with hm | hm
          · apply h.members
            rw [hunspent]
            exact Multiset.mem_add.mpr (Or.inr hm)
          · rcases mem_flatMap.mp (Multiset.mem_coe.mp hm) with ⟨entry, hent, hout⟩
            have haccepted := (hblock entry hent).1
            exact Or.inl (isTokenMember_output hO
              (verTokenProofs_eq_ok haccepted.accepted.proofs) haccepted.spends
              (fun m' hm' => hspent m' (mem_flatMap.mpr ⟨entry, hent, hm'⟩)) hout)
        · exact Or.inr (hnative m hm)
      · intro t
        have hsup := recordedSupply_addBlockTokens h.stored
          (fun entry hent => (hblock entry hent).1) hadd t
        have hamts := totalAmount_block hO hblock hspent t
        have hbef := h.circulating_eq t
        unfold Ledger.circulating at hbef ⊢
        rw [hunspent, Multiset.map_add, Multiset.map_add, Multiset.sum_add,
          Multiset.sum_add, sum_amountOf_native hspentNative, sum_amountOf_coe] at hbef
        rw [Multiset.map_add, Multiset.map_add, Multiset.sum_add, Multiset.sum_add,
          sum_amountOf_native hnative, sum_amountOf_coe]
        change _ = recordedSupply codec db' t
        omega

theorem supplyInvariant_run (hO : SoundOracles O) (hrun : Relation.ReflTransGen
      (LedgerStep O codec networkVersion (fun tx => ¬ IssuesWhileSpending tx)
        fun tx => tx.zyOutputs = []) Ledger.genesis ledger) : SupplyInvariant codec ledger := by
  induction hrun with
  | refl => exact supplyInvariant_genesis codec
  | tail _ hstep ih => exact supplyInvariant_step hO hstep ih

end Chain

/-- An accepted transaction adds what it declares to every token exactly when it
does not issue units while it spends privacy-token inputs, and over every chain
without such transactions and without privacy-token outputs in a coinbase the circulating
amounts are the recorded supplies. -/
theorem tokenConservation_iff {O : TokenOracles Commitment} (hO : SoundOracles O)
    (codec : TokenCodec Commitment Blob) :
    (forall (db : TokenDb Blob) (hf : Hf) (tx : Transaction Commitment)
      (pubkeys : List (List (Ctkey Commitment))) (tokenIdRings : List (List Commitment)),
      AcceptedTx O codec db hf tx pubkeys tokenIdRings -> Indexable tx ->
      (exists spent, Spends tx pubkeys tokenIdRings spent) ∧
      forall spent, Spends tx pubkeys tokenIdRings spent ->
        (forall m, m ∈ spent -> IsChainMember m) ->
        ((forall t, (totalAmount t (outputMembers tx) : Int) - totalAmount t spent =
            declaredNet codec tx t) <-> ¬ IssuesWhileSpending tx)) ∧
    (forall (networkVersion : Nat -> Hf) (ledger : Ledger Blob), Relation.ReflTransGen
        (LedgerStep O codec networkVersion (fun tx => ¬ IssuesWhileSpending tx)
          fun tx => tx.zyOutputs = []) Ledger.genesis ledger ->
      forall t, ledger.circulating t = recordedSupply codec ledger.db t) := by
  constructor
  · intro db hf tx pubkeys tokenIdRings haccepted hsize
    refine ⟨exists_spends hO (verTokenProofs_eq_ok haccepted.proofs), ?_⟩
    intro spent hspent hchain
    rw [<- realisedNet_eq_declaredNet_iff haccepted]
    apply forall_congr'
    intro t
    rw [totalAmount_net hO haccepted hsize hspent hchain t]
  · intro networkVersion ledger hrun
    exact (supplyInvariant_run hO hrun).circulating_eq

/-! ## A mint beside an input -/

noncomputable def sevenTag : Commitment :=
  base (.token ⟨7⟩)

noncomputable def eightUnits : Commitment :=
  ((8 : Nat) : Scalar) • sevenTag

theorem isTag_sevenTag : IsTag (⟨7⟩ : TokenId) sevenTag :=
  ⟨0, by rw [zero_smul, add_zero, sevenTag]⟩

theorem opens_eightUnits : Opens sevenTag eightUnits ((8 : Nat) : Scalar) :=
  ⟨0, by rw [zero_smul, add_zero, eightUnits]⟩

theorem amountOf_eightUnits (t : TokenId) : amountOf t eightUnits = if t = ⟨7⟩ then 8 else 0 :=
  amountOf_of_opens isTag_sevenTag opens_eightUnits (by decide)

theorem eightUnits_ne_zero : eightUnits ≠ 0 := by
  intro h
  have hamt := amountOf_eightUnits ⟨7⟩
  rw [h, if_pos rfl] at hamt
  simp [amountOf] at hamt

noncomputable def eightOutput : TxOutZyphora Commitment where
  stealthAddress := ⟨3⟩
  amountCommitment := eightUnits
  blindedTokenId := sevenTag
  encryptedAmount := 0
  mixAttr := 0
  version := 0

noncomputable def mintEight : TokenDescriptorOperation Commitment :=
  { operationType := .mintToken, fields := 11, amountCommitment := eightUnits
    tokenId := ⟨7⟩, amount := 8 }

noncomputable def eightRange : ZyOutsRangeProof Commitment where
  bpp := ⟨⟨0⟩, ⟨0⟩, ⟨0⟩, ⟨0⟩, ⟨0⟩, ⟨0⟩, [], []⟩
  aggregationProof := ⟨[base .h], [], [], ⟨0⟩⟩

def compositionOnly : TokenOperationProof where
  flags := 1
  compositionProof := ⟨⟨0⟩, ⟨0⟩, ⟨0⟩⟩

noncomputable def mintTx (vin : List TxIn) (zySig : List (ZySig Commitment))
    (balance : List (TokenProof Commitment)) : Transaction Commitment :=
  { Transaction.setNull Commitment with
    type := .mintToken
    vin := vin
    vout := [{ amount := 0, target := .zyphora eightOutput }]
    extra := some [.tokenDescriptorOperation mintEight]
    zySig := zySig
    tokenProofs := balance ++ [
      .surjection [⟨⟨0⟩, ⟨0⟩, [], [], ⟨0⟩, ⟨0⟩⟩], .tokenOperation compositionOnly,
      .ownership ⟨⟨1⟩, ⟨1⟩⟩, .outsRange eightRange] }

noncomputable def spendEight : ZySig Commitment where
  clsagSig := ⟨[], [], ⟨0⟩, ⟨9⟩, ⟨0⟩, ⟨0⟩⟩
  pseudoOutAmountCommitment := eightUnits
  pseudoOutBlindedTokenId := sevenTag

noncomputable def plainMintTx : Transaction Commitment :=
  mintTx [] [] []

noncomputable def spendingMintTx : Transaction Commitment :=
  mintTx [.zyInput ⟨[], ⟨9⟩⟩] [spendEight] [.balance ⟨0, ⟨⟨0⟩, ⟨0⟩, ⟨0⟩⟩⟩]

theorem eightUnits_aggregate : AllAggregateTo [eightUnits] [sevenTag] [base .h] := by
  apply List.Forall₂.cons _ List.Forall₂.nil
  refine ⟨((8 : Nat) : Scalar), 0, opens_eightUnits, ?_⟩
  rw [zero_smul, add_zero, Nat.cast_smul_eq_nsmul]

theorem inRange_base_h : InRange (base .h) := by
  refine ⟨8, 0, by decide, ?_⟩
  rw [zero_smul, add_zero, Nat.cast_smul_eq_nsmul]

theorem isBlinding_zero : IsBlinding 0 :=
  ⟨0, 0, by simp⟩

theorem isResidual_zero : IsResidual 0 :=
  ⟨0, by simp⟩

variable {ring : List Commitment}

theorem blindsOneOf_sevenTag (h : sevenTag ∈ ring) : BlindsOneOf sevenTag ring :=
  ⟨sevenTag, h, 0, by simp⟩

theorem hides_spendEight : Hides spendEight ⟨eightUnits, sevenTag⟩ :=
  ⟨⟨0, by simp [spendEight]⟩, ⟨0, by simp [spendEight]⟩⟩

theorem honest_surjection (message : Hash) (h : sevenTag ∈ ring) (proof : BgeProof) :
    verBgeProofs honestOracles message ring [(eightOutput, 0)] [proof] = .ok () := by
  have hblinds : BlindsOneOf eightOutput.blindedTokenId ring := blindsOneOf_sevenTag h
  apply rejectIf_bind_ok.mpr
  exact ⟨by simpa [honestOracles] using hblinds, rfl⟩

theorem honest_range (message : Hash) {tx : Transaction Commitment}
    (hproofs : rangeProofs tx = [eightRange]) (houts : tx.zyOutputs = [eightOutput])
    (hsource : checkOutputSource (plainCodec Commitment) tx = .ok ()) :
    verRange honestOracles (plainCodec Commitment) message tx = .ok () := by
  unfold verRange
  rw [hproofs, houts]
  refine rejectIf_bind_ok.mpr ⟨rfl, ?_⟩
  refine bind_ok.mpr ⟨(), hsource, ?_⟩
  have haggregate : AllAggregateTo [eightOutput.amountCommitment]
      [eightOutput.blindedTokenId]
      eightRange.aggregationProof.amountCommitmentsForRpAggregation := eightUnits_aggregate
  have hrange : forall v,
      v ∈ eightRange.aggregationProof.amountCommitmentsForRpAggregation -> InRange v := by
    intro v hv
    rw [mem_singleton.mp hv]
    exact inRange_base_h
  refine rejectIf_bind_ok.mpr ⟨by simpa [honestOracles] using haggregate, ?_⟩
  exact rejectIf_ok.mpr (by simpa [honestOracles] using hrange)

theorem plainMint_proofs : verTokenProofs honestOracles (plainCodec Commitment)
    plainMintTx [] [] = .ok () := by
  refine bind_ok.mpr ⟨(), rfl, ?_⟩
  refine bind_ok.mpr ⟨(), rfl, ?_⟩
  refine rejectIf_bind_ok.mpr ⟨rfl, ?_⟩
  refine bind_ok.mpr ⟨[sevenTag], rfl, ?_⟩
  refine bind_ok.mpr ⟨(), ?_, ?_⟩
  · exact rejectIf_bind_ok.mpr ⟨rfl, honest_surjection _ (by simp) _⟩
  refine rejectIf_bind_ok.mpr ⟨rfl, ?_⟩
  exact bind_ok.mpr ⟨(), rfl, honest_range _ rfl rfl rfl⟩

theorem spendingMint_proofs : verTokenProofs honestOracles (plainCodec Commitment)
    spendingMintTx [[⟨⟨4⟩, eightUnits⟩]] [[sevenTag]] = .ok () := by
  refine bind_ok.mpr ⟨(), rfl, ?_⟩
  refine bind_ok.mpr ⟨(), ?_, ?_⟩
  · apply checkAll_eq_ok.mpr
    intro entry hent
    rw [mem_singleton.mp hent]
    refine rejectIf_bind_ok.mpr ⟨rfl, ?_⟩
    refine rejectIf_bind_ok.mpr ⟨rfl, ?_⟩
    have hspends : SpendsOneOf spendEight (members [⟨⟨4⟩, eightUnits⟩] [sevenTag]) :=
      ⟨_, mem_singleton.mpr rfl, hides_spendEight⟩
    exact rejectIf_bind_ok.mpr ⟨by simpa [honestOracles] using hspends, rfl⟩
  refine rejectIf_bind_ok.mpr ⟨rfl, ?_⟩
  refine bind_ok.mpr ⟨[sevenTag, sevenTag], rfl, ?_⟩
  refine bind_ok.mpr ⟨(), ?_, ?_⟩
  · exact rejectIf_bind_ok.mpr ⟨rfl, honest_surjection _ (by simp) _⟩
  refine rejectIf_bind_ok.mpr ⟨rfl, ?_⟩
  refine bind_ok.mpr ⟨(), ?_, honest_range _ rfl rfl rfl⟩
  refine bind_ok.mpr ⟨0, rfl, ?_⟩
  have hzero : (0 : Commitment) = 0 + (eightUnits + 0) - (0 + (eightUnits + 0)) - 0 := by
    simp
  refine rejectIf_bind_ok.mpr ⟨bne_eq_false_iff_eq.mpr hzero, ?_⟩
  exact rejectIf_ok.mpr (by simpa [honestOracles] using isResidual_zero)

theorem mintEight_valid : validateTokenDescriptorOperation honestOracles
    (plainCodec Commitment) mintEight = .ok () := by
  have hne : (mintEight.amountCommitment == honestOracles.nullPoint) = false :=
    beq_eq_false_iff_ne.mpr eightUnits_ne_zero
  refine rejectIf_bind_ok.mpr ⟨rfl, ?_⟩
  refine rejectIf_bind_ok.mpr ⟨rfl, ?_⟩
  refine rejectIf_bind_ok.mpr ⟨rfl, ?_⟩
  refine rejectIf_bind_ok.mpr ⟨rfl, ?_⟩
  exact rejectIf_bind_ok.mpr ⟨by rw [hne, Bool.and_false], rfl⟩

section Mint

variable {vin : List TxIn} {zySig : List (ZySig Commitment)}
  {balance : List (TokenProof Commitment)}
  (hproof : tokenOperationProofs (mintTx vin zySig balance) = [compositionOnly])

include hproof in
theorem mintEight_amount :
    checkAmountCommitment honestOracles (mintTx vin zySig balance) mintEight ⟨7⟩ = .ok () := by
  have hblinding : IsBlinding (mintEight.amountCommitment -
      (declaredAmount mintEight).toNat • honestOracles.tid2rct ⟨7⟩) := by
    change IsBlinding (eightUnits - (8 : Nat) • sevenTag)
    rw [eightUnits, Nat.cast_smul_eq_nsmul, sub_self]
    exact isBlinding_zero
  have hsum : ((mintTx vin zySig balance).zyOutputs.map
      TxOutZyphora.amountCommitment).sum = mintEight.amountCommitment := by
    change eightUnits + 0 = eightUnits
    rw [add_zero]
  unfold checkAmountCommitment
  rw [if_pos (by decide)]
  refine rejectIf_bind_ok.mpr ⟨rfl, ?_⟩
  refine bind_ok.mpr ⟨compositionOnly, by unfold theTokenOperationProof; rw [hproof], ?_⟩
  refine rejectIf_bind_ok.mpr ⟨rfl, ?_⟩
  refine rejectIf_bind_ok.mpr ⟨by simpa [honestOracles] using hblinding, ?_⟩
  refine rejectIf_bind_ok.mpr ⟨rfl, ?_⟩
  exact rejectIf_ok.mpr (bne_eq_false_iff_eq.mpr hsum)

def sevenState (supply : UInt64) : TokenConsensusState :=
  { existing := true
    descriptor := { ownedDescriptor ⟨1⟩ with currentSupply := supply }
    currentSupply := supply
    totalMaxSupply := 1000 }

include hproof in
theorem mintEight_operation (howner : ownershipProofs (mintTx vin zySig balance) = [⟨⟨1⟩, ⟨1⟩⟩]) :
    validateTxTokenOperation honestOracles (plainCodec Commitment) ownedDb
      (mintTx vin zySig balance) ⟨empty, nullTid⟩ (mintEight, 0) =
        .ok ⟨empty.set ⟨7⟩ (sevenState 108), ⟨7⟩⟩ := by
  refine rejectIf_bind_ok.mpr ⟨rfl, ?_⟩
  refine rejectIf_bind_ok.mpr ⟨rfl, ?_⟩
  refine rejectIf_bind_ok.mpr ⟨rfl, ?_⟩
  refine rejectIf_bind_ok.mpr ⟨rfl, ?_⟩
  refine within_bind_ok.mpr ⟨(), mintEight_valid, ?_⟩
  refine rejectIf_bind_ok.mpr ⟨rfl, ?_⟩
  refine rejectIf_bind_ok.mpr ⟨rfl, ?_⟩
  refine bind_ok.mpr ⟨sevenState 100, rfl, ?_⟩
  refine bind_ok.mpr ⟨(), mintEight_amount hproof, ?_⟩
  refine bind_ok.mpr ⟨(), ?_, ?_⟩
  · unfold checkOwnership
    rw [howner]
    rfl
  exact within_bind_ok.mpr ⟨sevenState 108, rfl, rfl⟩

include hproof in
theorem mint_operations (howner : ownershipProofs (mintTx vin zySig balance) = [⟨⟨1⟩, ⟨1⟩⟩]) :
    validateTxTokenOperationsAgainstDb honestOracles (plainCodec Commitment) ownedDb
      (mintTx vin zySig balance) .hf22PrivacyTokens = .ok () := by
  unfold validateTxTokenOperationsAgainstDb
  rw [if_neg (by decide)]
  have hwork := mintEight_operation hproof howner
  exact bind_ok.mpr ⟨_, run_cons_ok.mpr ⟨_, hwork, rfl⟩, rfl⟩

end Mint

theorem tokenConservation_iff_plainMint :
    (AcceptedTx honestOracles (plainCodec Commitment) ownedDb .hf22PrivacyTokens
      plainMintTx [] [] ∧ ¬ IssuesWhileSpending plainMintTx) ∧
    forall t, (totalAmount t (outputMembers plainMintTx) : Int) - totalAmount t [] =
      declaredNet (plainCodec Commitment) plainMintTx t :=
  have haccepted : AcceptedTx honestOracles (plainCodec Commitment) ownedDb
      .hf22PrivacyTokens plainMintTx [] [] := ⟨plainMint_proofs, mint_operations rfl rfl⟩
  have hnot : ¬ IssuesWhileSpending plainMintTx := fun h => h.1 rfl
  ⟨⟨haccepted, hnot⟩, (((tokenConservation_iff soundOracles_honestOracles (plainCodec Commitment)).1
      ownedDb .hf22PrivacyTokens plainMintTx [] [] haccepted ⟨by decide, by decide⟩).2 [] .nil
      (fun _ h => nomatch h)).mpr hnot⟩

noncomputable def eightCoinbase : Transaction Commitment :=
  { Transaction.setNull Commitment with vout := [{ amount := 0, target := .zyphora eightOutput }] }

/-- A mint of eight units that also spends eight units of the token is accepted, and no unit is
created.  A coinbase with eight units of an unregistered token brings them into circulation. -/
theorem spendingMint_creates_nothing :
    AcceptedTx honestOracles (plainCodec Commitment) ownedDb .hf22PrivacyTokens
      spendingMintTx [[⟨⟨4⟩, eightUnits⟩]] [[sevenTag]] ∧
    Spends spendingMintTx [[⟨⟨4⟩, eightUnits⟩]] [[sevenTag]] [⟨eightUnits, sevenTag⟩] ∧
    IsChainMember ⟨eightUnits, sevenTag⟩ ∧ (totalAmount ⟨7⟩ (outputMembers spendingMintTx) : Int) -
        totalAmount ⟨7⟩ [⟨eightUnits, sevenTag⟩] = 0 ∧
    declaredNet (plainCodec Commitment) spendingMintTx ⟨7⟩ = 8 ∧
    exists ledger, LedgerStep honestOracles (plainCodec Commitment) (fun _ => .hf22PrivacyTokens)
        (fun tx => ¬ IssuesWhileSpending tx) (fun tx => tx = eightCoinbase) Ledger.genesis ledger ∧
      ledger.circulating ⟨7⟩ = 8 ∧
      recordedSupply (plainCodec Commitment) ledger.db ⟨7⟩ = 0 := by
  have hnone : forall m : Member, m ∈ (0 : Multiset Member) -> IsNativeMember m := by
    intro m hm
    exact absurd hm (Multiset.notMem_zero m)
  refine ⟨⟨spendingMint_proofs, mint_operations rfl rfl⟩, ?_, ?_, ?_, rfl, _,
    @LedgerStep.block _ _ _ _ _ _ _ TokenDb.empty eightCoinbase [] 0 0 0 rfl
      (fun entry hent => nomatch hent) rfl hnone hnone rfl, ?_, rfl⟩
  · exact .cons ⟨mem_singleton.mpr rfl, hides_spendEight⟩ .nil
  · exact Or.inl ⟨⟨7⟩, 8, isTag_sevenTag, opens_eightUnits, by decide⟩
  · exact sub_self _
  · change ((0 + ([⟨eightUnits, sevenTag⟩] : List Member) + 0 : Multiset Member).map
      fun m => amountOf ⟨7⟩ m.mask).sum = 8
    simp [amountOf_eightUnits]

end Beldex.Token
