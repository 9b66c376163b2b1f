import Beldex.Pos.Invariant
import Beldex.Voting.QuorumIntersection

/-!
# Assembling the signed block

The last stage of a round takes the lowest positions with a signature and puts
their signatures into the block.  How many there are was settled when the
validators were locked in: the bitset that most validators sent is taken
whatever its size, and the block of the template is taken with the signatures it
brings.
-/

namespace Beldex.Pos

open Basic Crypto Foundation Voting Bitset List

variable {P : Type}

/-! ## The signatures that are added -/

def voteAt (signatures : QuorumArray (Option Signature)) (i : Fin posQuorumNumValidators) :
    QuorumSignature where
  voterIndex := UInt16.ofNat i
  signature := (signatures i).getD nullSignature

theorem voteAt_voterIndex_toNat (signatures : QuorumArray (Option Signature))
    (i : Fin posQuorumNumValidators) : (voteAt signatures i).voterIndex.toNat = i :=
  UInt16.toNat_ofNat_of_lt' (lt_trans i.isLt (by decide))

variable {signatures : QuorumArray (Option Signature)}

theorem mapM_signatureAt {l : List (Fin posQuorumNumValidators)}
    (h : forall i, i ∈ l -> (signatures i).isSome = true) :
    l.mapM (signatureAt signatures) = some (l.map (voteAt signatures)) := by
  induction l with
  | nil => rfl
  | cons i rest ih =>
    rcases Option.isSome_iff_exists.mp (h i (mem_cons_self ..)) with ⟨signature, hi⟩
    have hrest := ih fun j hj => h j (mem_cons_of_mem _ hj)
    rw [mapM_cons, hrest]
    simp [signatureAt, voteAt, hi]

theorem length_signedPositions_le (signatures : QuorumArray (Option Signature)) :
    (signedPositions signatures).length <= posQuorumNumValidators := by
  have hle := length_filter_le (fun i => (signatures i).isSome) (finRange posQuorumNumValidators)
  rwa [length_finRange] at hle

theorem length_signatureIndices (signatures : QuorumArray (Option Signature)) :
    (signatureIndices signatures).length = posQuorumNumValidators := by
  unfold signatureIndices
  rw [length_append, length_replicate]
  exact Nat.add_sub_cancel' (length_signedPositions_le signatures)

def addedVotes (signatures : QuorumArray (Option Signature)) : List QuorumSignature :=
  ((signatureIndices signatures).take posBlockRequiredSignatures).map (voteAt signatures)

theorem addedSignatures_eq {transient : Transient P}
    (hzero : (transient.signatures ⟨0, by decide⟩).isSome = true) :
    addedSignatures transient = some (addedVotes transient.signatures) := by
  apply mapM_signatureAt
  intro i hi
  rcases mem_append.mp (mem_of_mem_take hi) with hsign | hpadding
  · exact (mem_filter.mp hsign).2
  · rw [(mem_replicate.mp hpadding).2]
    exact hzero

theorem length_addedVotes (signatures : QuorumArray (Option Signature)) :
    (addedVotes signatures).length = posBlockRequiredSignatures := by
  unfold addedVotes
  rw [length_map, length_take, length_signatureIndices]
  decide

section

variable (henough : posBlockRequiredSignatures <= (signedPositions signatures).length)
include henough

theorem addedVotes_eq :
    addedVotes signatures = ((signedPositions signatures).take posBlockRequiredSignatures).map
        (voteAt signatures) := by
  unfold addedVotes signatureIndices
  rw [take_append_of_le_length henough]

theorem addedVotes_ascending :
    (addedVotes signatures).Pairwise fun a b => a.voterIndex < b.voterIndex := by
  rw [addedVotes_eq henough, pairwise_map]
  have hsort : (signedPositions signatures).Pairwise fun i j => i < j :=
    (pairwise_lt_finRange posQuorumNumValidators).filter _
  refine (hsort.sublist (take_sublist ..)).imp fun {i j} hij => ?_
  rw [UInt16.lt_iff_toNat_lt, voteAt_voterIndex_toNat, voteAt_voterIndex_toNat]
  exact hij

theorem mem_addedVotes {vote : QuorumSignature} (h : vote ∈ addedVotes signatures) :
    exists i signature, signatures i = some signature ∧ vote.voterIndex.toNat = i.val ∧
      vote.signature = signature := by
  rw [addedVotes_eq henough] at h
  rcases mem_map.mp h with ⟨i, hi, rfl⟩
  have hsome := (mem_filter.mp (mem_of_mem_take hi)).2
  rcases Option.isSome_iff_exists.mp hsome with ⟨signature, hsig⟩
  exact ⟨i, signature, hsig, voteAt_voterIndex_toNat signatures i, by
    simp [voteAt, hsig]⟩

end

/-! ## Reaching the step -/

/-- The stage of `ctx` comes to the step that adds the signatures, with the
context `ready`. -/
structure ReachesAssembly (O : PosOracles P) (env : Environment P) (ctx ready : Context P) :
    Prop where
  state : ctx.state = .sendAndWaitForSignedBlocks
  collected : ready = collectSignatures O env ctx
  ended : (timedOut env ready .signedBlock || allReceived ready .signedBlock) = true
  enforced : enforceValidatorParticipationAndTimeouts ready .signedBlock
    (timedOut env ready .signedBlock) (allReceived ready .signedBlock) = true

def storedSignatures (ctx : Context P) : Nat :=
  (finRange posQuorumNumValidators).countP fun i : Fin posQuorumNumValidators =>
    has ctx.bestBitset i && (ctx.transient.signatures i).isSome

/-- Enough agreed validators have signed, nothing is read that is not there, the
votes ascend and take part in the block, and the block passes the check. -/
def AssemblySafe (O : PosOracles P) (ready : Context P) : Prop :=
  posBlockRequiredSignatures <= storedSignatures ready ∧
    exists added block, addedSignatures ready.transient = some added ∧
      addSignatures ready.transient = some block ∧
      (added.Pairwise fun a b => a.voterIndex < b.voterIndex) ∧ (forall vote, vote ∈ added ->
        has block.pos.validatorBitset vote.voterIndex.toNat = true) ∧
      forall hfVersion height, verifyQuorumSignatures (checkBlockSignature O) ready.quorum .pos
        hfVersion height (getBlockHash O block) block.signatures (some block) = true

/-- The agreed bitset has as many validators as a block needs signatures, and the
template has brought no signatures of its own. -/
def EnoughAgreed (ctx : Context P) : Prop :=
  posBlockRequiredSignatures <= Bitset.count ctx.bestBitset ∧
    ctx.transient.finalBlock.signatures = []

structure ReadyToAssemble (O : PosOracles P) (ready : Context P) : Prop where
  recorded : Records ready.bestBitset fun i => (ready.transient.signatures i).isSome
  producer : has ready.bestBitset 0 = true
  bitset : ready.transient.finalBlock.pos.validatorBitset = ready.bestBitset
  signed : forall i signature, ready.transient.signatures i = some signature ->
    signsFinalBlock O ready i signature = true

theorem ReachesAssembly.ready {O : PosOracles P} {env : Environment P} {ctx ready : Context P}
    (hinv : Inv O ctx) (h : ReachesAssembly O env ctx ready) : ReadyToAssemble O ready := by
  rcases h with ⟨hst, rfl, hended, henf⟩
  rcases collectSignatures_handled O env ctx with ⟨hmoves, hsame, _⟩
  have hreadyState := hsame.state.trans hst
  have hround : RoundInv O (collectSignatures O env ctx) :=
    invariant_of_moves (fun _ _ hctx hmove => hctx.move hmove) hinv hmoves
      (by rw [hreadyState]; decide)
  have hall := allReceived_of_enforced hended henf
  have hrecv := hround.templateReceived (by rw [hreadyState]; decide)
  have htmpl := hround.template (by rw [hrecv]; decide)
  have hrec := hround.recorded .signedBlock
  rw [hall] at hrec
  refine ⟨hrec, htmpl.2.2, ?_, hround.signed⟩
  rw [hround.final (by rw [hreadyState]; decide)]
  exact htmpl.2.1

section Ready

variable {O : PosOracles P} {ready : Context P}

section

variable (h : ReadyToAssemble O ready)
include h

theorem ReadyToAssemble.length_signedPositions :
    (signedPositions ready.transient.signatures).length = Bitset.count ready.bestBitset := by
  rw [h.recorded.count_eq (by decide), countP_eq_length_filter]
  rfl

theorem ReadyToAssemble.storedSignatures_eq :
    storedSignatures ready = Bitset.count ready.bestBitset := by
  rw [h.recorded.count_eq (by decide)]
  apply countP_congr
  intro i _
  simp [h.recorded.1 i]

theorem ReadyToAssemble.addSignatures_eq :
    addedSignatures ready.transient = some (addedVotes ready.transient.signatures) ∧
      addSignatures ready.transient = some { ready.transient.finalBlock with
        signatures := ready.transient.finalBlock.signatures ++
          addedVotes ready.transient.signatures } := by
  have hzero : (ready.transient.signatures ⟨0, by decide⟩).isSome = true :=
    (h.recorded.1 ⟨0, by decide⟩).symm.trans h.producer
  have hadded := addedSignatures_eq hzero
  refine ⟨hadded, ?_⟩
  unfold addSignatures
  rw [hadded]
  rfl

section

variable
  (henough : posBlockRequiredSignatures <= (signedPositions ready.transient.signatures).length)
include henough

theorem ReadyToAssemble.isValidVote
    {block : Block P} (hbitset : block.pos.validatorBitset = ready.bestBitset)
    (hhash : getBlockHash O block = getBlockHash O ready.transient.finalBlock)
    {vote : QuorumSignature} (hvote : vote ∈ addedVotes ready.transient.signatures) :
    has block.pos.validatorBitset vote.voterIndex.toNat = true ∧
      IsValidVote (checkBlockSignature O (getBlockHash O block)) ready.quorum .pos (some block)
        vote := by
  rcases mem_addedVotes henough hvote with ⟨i, signature, hsig, hindex, hvoteSig⟩
  have hhas : has block.pos.validatorBitset vote.voterIndex.toNat = true := by
    rw [hbitset, hindex, h.recorded.1 i]
    exact congrArg Option.isSome hsig
  have hsigns := h.signed i signature hsig
  unfold signsFinalBlock at hsigns
  refine ⟨hhas, ?_, ?_, ?_⟩
  · have hnonzero : ¬ block.pos.validatorBitset &&& bit vote.voterIndex.toNat = 0 := by
      rw [UInt16.and_comm, bit_and_eq_zero, hhas]
      decide
    simpa [isNotParticipating] using hnonzero
  · rw [hindex]
    exact lt_of_lt_of_le i.isLt (by decide)
  · cases hkey : ready.quorum.validators[i.val]? with
    | none => simp [hkey] at hsigns
    | some key =>
      rw [hkey] at hsigns
      refine ⟨key, by rw [hindex, hkey], ?_⟩
      rw [hhash, hvoteSig]
      exact hsigns

theorem ReadyToAssemble.verified
    (hbare : ready.transient.finalBlock.signatures = []) {block : Block P}
    (hblock : block = { ready.transient.finalBlock with
      signatures := ready.transient.finalBlock.signatures ++
        addedVotes ready.transient.signatures }) (hfVersion : Hf) (height : UInt64) :
    verifyQuorumSignatures (checkBlockSignature O) ready.quorum .pos hfVersion height
      (getBlockHash O block) block.signatures (some block) = true := by
  have hsigs : block.signatures = addedVotes ready.transient.signatures := by
    rw [hblock, hbare]
    rfl
  have hbitset : block.pos.validatorBitset = ready.bestBitset := by
    rw [hblock]
    exact h.bitset
  have hhash : getBlockHash O block = getBlockHash O ready.transient.finalBlock := by
    rw [hblock]
    rfl
  have hbound : block.pos.validatorBitset.toNat < 1 <<< posQuorumNumValidators := by
    rw [hbitset, Nat.one_shiftLeft]
    exact toNat_lt h.recorded.2
  unfold verifyQuorumSignatures
  rw [hsigs, Bool.and_eq_true]
  constructor
  · simp [signatureListIsAdmissible, length_addedVotes, hbound]
  · refine verifyVotes_of_ascending (addedVotes_ascending henough) ?_ ?_
    · intro _ _ voter hvoter
      cases hvoter
    · intro vote hvote
      exact (h.isValidVote henough hbitset hhash hvote).2

end

theorem ReadyToAssemble.assemblySafe_iff : AssemblySafe O ready <-> EnoughAgreed ready := by
  have hlen := h.length_signedPositions
  rcases h.addSignatures_eq with ⟨hadded, hblock⟩
  constructor
  · rintro ⟨henough, added, block, hadded', hblock', _, _, hver⟩
    rw [h.storedSignatures_eq] at henough
    refine ⟨henough, ?_⟩
    have hcount := verifyQuorumSignatures_pos_length (hver .hf17POS 0)
    rw [hblock] at hblock'
    cases hblock'
    rw [length_append, length_addedVotes] at hcount
    exact length_eq_zero_iff.mp (Nat.add_eq_right.mp hcount)
  · rintro ⟨hcount, hbare⟩
    have henough : posBlockRequiredSignatures <=
        (signedPositions ready.transient.signatures).length := by
      rw [hlen]
      exact hcount
    refine ⟨?_, _, _, hadded, hblock, addedVotes_ascending henough, ?_, ?_⟩
    · rw [h.storedSignatures_eq]
      exact hcount
    · intro vote hvote
      exact (h.isValidVote henough h.bitset rfl hvote).1
    · exact h.verified henough hbare rfl

end

end Ready

/-! ## Every run -/

/-- In every run the step that adds the signatures reads no empty optional, and it
is safe exactly when enough validators were agreed on and the template was bare. -/
theorem assemblySafe_iff_enoughAgreed {O : PosOracles P} {env : Environment P}
    {ctx ready : Context P} (hrun : Reachable O AnyMessage ctx)
    (hstep : ReachesAssembly O env ctx ready) :
    (exists block, addSignatures ready.transient = some block) ∧
      (AssemblySafe O ready <-> EnoughAgreed ctx) := by
  have hready := hstep.ready hrun.inv
  refine ⟨⟨_, hready.addSignatures_eq.2⟩, ?_⟩
  rw [hready.assemblySafe_iff]
  have hsame := (collectSignatures_handled O env ctx).same
  rw [<- hstep.collected] at hsame
  unfold EnoughAgreed
  rw [hsame.bestBitset, hsame.finalBlock]

def sampleFinalDigest (count : Nat) : Digest :=
  .hash ⟨BitVec.ofNat 256 (47 + ((range count).map fun k => 41 + k).sum)⟩

/-- A round of validator zero in which `others` more validators take part and
`senders` others send the bitset that the participants agree on. -/
def roundInputs (others senders : Nat) (bitset : UInt8) : List (Input Unit) :=
  let participants := range' 1 others
  turnsAt 1000 4 ++ fromValidators participants 0 (fun _ => .handshake) ++ turnsAt 1010 2 ++
    fromValidators (range' 1 senders) 0 (fun _ => .handshakeBitset bitset.toUInt16) ++
    turnsAt 1020 1 ++ [.deliver (sampleMessage 11 0 0 (.blockTemplate [0, bitset]))] ++
    turnsAt 1021 2 ++
    fromValidators participants 0 (fun k => .randomValueHash ⟨BitVec.ofNat 256 (41 + k)⟩) ++
    turnsAt 1022 2 ++
    fromValidators participants 0 (fun k => .randomValue ⟨BitVec.ofNat 128 (40 + k)⟩) ++
    turnsAt 1023 2 ++ fromValidators participants 0
      (fun k => .signedBlock (sampleSign (sampleKey k) (sampleFinalDigest others)))

def afterRound (others senders : Nat) (bitset : UInt8) : Context Unit :=
  runInputs sampleOracles (roundInputs others senders bitset) (Context.init Unit)

theorem reachable_afterRound (others senders : Nat) (bitset : UInt8) :
    Reachable sampleOracles AnyMessage (afterRound others senders bitset) :=
  Reachable.init.runInputs (allows_anyMessage _ _ _)

theorem assemblySafe_iff_enoughAgreed_seven :
    EnoughAgreed (afterRound 6 6 127) ∧ AssemblySafe sampleOracles
        (collectSignatures sampleOracles (sampleEnvironment 1023) (afterRound 6 6 127)) := by
  have henough : EnoughAgreed (afterRound 6 6 127) :=
    ⟨by decide +kernel, by decide +kernel⟩
  exact ⟨henough, (assemblySafe_iff_enoughAgreed (reachable_afterRound 6 6 127)
    ⟨by decide +kernel, rfl, by decide +kernel, by decide +kernel⟩).2.mpr henough⟩

/-- The block gets the signature of the first validator twice. -/
theorem sixAgreed_notSafe :
    exists (ctx ready : Context Unit) (env : Environment Unit),
      Reachable sampleOracles AnyMessage ctx ∧ ReachesAssembly sampleOracles env ctx ready ∧
        (addedSignatures ready.transient).map (map (·.voterIndex)) =
          some [0, 1, 2, 3, 4, 5, 0] ∧ ¬ AssemblySafe sampleOracles ready := by
  refine ⟨_, _, sampleEnvironment 1023, reachable_afterRound 5 6 63,
    ⟨by decide +kernel, rfl, by decide +kernel, by decide +kernel⟩, by decide +kernel, ?_⟩
  rintro ⟨henough, _⟩
  have hsix : storedSignatures (collectSignatures sampleOracles (sampleEnvironment 1023)
      (afterRound 5 6 63)) = 6 := by decide +kernel
  rw [hsix] at henough
  exact absurd henough (by decide)

end Beldex.Pos
