import Beldex.Foundation.Bytes
import Beldex.NodeList.StateChange

/-!
# The votes of a state change

`verify_tx_state_change` on the words that come from an extra section: the new
state can be any word, the index of the previous voter is a signed word, and the
voters are counted in an array of fixed size.  An access outside an array is an
outcome of its own.  The module says exactly which state changes are accepted, and
that the check on typed state changes makes the same decision.
-/

namespace Beldex.NodeList.Obligations

open Basic Crypto Foundation Foundation.Fallible Voting List

structure TxExtraStateChange where
  state : UInt16
  blockHeight : UInt64
  masterNodeIndex : UInt32
  votes : List StateChangeVote

def newStateDeregister : UInt16 := 0

def newStateCount : UInt16 := 4

def voteOrTxVerifyHeightBuffer : UInt64 := 5

structure VoteCrypto where
  cnFastHash : List UInt8 -> Hash
  checkSignature : Hash -> PublicKey -> Signature -> Bool

/-- The bytes that a voter signs; a deregistration goes without its state. -/
def stateChangeVoteBytes (blockHeight : UInt64) (masterNodeIndex : UInt32) (state : UInt16) :
    List UInt8 :=
  let buf := Bytes.toBytes 8 blockHeight.toNat ++ Bytes.toBytes 4 masterNodeIndex.toNat ++
    Bytes.toBytes 2 state.toNat
  if state = newStateDeregister then buf.take (buf.length - 2) else buf

def makeStateChangeVoteHash (C : VoteCrypto) (blockHeight : UInt64) (masterNodeIndex : UInt32)
    (state : UInt16) : Hash :=
  C.cnFastHash (stateChangeVoteBytes blockHeight masterNodeIndex state)

/-! ## The check -/

/-- The reasons for a rejection; for heights also whether they are off by more than the
buffer. -/
inductive Rejection where
  | notBeforeCheckpointing
  | unknownState
  | notEnoughVotes
  | tooManyVotes
  | workerIndexOutOfBounds
  | tooNew (beyondBuffer : Bool)
  | tooOld (beyondBuffer : Bool)
  | votesNotSorted
  | validatorIndexOutOfBounds
  | validatorIndexOutOfScope
  | duplicateVoters
  | signatureNotValid
deriving DecidableEq

inductive Outcome where
  | accepted
  | rejected (reason : Rejection)
  | outOfBounds
deriving DecidableEq

def checkHeight (blockHeight latestHeight : UInt64) : Option Rejection :=
  if latestHeight <= blockHeight then
    some (.tooNew (decide (latestHeight + voteOrTxVerifyHeightBuffer <= blockHeight)))
  else if blockHeight + stateChangeTxLifetimeInBlocks <= latestHeight then
    some (.tooOld (decide (blockHeight +
      (stateChangeTxLifetimeInBlocks + voteOrTxVerifyHeightBuffer) <= latestHeight)))
  else
    none

def heightSums (blockHeight latestHeight : UInt64) : List (UInt64 × UInt64) :=
  if latestHeight <= blockHeight then
    [(latestHeight, voteOrTxVerifyHeightBuffer)]
  else if blockHeight + stateChangeTxLifetimeInBlocks <= latestHeight then
    [(blockHeight, stateChangeTxLifetimeInBlocks),
      (blockHeight, stateChangeTxLifetimeInBlocks + voteOrTxVerifyHeightBuffer)]
  else
    [(blockHeight, stateChangeTxLifetimeInBlocks)]

/-- The loop over the votes, with the index of the previous voter and the votes of each
voter. -/
def verifyVotes (C : VoteCrypto) (hf : Hf) (quorum : Quorum) (hash : Hash) :
    Int32 -> List Int -> List StateChangeVote -> Outcome
  | _, _, [] => .accepted
  | validatorIndexTracker, validatorSet, vote :: rest =>
    let index := vote.validatorIndex.toNat
    let ordered := decide (Hf.hf15Flash <= hf)
    if ordered && decide (vote.validatorIndex.toInt32 <= validatorIndexTracker) then
      .rejected .votesNotSorted
    else if quorum.validators.length <= index then
      .rejected .validatorIndexOutOfBounds
    else if stateChangeQuorumSize < index then
      .rejected .validatorIndexOutOfScope
    else
      match validatorSet[index]? with
      | none => .outOfBounds
      | some votes =>
        if 1 < votes + 1 then
          .rejected .duplicateVoters
        else
          match quorum.validators[index]? with
          | none => .outOfBounds
          | some key =>
            if C.checkSignature hash key vote.signature then
              verifyVotes C hf quorum hash
                (if ordered then vote.validatorIndex.toInt32 else validatorIndexTracker)
                (validatorSet.set index (votes + 1)) rest
            else
              .rejected .signatureNotValid

def verifyTxStateChange (C : VoteCrypto) (stateChange : TxExtraStateChange)
    (latestHeight : UInt64) (quorum : Quorum) (hf : Hf) : Outcome :=
  if stateChange.state ≠ newStateDeregister ∧ hf < Hf.hf13Checkpointing then
    .rejected .notBeforeCheckpointing
  else if newStateCount <= stateChange.state then
    .rejected .unknownState
  else if stateChange.votes.length < stateChangeMinVotesToChangeState then
    .rejected .notEnoughVotes
  else if stateChangeQuorumSize < stateChange.votes.length then
    .rejected .tooManyVotes
  else if quorum.workers.length <= stateChange.masterNodeIndex.toNat then
    .rejected .workerIndexOutOfBounds
  else
    match checkHeight stateChange.blockHeight latestHeight with
    | some reason => .rejected reason
    | none =>
      let hash := makeStateChangeVoteHash C stateChange.blockHeight stateChange.masterNodeIndex
        stateChange.state
      verifyVotes C hf quorum hash (-1) (replicate stateChangeQuorumSize 0) stateChange.votes

/-! ## What is accepted -/

def IsVoteOf (C : VoteCrypto) (quorum : Quorum) (hash : Hash) (vote : StateChangeVote) : Prop :=
  exists key, quorum.validators[vote.validatorIndex.toNat]? = some key ∧
    C.checkSignature hash key vote.signature = true

/-- A state change that the quorum has decided, in unbounded numbers. -/
structure IsAuthorised (C : VoteCrypto) (stateChange : TxExtraStateChange)
    (latestHeight : UInt64) (quorum : Quorum) (hf : Hf) : Prop where
  knownState : stateChange.state < newStateCount
  stateInHf : stateChange.state = newStateDeregister ∨ Hf.hf13Checkpointing <= hf
  workerInRange : stateChange.masterNodeIndex.toNat < quorum.workers.length
  notTooOld : (latestHeight.toNat : Int) - stateChangeTxLifetimeInBlocks.toNat <
    stateChange.blockHeight.toNat
  notTooNew : stateChange.blockHeight.toNat < latestHeight.toNat
  enoughVotes : stateChangeMinVotesToChangeState <= stateChange.votes.length
  notTooManyVotes : stateChange.votes.length <= stateChangeQuorumSize
  distinctVoters : (stateChange.votes.map StateChangeVote.validatorIndex).Nodup
  sortedVoters : Hf.hf15Flash <= hf ->
    (stateChange.votes.map StateChangeVote.validatorIndex).Pairwise (fun i j => i < j)
  signed : forall vote, vote ∈ stateChange.votes ->
    IsVoteOf C quorum (makeStateChangeVoteHash C stateChange.blockHeight
      stateChange.masterNodeIndex stateChange.state) vote

/-- What the loop checks of the votes that are left, given the voters before. -/
structure IsVoteList (C : VoteCrypto) (hf : Hf) (quorum : Quorum) (hash : Hash)
    (tracker : Int) (seen : List UInt32) (votes : List StateChangeVote) : Prop where
  distinct : (votes.map StateChangeVote.validatorIndex).Nodup
  fresh : forall vote, vote ∈ votes -> vote.validatorIndex ∉ seen
  above : Hf.hf15Flash <= hf -> forall vote, vote ∈ votes -> tracker < vote.validatorIndex.toNat
  sorted : Hf.hf15Flash <= hf ->
    (votes.map StateChangeVote.validatorIndex).Pairwise (fun i j => i < j)
  signed : forall vote, vote ∈ votes -> IsVoteOf C quorum hash vote

theorem toInt_toInt32 {index : UInt32} (h : index.toNat < 2 ^ 31) :
    index.toInt32.toInt = index.toNat := by
  change index.toBitVec.toInt = _
  rw [BitVec.toInt_eq_toNat_of_lt]
  · rfl
  · change 2 * index.toNat < 2 ^ 32
    omega

section Votes

variable {C : VoteCrypto} {hf : Hf} {quorum : Quorum} {hash : Hash}

def Counts (validatorSet : List Int) (seen : List UInt32) : Prop :=
  forall index : UInt32, index.toNat < stateChangeQuorumSize ->
    validatorSet[index.toNat]? = some (if index ∈ seen then 1 else 0)

theorem Counts.vote {validatorSet : List Int} {seen : List UInt32}
    (h : Counts validatorSet seen) {index : UInt32}
    (hindex : index.toNat < stateChangeQuorumSize) :
    Counts (validatorSet.set index.toNat 1) (index :: seen) := by
  intro i hi
  have hlookup := h index hindex
  have hlt := (List.getElem?_eq_some_iff.mp hlookup).1
  rw [getElem?_set]
  by_cases hsame : index = i
  · subst hsame
    rw [if_pos rfl, if_pos hlt, if_pos mem_cons_self]
  · have hne : index.toNat ≠ i.toNat := fun hnat => hsame (UInt32.toNat_inj.mp hnat)
    rw [if_neg hne, h i hi]
    congr 1
    simp [mem_cons, Ne.symm hsame]

theorem counts_replicate : Counts (replicate stateChangeQuorumSize 0) [] := by
  intro index hindex
  rw [getElem?_replicate, if_pos hindex]
  rfl

theorem isVoteList_cons {tracker : Int} {seen : List UInt32} {vote : StateChangeVote}
    {rest : List StateChangeVote} :
    IsVoteList C hf quorum hash tracker seen (vote :: rest) <->
      vote.validatorIndex ∉ seen ∧
      (Hf.hf15Flash <= hf -> tracker < vote.validatorIndex.toNat) ∧
      IsVoteOf C quorum hash vote ∧
      IsVoteList C hf quorum hash
        (if Hf.hf15Flash <= hf then (vote.validatorIndex.toNat : Int) else tracker)
        (vote.validatorIndex :: seen) rest := by
  constructor
  · rintro ⟨hdist, hfresh, habove, hsort, hsign⟩
    have hdist := nodup_cons.mp hdist
    have hfresh := forall_mem_cons.mp hfresh
    have hsign := forall_mem_cons.mp hsign
    have hsort := fun hhf => pairwise_cons.mp (hsort hhf)
    refine ⟨hfresh.1, fun hhf => habove hhf vote mem_cons_self, hsign.1, hdist.2, ?_, ?_,
      fun hhf => (hsort hhf).2, hsign.2⟩
    · intro next hnext hmem
      rcases mem_cons.mp hmem with hsame | hseen
      · exact hdist.1 (hsame ▸ mem_map_of_mem hnext)
      · exact hfresh.2 next hnext hseen
    · intro hhf next hnext
      rw [if_pos hhf]
      have hlt := (hsort hhf).1 _ (mem_map_of_mem hnext)
      exact_mod_cast UInt32.lt_iff_toNat_lt.mp hlt
  · rintro ⟨hnew, habove, hsign, hrest⟩
    have hafter : Hf.hf15Flash <= hf -> forall next, next ∈ rest ->
        vote.validatorIndex.toNat < next.validatorIndex.toNat := by
      intro hhf next hnext
      have hlt := hrest.above hhf next hnext
      rw [if_pos hhf] at hlt
      exact_mod_cast hlt
    refine ⟨nodup_cons.mpr ⟨?_, hrest.distinct⟩, forall_mem_cons.mpr ⟨hnew, ?_⟩, ?_, ?_,
      forall_mem_cons.mpr ⟨hsign, hrest.signed⟩⟩
    · intro hmem
      rcases mem_map.mp hmem with ⟨next, hnext, hsame⟩
      exact hrest.fresh next hnext (hsame ▸ mem_cons_self)
    · intro next hnext hseen
      exact hrest.fresh next hnext (mem_cons_of_mem _ hseen)
    · intro hhf
      refine forall_mem_cons.mpr ⟨habove hhf, ?_⟩
      intro next hnext
      have hfirst := habove hhf
      have hnext := hafter hhf next hnext
      omega
    · intro hhf
      refine pairwise_cons.mpr ⟨?_, hrest.sorted hhf⟩
      intro index hmem
      rcases mem_map.mp hmem with ⟨next, hnext, rfl⟩
      exact UInt32.lt_iff_toNat_lt.mpr (hafter hhf next hnext)

theorem verifyVotes_iff (hquorum : quorum.validators.length <= stateChangeQuorumSize)
    {tracker : Int32} {validatorSet : List Int} {seen : List UInt32}
    (hcounts : Counts validatorSet seen) (votes : List StateChangeVote) :
    verifyVotes C hf quorum hash tracker validatorSet votes ≠ .outOfBounds ∧
      (verifyVotes C hf quorum hash tracker validatorSet votes = .accepted <->
        IsVoteList C hf quorum hash tracker.toInt seen votes) := by
  induction votes generalizing tracker validatorSet seen with
  | nil =>
    refine ⟨nofun, fun _ => ?_, fun _ => rfl⟩
    exact ⟨nodup_nil, nofun, nofun, fun _ => List.Pairwise.nil, nofun⟩
  | cons vote rest ih =>
    rw [isVoteList_cons]
    unfold verifyVotes
    dsimp only
    by_cases hin : quorum.validators.length <= vote.validatorIndex.toNat
    · -- Whatever the order says, a voter outside the quorum is rejected.
      have hnot : ¬ IsVoteOf C quorum hash vote := by
        rintro ⟨key, hkey, _⟩
        exact absurd (List.getElem?_eq_some_iff.mp hkey).1 (not_lt.mpr hin)
      rw [if_pos hin]
      split
      · exact ⟨nofun, nofun, fun h => absurd h.2.2.1 hnot⟩
      · exact ⟨nofun, nofun, fun h => absurd h.2.2.1 hnot⟩
    · have hindex : vote.validatorIndex.toNat < stateChangeQuorumSize := by omega
      have hint : vote.validatorIndex.toInt32.toInt = vote.validatorIndex.toNat :=
        toInt_toInt32 (lt_trans hindex (by decide))
      have horder : (decide (Hf.hf15Flash <= hf) &&
          decide (vote.validatorIndex.toInt32 <= tracker)) = true <->
            ¬ (Hf.hf15Flash <= hf -> tracker.toInt < vote.validatorIndex.toNat) := by
        rw [Bool.and_eq_true, decide_eq_true_iff, decide_eq_true_iff, Int32.le_iff_toInt_le, hint]
        rw [Classical.not_imp, Int.not_lt]
      by_cases hsort : Hf.hf15Flash <= hf -> tracker.toInt < vote.validatorIndex.toNat
      · have hscope : ¬ stateChangeQuorumSize < vote.validatorIndex.toNat := by omega
        have hkey := getElem?_eq_getElem (not_le.mp hin)
        rw [if_neg (fun h => horder.mp h hsort), if_neg hin, if_neg hscope,
          hcounts vote.validatorIndex hindex, hkey]
        by_cases hseen : vote.validatorIndex ∈ seen
        · rw [if_pos hseen]
          exact ⟨nofun, nofun, fun h => absurd hseen h.1⟩
        · rw [if_neg hseen]
          dsimp only
          rw [if_neg (by decide)]
          have htracker : (if decide (Hf.hf15Flash <= hf) = true then
              vote.validatorIndex.toInt32 else tracker).toInt =
                if Hf.hf15Flash <= hf then (vote.validatorIndex.toNat : Int)
                else tracker.toInt := by
            simp only [decide_eq_true_eq]
            split
            · exact hint
            · rfl
          rw [<- htracker]
          split
          next hsign =>
            have hvote : IsVoteOf C quorum hash vote := ⟨_, hkey, hsign⟩
            rcases @ih (if decide (Hf.hf15Flash <= hf) = true then vote.validatorIndex.toInt32
              else tracker) _ _ (hcounts.vote hindex) with ⟨hbounds, hacc⟩
            exact ⟨hbounds, fun h => ⟨hseen, hsort, hvote, hacc.mp h⟩, fun h => hacc.mpr h.2.2.2⟩
          next hsign =>
            refine ⟨nofun, nofun, fun h => ?_⟩
            rcases h.2.2.1 with ⟨key, hkey', hcheck⟩
            rw [hkey] at hkey'
            cases hkey'
            exact absurd hcheck hsign
      · rw [if_pos (horder.mpr hsort)]
        exact ⟨nofun, nofun, fun h => absurd h.2.1 hsort⟩

theorem verifyVotes_start_iff (C : VoteCrypto) (hf : Hf) (hash : Hash)
    (hquorum : quorum.validators.length <= stateChangeQuorumSize) (votes : List StateChangeVote) :
    verifyVotes C hf quorum hash (-1) (replicate stateChangeQuorumSize 0) votes ≠
        .outOfBounds ∧
      (verifyVotes C hf quorum hash (-1) (replicate stateChangeQuorumSize 0) votes =
          .accepted <->
        IsVoteList C hf quorum hash (-1) [] votes) :=
  verifyVotes_iff hquorum counts_replicate votes

end Votes

/-! ## The window of heights -/

theorem toNat_stateChangeTxLifetimeInBlocks : stateChangeTxLifetimeInBlocks.toNat = 240 :=
  rfl

theorem toNat_add_of_small {a b : UInt64} (h : a.toNat + b.toNat < 2 ^ 64) :
    (a + b).toNat = a.toNat + b.toNat := by
  rw [UInt64.toNat_add, Nat.mod_eq_of_lt h]

variable {blockHeight latestHeight : UInt64}

theorem heightSums_fit (h : latestHeight.toNat < 2 ^ 63) :
    forall sum, sum ∈ heightSums blockHeight latestHeight ->
      sum.1.toNat + sum.2.toNat < 2 ^ 64 := by
  have hbuffer : voteOrTxVerifyHeightBuffer.toNat = 5 := rfl
  have hlifetime := toNat_stateChangeTxLifetimeInBlocks
  have hboth : (stateChangeTxLifetimeInBlocks + voteOrTxVerifyHeightBuffer).toNat = 245 := rfl
  intro sum hmem
  unfold heightSums at hmem
  split at hmem
  · rw [mem_singleton] at hmem
    subst hmem
    dsimp only
    omega
  next hnew =>
    have hlt : blockHeight.toNat < latestHeight.toNat :=
      UInt64.lt_iff_toNat_lt.mp (UInt64.not_le.mp hnew)
    split at hmem
    · rcases mem_cons.mp hmem with rfl | hmem
      · dsimp only
        omega
      · rw [mem_singleton] at hmem
        subst hmem
        dsimp only
        omega
    · rw [mem_singleton] at hmem
      subst hmem
      dsimp only
      omega

theorem checkHeight_eq_none_iff (h : latestHeight.toNat < 2 ^ 63) :
    checkHeight blockHeight latestHeight = none <->
      (latestHeight.toNat : Int) - stateChangeTxLifetimeInBlocks.toNat < blockHeight.toNat ∧
        blockHeight.toNat < latestHeight.toNat := by
  have hlifetime := toNat_stateChangeTxLifetimeInBlocks
  fun_cases checkHeight blockHeight latestHeight with
  | case1 hnew =>
    rw [UInt64.le_iff_toNat_le] at hnew
    constructor
    · nofun
    · rintro ⟨_, hlt⟩
      omega
  | case2 hnew hold =>
    rw [UInt64.le_iff_toNat_le] at hnew
    rw [UInt64.le_iff_toNat_le, toNat_add_of_small (by omega)] at hold
    constructor
    · nofun
    · rintro ⟨hgt, _⟩
      omega
  | case3 hnew hold =>
    rw [UInt64.le_iff_toNat_le] at hnew
    rw [UInt64.le_iff_toNat_le, toNat_add_of_small (by omega)] at hold
    constructor
    · intro _
      omega
    · intro _
      rfl

/-! ## The theorem -/

theorem isVoteList_nil_iff {C : VoteCrypto} {hf : Hf} {quorum : Quorum} {hash : Hash}
    {votes : List StateChangeVote} :
    IsVoteList C hf quorum hash (-1) [] votes <->
      (votes.map StateChangeVote.validatorIndex).Nodup ∧
      (Hf.hf15Flash <= hf ->
        (votes.map StateChangeVote.validatorIndex).Pairwise (fun i j => i < j)) ∧
      forall vote, vote ∈ votes -> IsVoteOf C quorum hash vote := by
  constructor
  · intro h
    exact ⟨h.distinct, h.sorted, h.signed⟩
  · rintro ⟨hdist, hsort, hsign⟩
    refine ⟨hdist, fun _ _ => not_mem_nil, ?_, hsort, hsign⟩
    intro _ vote _
    omega

/-- A state change is accepted exactly if its state is one of the hard fork, its worker is in
the quorum, its height is in the window, and enough distinct members of the quorum have
signed it, in order from the flash fork on.  No array is left and no sum of heights wraps. -/
theorem verifyTxStateChange_iff (C : VoteCrypto) (stateChange : TxExtraStateChange)
    {latestHeight : UInt64} {quorum : Quorum} (hf : Hf)
    (hquorum : quorum.validators.length <= stateChangeQuorumSize)
    (hlatest : latestHeight.toNat < 2 ^ 63) :
    (verifyTxStateChange C stateChange latestHeight quorum hf = .accepted <->
      IsAuthorised C stateChange latestHeight quorum hf) ∧
    verifyTxStateChange C stateChange latestHeight quorum hf ≠ .outOfBounds ∧
    (forall sum, sum ∈ heightSums stateChange.blockHeight latestHeight ->
      sum.1.toNat + sum.2.toNat < 2 ^ 64) := by
  rw [<- and_assoc]
  refine ⟨?_, heightSums_fit hlatest⟩
  unfold verifyTxStateChange
  split
  next h =>
    refine ⟨⟨nofun, fun ha => ?_⟩, nofun⟩
    rcases ha.stateInHf with hderegister | hhf
    · exact absurd hderegister h.1
    · exact absurd hhf ((Hf.lt_iff_not_le _ _).mp h.2)
  next hhf =>
  split
  · next h => exact ⟨⟨nofun, fun ha => absurd ha.knownState (UInt16.not_lt.mpr h)⟩, nofun⟩
  next hknown =>
  split
  · next h => exact ⟨⟨nofun, fun ha => absurd ha.enoughVotes (not_le.mpr h)⟩, nofun⟩
  next henough =>
  split
  · next h => exact ⟨⟨nofun, fun ha => absurd ha.notTooManyVotes (not_le.mpr h)⟩, nofun⟩
  next hmany =>
  split
  · next h => exact ⟨⟨nofun, fun ha => absurd ha.workerInRange (not_lt.mpr h)⟩, nofun⟩
  next hworker =>
  have hht : checkHeight stateChange.blockHeight latestHeight = none <-> _ :=
    checkHeight_eq_none_iff hlatest
  split
  next reason h =>
    refine ⟨⟨nofun, fun ha => ?_⟩, nofun⟩
    have hnone := hht.mpr ⟨ha.notTooOld, ha.notTooNew⟩
    rw [h] at hnone
    cases hnone
  next hnone =>
  rcases verifyVotes_start_iff C hf (makeStateChangeVoteHash C stateChange.blockHeight
    stateChange.masterNodeIndex stateChange.state) hquorum stateChange.votes with
    ⟨hbounds, hacc⟩
  refine ⟨?_, hbounds⟩
  rw [hacc, isVoteList_nil_iff]
  rcases hht.mp hnone with ⟨hold, hnew⟩
  have hst : stateChange.state = newStateDeregister ∨ Hf.hf13Checkpointing <= hf := by
    by_contra hnot
    rw [not_or] at hnot
    exact hhf ⟨hnot.1, (Hf.lt_iff_not_le _ _).mpr hnot.2⟩
  constructor
  · rintro ⟨hdist, hsort, hsign⟩
    exact
      { knownState := UInt16.not_le.mp hknown
        stateInHf := hst
        workerInRange := not_le.mp hworker
        notTooOld := hold
        notTooNew := hnew
        enoughVotes := not_lt.mp henough
        notTooManyVotes := not_lt.mp hmany
        distinctVoters := hdist
        sortedVoters := hsort
        signed := hsign }
  · intro h
    exact ⟨h.distinctVoters, h.sortedVoters, h.signed⟩

def anySignature : VoteCrypto where
  cnFastHash := fun _ => nullHash
  checkSignature := fun _ _ _ => true

def tenValidators : Quorum where
  validators := (range 10).map fun i => ⟨BitVec.ofNat 256 i⟩
  workers := [⟨77⟩]

def decommissionBySeven : TxExtraStateChange where
  state := 1
  blockHeight := 100
  masterNodeIndex := 0
  votes := (range 7).map fun i => ⟨nullSignature, UInt32.ofNat i⟩

/-- Seven votes of a quorum of ten decommission a node. -/
theorem verifyTxStateChange_iff_seven :
    verifyTxStateChange anySignature decommissionBySeven 110 tenValidators .hf18Bns = .accepted ∧
      IsAuthorised anySignature decommissionBySeven 110 tenValidators .hf18Bns := by
  have hacc :
      verifyTxStateChange anySignature decommissionBySeven 110 tenValidators .hf18Bns =
        .accepted := by
    decide
  exact ⟨hacc, (verifyTxStateChange_iff anySignature decommissionBySeven .hf18Bns
    (by decide) (by decide)).1.mp hacc⟩

/-! ## Typed state changes -/

def newStateWord : NewState -> UInt16
  | .deregister => 0
  | .decommission => 1
  | .recommission => 2
  | .ipChangePenalty => 3

/-- A typed state change as it stands in an extra section. -/
def wordsOf (stateChange : StateChange) : TxExtraStateChange where
  state := newStateWord stateChange.state
  blockHeight := stateChange.blockHeight
  masterNodeIndex := stateChange.masterNodeIndex
  votes := stateChange.votes

theorem newStateWord_eq_deregister (state : NewState) :
    newStateWord state = newStateDeregister <-> state = .deregister := by
  cases state <;> decide

theorem newStateWord_lt (state : NewState) : newStateWord state < newStateCount := by
  cases state <;> decide

section Typed

variable {P σ : Type} {O : ListOracles P σ} {C : VoteCrypto} {hf : Hf} {quorum : Quorum}
  {hash : Hash}

theorem verifyStateChangeVote_eq_ok (hsig : O.checkSignature = C.checkSignature)
    (hquorum : quorum.validators.length <= stateChangeQuorumSize) {scan scan' : VoteScan}
    {vote : StateChangeVote} :
    verifyStateChangeVote O hf quorum hash scan vote = .ok scan' <->
      (vote.validatorIndex ∉ scan.validatorSet ∧
        (Hf.hf15Flash <= hf -> scan.validatorIndexTracker < vote.validatorIndex.toNat) ∧
        IsVoteOf C quorum hash vote) ∧
      scan' =
        { validatorIndexTracker :=
            if Hf.hf15Flash <= hf then (vote.validatorIndex.toNat : Int)
            else scan.validatorIndexTracker
          validatorSet := vote.validatorIndex :: scan.validatorSet } := by
  unfold verifyStateChangeVote
  rw [rejectIf_bind_ok, orReject_bind_ok]
  simp only [rejectIf_bind_ok, Bool.not_eq_false', decide_eq_true_eq]
  constructor
  · rintro ⟨horder, key, hkey, _, hnew, hcheck, hscan⟩
    rw [hsig] at hcheck
    refine ⟨⟨?_, ?_, key, hkey, hcheck⟩, ?_⟩
    · intro hmem
      rw [contains_iff_mem.mpr hmem] at hnew
      cases hnew
    · intro hhf
      rw [decide_eq_true hhf, Bool.true_and, decide_eq_false_iff_not] at horder
      exact Int.not_le.mp horder
    · exact (Except.ok.inj hscan).symm
  · rintro ⟨⟨hnew, horder, key, hkey, hcheck⟩, rfl⟩
    refine ⟨?_, key, hkey, ?_, ?_, ?_, rfl⟩
    · by_cases hhf : Hf.hf15Flash <= hf
      · rw [decide_eq_false (Int.not_le.mpr (horder hhf)), Bool.and_false]
      · rw [decide_eq_false hhf, Bool.false_and]
    · have hlt := (List.getElem?_eq_some_iff.mp hkey).1
      rw [decide_eq_false_iff_not]
      omega
    · rw [<- Bool.not_eq_true, contains_iff_mem]
      exact hnew
    · rw [hsig]
      exact hcheck

theorem run_verifyStateChangeVote_iff (hf : Hf) (hash : Hash)
    (hsig : O.checkSignature = C.checkSignature)
    (hquorum : quorum.validators.length <= stateChangeQuorumSize) (scan : VoteScan)
    (votes : List StateChangeVote) :
    (exists scan', run (verifyStateChangeVote O hf quorum hash) scan votes = .ok scan') <->
      IsVoteList C hf quorum hash scan.validatorIndexTracker scan.validatorSet votes := by
  induction votes generalizing scan with
  | nil =>
    refine ⟨fun _ => ?_, fun _ => ⟨scan, rfl⟩⟩
    exact ⟨nodup_nil, nofun, nofun, fun _ => List.Pairwise.nil, nofun⟩
  | cons vote rest ih =>
    rw [isVoteList_cons]
    constructor
    · rintro ⟨scan', hrun⟩
      rcases run_cons_ok.mp hrun with ⟨next, hstep, hrest⟩
      rcases (verifyStateChangeVote_eq_ok hsig hquorum).mp hstep with ⟨hvote, rfl⟩
      exact ⟨hvote.1, hvote.2.1, hvote.2.2, (ih _).mp ⟨scan', hrest⟩⟩
    · rintro ⟨hnew, horder, hvote, hlist⟩
      have hstep := (verifyStateChangeVote_eq_ok (O := O) hsig hquorum).mpr
        ⟨⟨hnew, horder, hvote⟩, rfl⟩
      rcases (ih { validatorIndexTracker := _, validatorSet := _ }).mpr hlist with ⟨scan', hrest⟩
      exact ⟨scan', run_cons_ok.mpr ⟨_, hstep, hrest⟩⟩

theorem isAccepted_iff {ε α : Type} {x : Except ε α} :
    isAccepted x = true <-> exists a, x = .ok a := by
  cases x with
  | _ => simp [isAccepted]

theorem ite_rejected_eq_accepted {c : Prop} [Decidable c] {reason : Rejection} {outcome : Outcome} :
    (if c then Outcome.rejected reason else outcome) = .accepted <-> ¬ c ∧ outcome = .accepted := by
  by_cases h : c
  · simp [h]
  · simp [h]

theorem checkHeight_cases {outcome : Outcome} :
    (match checkHeight blockHeight latestHeight with
      | some reason => Outcome.rejected reason
      | none => outcome) = .accepted <->
      ¬ latestHeight <= blockHeight ∧
        ¬ blockHeight + stateChangeTxLifetimeInBlocks <= latestHeight ∧ outcome = .accepted := by
  unfold checkHeight
  by_cases hnew : latestHeight <= blockHeight
  · simp [hnew]
  · by_cases hold : blockHeight + stateChangeTxLifetimeInBlocks <= latestHeight
    · simp [hnew, hold]
    · simp [hnew, hold]

/-- The check on typed state changes accepts what the check on words accepts, if both use the
same hash and signatures. -/
theorem isAccepted_iff_words (hsig : O.checkSignature = C.checkSignature)
    (hhash : forall height index state, O.makeStateChangeVoteHash height index state =
      makeStateChangeVoteHash C height index (newStateWord state))
    (hquorum : quorum.validators.length <= stateChangeQuorumSize) (stateChange : StateChange)
    (latestHeight : UInt64) :
    isAccepted (NodeList.verifyTxStateChange O stateChange latestHeight quorum hf) = true <->
      verifyTxStateChange C (wordsOf stateChange) latestHeight quorum hf = .accepted := by
  have hloop := run_verifyStateChangeVote_iff hf (O.makeStateChangeVoteHash
    stateChange.blockHeight stateChange.masterNodeIndex stateChange.state) hsig hquorum {}
    stateChange.votes
  have hwords := (verifyVotes_start_iff C hf (makeStateChangeVoteHash C stateChange.blockHeight
    stateChange.masterNodeIndex (newStateWord stateChange.state)) hquorum stateChange.votes).2
  have hst : (stateChange.state != .deregister && decide (hf < Hf.hf13Checkpointing)) = false <->
      ¬ (newStateWord stateChange.state ≠ newStateDeregister ∧ hf < Hf.hf13Checkpointing) := by
    rw [Ne, newStateWord_eq_deregister]
    simp
  have hknown : ¬ newStateCount <= newStateWord stateChange.state :=
    UInt16.not_le.mpr (newStateWord_lt stateChange.state)
  unfold verifyTxStateChange wordsOf
  rw [ite_rejected_eq_accepted, if_neg hknown, ite_rejected_eq_accepted, ite_rejected_eq_accepted,
    ite_rejected_eq_accepted, checkHeight_cases, hwords, <- hhash, <- hloop, <- hst]
  rw [isAccepted_iff]
  unfold NodeList.verifyTxStateChange
  simp only [rejectIf_bind_ok, decide_eq_false_iff_not]
  constructor
  · rintro ⟨_, hhf, henough, hmany, hworker, hnew, hold, hvotes⟩
    rcases bind_ok.mp hvotes with ⟨scan', hrun, _⟩
    exact ⟨hhf, henough, hmany, hworker, hnew, hold, scan', hrun⟩
  · rintro ⟨hhf, henough, hmany, hworker, hnew, hold, scan', hrun⟩
    exact ⟨(), hhf, henough, hmany, hworker, hnew, hold, bind_ok.mpr ⟨scan', hrun, rfl⟩⟩

end Typed

end Beldex.NodeList.Obligations
