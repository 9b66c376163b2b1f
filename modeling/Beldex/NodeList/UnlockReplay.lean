import Beldex.NodeList.BlockSteps

/-!
# Unlock requests that are used again

An unlock request is signed with the key of the staked output, but what is signed is only
the nonce of the request: neither the node nor the height is part of it.  A request that
was accepted for one stake of an output is therefore good for every later stake of it.
-/

namespace Beldex.NodeList

open Basic Crypto Outputs Staking

variable {P σ : Type}

structure UnlockRequest (P : Type) where
  ctx : BlockContext
  tx : Transaction P
  infos : MasterNodes
  key : PublicKey
  info : MasterNode
  unlock : KeyImageUnlock
  contribution : Contribution

def UnlockRequest.isAccepted (O : ListOracles P σ) (request : UnlockRequest P) : Bool :=
  (processKeyImageUnlockTx O request.ctx request.tx request.infos).isSome

def UnlockRequest.MustWait (request : UnlockRequest P) : Prop :=
  Hf.hf18Bns <= request.ctx.hf ∧
    request.contribution.amount < smallContributorThreshold * Coinbase.coin ∧
    request.ctx.blockHeight - request.info.registrationHeight < smallContributorUnlockTimer

/-- The request is made in the block number `i` of a run, and meets the list as the
transactions before it have left it. -/
structure UnlockRequest.MadeAt (O : ListOracles P σ) (height : Nat) (nodes : Nodes)
    (steps : List (BlockStep P)) (i : Nat) (request : UnlockRequest P) : Prop where
  point : exists step before index after, steps[i]? = some step ∧
    step.txs.zipIdx = before ++ (request.tx, index) :: after ∧
    request.tx.type = .keyImageUnlock ∧ request.ctx = blockContext step.block ∧
    request.infos = (before.foldl (processTx O step.source request.ctx)
      (beginBlock O (height + i + 1) step.block
        (runBlocks O height nodes (steps.take i)))).nodes.masterNodesInfos
  key_eq : (O.listExtra request.ctx.hf request.tx).masterNodePubkey = some request.key
  unlock_eq : (O.listExtra request.ctx.hf request.tx).keyImageUnlock = some request.unlock
  info_eq : request.infos.find? request.key = some request.info
  contribution_eq : findContribution request.info request.unlock.keyImage =
    some request.contribution

/-- An output is staked, unlocked in the block number `i`, released and staked again, and in
the block number `j` the same request is made for the new stake. -/
structure Replay (O : ListOracles P σ) (height : Nat) (nodes : Nodes)
    (steps : List (BlockStep P)) (i j : Nat) (first second : UnlockRequest P) : Prop where
  first_made : first.MadeAt O height nodes steps i
  first_accepted : first.isAccepted O = true
  released : exists m, i < m ∧ m <= j ∧ forall key, ¬ StakedIn first.unlock.keyImage key
    (runBlocks O height nodes (steps.take m)).masterNodesInfos
  second_made : second.MadeAt O height nodes steps j
  same_request : second.unlock = first.unlock
  same_output : second.contribution.keyImagePubKey = first.contribution.keyImagePubKey

section Requests

variable {O : ListOracles P σ} {height : Nat} {nodes : Nodes} {steps : List (BlockStep P)}

theorem UnlockRequest.MadeAt.accepted_iff {i : Nat} {request : UnlockRequest P}
    (h : request.MadeAt O height nodes steps i) :
    request.isAccepted O = true <->
      request.info.requestedUnlockHeight = keyImageAwaitingUnlockHeight ∧ ¬ request.MustWait ∧
      O.checkSignature (O.generateRequestStakeUnlockHash request.unlock.nonce)
        request.contribution.keyImagePubKey request.unlock.signature = true := by
  unfold UnlockRequest.isAccepted processKeyImageUnlockTx
  simp only [h.key_eq, h.info_eq, h.unlock_eq, h.contribution_eq, Option.bind_eq_bind,
    Option.bind_some]
  by_cases hawaits : request.info.requestedUnlockHeight = keyImageAwaitingUnlockHeight
  · rw [if_neg (not_not_intro hawaits)]
    split
    next hwait =>
      exact iff_of_false Bool.false_ne_true fun h => h.2.1 hwait
    next hold =>
      split
      next hsign =>
        exact iff_of_true rfl ⟨hawaits, hold, hsign⟩
      next hsign =>
        exact iff_of_false Bool.false_ne_true fun h => hsign h.2.2
  · rw [if_pos hawaits]
    simp [hawaits]

/-- The request is accepted once more exactly when the second node does not wait for its
unlock yet and the stake does not have to wait. -/
theorem Replay.replay_isAccepted_iff {i j : Nat} {first second : UnlockRequest P}
    (h : Replay O height nodes steps i j first second) :
    second.isAccepted O = true <->
      second.info.requestedUnlockHeight = keyImageAwaitingUnlockHeight ∧ ¬ second.MustWait := by
  have hsign := (h.first_made.accepted_iff.mp h.first_accepted).2.2
  rw [<- h.same_request, <- h.same_output] at hsign
  rw [h.second_made.accepted_iff, and_iff_left hsign]

end Requests

/-! ## A request that is used twice -/

/-- The unlock time of a transaction names its node, and every unlock request is the same. -/
def replayOracles : ListOracles Int Unit :=
  { stakeOracles with
    nettype := .fakechain
    listExtra := fun _ tx =>
      { extraOf 5 with
        masterNodePubkey := some ⟨BitVec.ofNat 256 tx.unlockTime.toNat⟩
        masterNodeRegister := none
        stateChange := none
        keyImageUnlock := some ⟨⟨5⟩, nullSignature, 0x4b4c4e55⟩ } }

def twoOpenNodes : Nodes :=
  { openNodes with masterNodesInfos := openNodes.masterNodesInfos.set ⟨8⟩ openNode }

def replayStep (height : Nat) (txs : List (Transaction Int)) : BlockStep Int where
  block := (sampleEntry (UInt64.ofNat height) []).block
  txs := txs
  source := ⟨fun _ => none, []⟩

def stakeFor (node : UInt64) : Transaction Int :=
  { stakeFive with unlockTime := node }

def unlockFor (node : UInt64) : Transaction Int :=
  { Transaction.setNull Int with type := .keyImageUnlock, unlockTime := node }

/-- Node seven is left before block 60017; the output is then staked in node eight. -/
def replaySteps : List (BlockStep Int) :=
  [replayStep 60000 [stakeFor 7], replayStep 60001 [unlockFor 7]] ++
    (List.range 16).map (fun n => replayStep (60002 + n) []) ++
    [replayStep 60018 [stakeFor 8], replayStep 60019 [unlockFor 8]]

def requestIn (i : Nat) (node : UInt64) : UnlockRequest Int :=
  let step := replayStep (60000 + i) [unlockFor node]
  let infos := (beginBlock replayOracles (60000 + i) step.block
    (runBlocks replayOracles 59999 twoOpenNodes (replaySteps.take i))).nodes.masterNodesInfos
  { ctx := blockContext step.block
    tx := unlockFor node
    infos := infos
    key := ⟨BitVec.ofNat 256 node.toNat⟩
    info := (infos.find? ⟨BitVec.ofNat 256 node.toNat⟩).getD openNode
    unlock := ⟨⟨5⟩, nullSignature, 0x4b4c4e55⟩
    contribution := ⟨⟨5⟩, ⟨5⟩, 2500000000000⟩ }

theorem replaySteps_released (key : PublicKey) : ¬ StakedIn ⟨5⟩ key
      (runBlocks replayOracles 59999 twoOpenNodes (replaySteps.take 18)).masterNodesInfos := by
  intro h
  have hlocked := h.isKeyImageLocked
  have hnone : isKeyImageLocked (runBlocks replayOracles 59999 twoOpenNodes
    (replaySteps.take 18)).masterNodesInfos ⟨5⟩ = none := rfl
  rw [hnone] at hlocked
  cases hlocked

theorem replay_replaySteps :
    Replay replayOracles 59999 twoOpenNodes replaySteps 1 19 (requestIn 1 7) (requestIn 19 8) where
  first_made := ⟨⟨replayStep 60001 [unlockFor 7], [], 0, [], rfl, rfl, rfl, rfl, rfl⟩, rfl, rfl,
    rfl, by decide +kernel⟩
  first_accepted := by decide +kernel
  released := ⟨18, by decide, by decide, replaySteps_released⟩
  second_made := ⟨⟨replayStep 60019 [unlockFor 8], [], 0, [], rfl, rfl, rfl, rfl, rfl⟩, rfl, rfl,
    rfl, by decide +kernel⟩
  same_request := rfl
  same_output := rfl

theorem replay_isAccepted_iff_replaySteps :
    Replay replayOracles 59999 twoOpenNodes replaySteps 1 19 (requestIn 1 7) (requestIn 19 8) ∧
    ((requestIn 19 8).isAccepted replayOracles = true <->
      (requestIn 19 8).info.requestedUnlockHeight = keyImageAwaitingUnlockHeight ∧
      ¬ (requestIn 19 8).MustWait) :=
  ⟨replay_replaySteps, replay_replaySteps.replay_isAccepted_iff⟩

theorem replaySteps_accepted :
    Replay replayOracles 59999 twoOpenNodes replaySteps 1 19 (requestIn 1 7) (requestIn 19 8) ∧
    (requestIn 19 8).isAccepted replayOracles = true :=
  ⟨replay_replaySteps, by decide +kernel⟩

end Beldex.NodeList
