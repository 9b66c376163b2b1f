import Beldex.Chain.MainChain

/-!
# Switching to another chain

The blocks above the fork leave the main chain, the alternative blocks are added
one after the other, and if one of them is turned down the old blocks are put
back.
-/

namespace Beldex.Chain

open Basic Crypto Foundation Voting

variable {P S N Blob : Type}

/-! ## Results -/

structure BlockExtendedInfo (P : Type) where
  block : Block P
  height : UInt64
  cumulativeDifficulty : UInt64
  checkpoint : Option Checkpoint

/-- A block that left the main chain, with the checkpoint of its height. -/
structure BlockAndCheckpoint (P : Type) where
  block : Block P
  checkpoint : Option Checkpoint

inductive AltExit where
  | orphaned
  | basicBlockChecks
  | altChainDropped
  | altChainThrew
  | parentNotInMain
  | timestamp
  | proofOfWork
  | alreadyStored
  | coinsThrew
  | hardcodedCheckpoint
  | missingTx
  | altBlockHook
  | blocksQuery
  | addedAsAlternative
  | switched
  | switchFailed
  | switchThrew
  | terminated
deriving DecidableEq

structure AltCall (P S N Blob : Type) where
  node : Node P S N Blob
  block : Block P
  checkpoint : Option Checkpoint

/-- The node after an alternative block, how the code ended with the block, and the calls for
blocks of the old chain that were handed in again on the way. -/
structure AltResult (P S N Blob : Type) where
  node : Node P S N Blob
  exit : AltExit
  pushed : List (AltCall P S N Blob)

inductive SwitchOutcome where
  | switched
  | refused
  | failed
  | threw
  | terminated
deriving DecidableEq

structure SwitchResult (P S N Blob : Type) where
  node : Node P S N Blob
  outcome : SwitchOutcome
  pushed : List (AltCall P S N Blob)

/-! ## Leaving the old chain -/

variable (env : Environment P S N Blob)

/-- Pop blocks until the parent is on top, with the popped blocks from the lowest up.
There are no blocks in the result when an exception is thrown. -/
def popToParent (parent : Hash) : Nat -> Node P S N Blob -> List (BlockAndCheckpoint P) ->
    Node P S N Blob × Option (List (BlockAndCheckpoint P))
  | 0, node, _ => (node, none)
  | fuel + 1, node, disconnected =>
    if env.tailId node.main = some parent then
      (node, some disconnected)
    else
      match node.popBlockFromBlockchain env with
      | (popped, none) => (popped, none)
      | (popped, some block) =>
        popToParent parent fuel popped
          (⟨block, popped.checkpoints.db.find? (getBlockHeight block)⟩ :: disconnected)

/-- Pop a number of blocks; the answer is false when an exception is thrown. -/
def popBlocks : Nat -> Node P S N Blob -> Node P S N Blob × Bool
  | 0, node => (node, true)
  | count + 1, node =>
    match node.popBlockFromBlockchain env with
    | (popped, none) => (popped, false)
    | (popped, some _) => popBlocks count popped

/-! ## The alternative blocks -/

inductive ConnectResult (P S N Blob : Type) where
  | connected (node : Node P S N Blob)
  | rejected (node : Node P S N Blob) (bei : BlockExtendedInfo P)
      (rest : List (BlockExtendedInfo P))
  | terminated

def ConnectResult.node? : ConnectResult P S N Blob -> Option (Node P S N Blob)
  | .connected node => some node
  | .rejected node _ _ => some node
  | .terminated => none

def connectAlternative [DecidableEq P] : Node P S N Blob -> List (BlockExtendedInfo P) ->
    ConnectResult P S N Blob
  | node, [] => .connected node
  | node, bei :: rest =>
    match handleBlockToMainChain env node bei.block bei.checkpoint with
    | .added node => connectAlternative node rest
    | .rejected _ node => .rejected node bei rest
    | .terminated => .terminated

/-- Delete an alternative block; there is no result when it is not stored. -/
def Node.removeAltBlock (node : Node P S N Blob) (hash : Hash) : Option (Node P S N Blob) :=
  if (node.altBlocks.find? hash).isSome then
    some { node with altBlocks := node.altBlocks.restrict fun key => key != hash }
  else
    none

def removeAltBlocks : Node P S N Blob -> List (BlockExtendedInfo P) -> Node P S N Blob × Bool
  | node, [] => (node, true)
  | node, bei :: rest =>
    match node.removeAltBlock (env.getBlockHash bei.block) with
    | none => (node, false)
    | some node => removeAltBlocks node rest

/-- Mark the blocks behind a failed one invalid.  The identifier that is deleted for
each of them is that of the failed block. -/
def orphanRest (blkid : Hash) : Node P S N Blob -> List (BlockExtendedInfo P) ->
    Node P S N Blob × Bool
  | node, [] => (node, true)
  | node, bei :: rest =>
    let node := node.addBlockAsInvalid env bei.block
    match node.removeAltBlock blkid with
    | none => (node, false)
    | some node => orphanRest blkid node rest

def discardAlternative (node : Node P S N Blob) (bei : BlockExtendedInfo P)
    (rest : List (BlockExtendedInfo P)) : Node P S N Blob × Bool :=
  let blkid := env.getBlockHash bei.block
  let node := node.addBlockAsInvalid env bei.block
  match node.removeAltBlock blkid with
  | none => (node, false)
  | some node => orphanRest env blkid node rest

/-! ## Going back to the old chain -/

inductive RollbackResult (P S N Blob : Type) where
  | done (node : Node P S N Blob)
  | failed (node : Node P S N Blob)
  | threw (node : Node P S N Blob)
  | terminated

def RollbackResult.node? : RollbackResult P S N Blob -> Option (Node P S N Blob)
  | .done node => some node
  | .failed node => some node
  | .threw node => some node
  | .terminated => none

def reapply [DecidableEq P] : Node P S N Blob -> List (BlockAndCheckpoint P) ->
    RollbackResult P S N Blob
  | node, [] => .done node
  | node, entry :: rest =>
    match handleBlockToMainChain env node entry.block entry.checkpoint with
    | .added node => reapply node rest
    | .rejected _ node => .failed node
    | .terminated => .terminated

def rollbackBlockchainSwitching [DecidableEq P] (node : Node P S N Blob)
    (originalChain : List (BlockAndCheckpoint P)) (rollbackHeight : Nat) :
    RollbackResult P S N Blob :=
  if node.main.length < rollbackHeight then
    .done node
  else
    match popBlocks env (node.main.length - rollbackHeight) node with
    | (popped, false) => .threw popped
    | (popped, true) => reapply env (popped.execDetachHooks env rollbackHeight true) originalChain

/-! ## The switch -/

def pushDisconnected
    (push : Node P S N Blob -> Block P -> Option Checkpoint -> AltResult P S N Blob) :
    Node P S N Blob -> List (BlockAndCheckpoint P) -> SwitchResult P S N Blob
  | node, [] => ⟨node, .switched, []⟩
  | node, entry :: rest =>
    let result := push node entry.block entry.checkpoint
    let pushed := ⟨node, entry.block, entry.checkpoint⟩ :: result.pushed
    if result.exit = .terminated then
      ⟨result.node, .terminated, pushed⟩
    else if result.exit = .altChainThrew ∨ result.exit = .coinsThrew ∨
        result.exit = .switchThrew then
      ⟨result.node, .threw, pushed⟩
    else
      let others := pushDisconnected push result.node rest
      ⟨others.node, others.outcome, pushed ++ others.pushed⟩

/-- What is left to do when all alternative blocks are on the main chain. -/
def finishSwitch (push : Node P S N Blob -> Block P -> Option Checkpoint -> AltResult P S N Blob)
    (node : Node P S N Blob) (altChain : List (BlockExtendedInfo P))
    (disconnected : List (BlockAndCheckpoint P)) (keepDisconnectedChain : Bool) :
    SwitchResult P S N Blob :=
  let kept :=
    if keepDisconnectedChain then pushDisconnected push node disconnected
    else ⟨node, .switched, []⟩
  if kept.outcome = .switched then
    match removeAltBlocks env kept.node altChain with
    | (node, true) => ⟨node, .switched, kept.pushed⟩
    | (node, false) => ⟨node, .threw, kept.pushed⟩
  else
    kept

def undoSwitch [DecidableEq P] (node : Node P S N Blob) (bei : BlockExtendedInfo P)
    (rest : List (BlockExtendedInfo P)) (disconnected : List (BlockAndCheckpoint P))
    (splitHeight : Nat) : SwitchResult P S N Blob :=
  match rollbackBlockchainSwitching env node disconnected splitHeight with
  | .terminated => ⟨node, .terminated, []⟩
  | .threw node => ⟨node, .threw, []⟩
  | .failed node =>
    let discarded := discardAlternative env node bei rest
    ⟨discarded.1, if discarded.2 then .failed else .threw, []⟩
  | .done node =>
    let discarded := discardAlternative env node bei rest
    ⟨discarded.1, if discarded.2 then .failed else .threw, []⟩

/-- The node at the fork, with the blocks that left the main chain. -/
def disconnect (node : Node P S N Blob) (parent : Hash) :
    Node P S N Blob × Option (List (BlockAndCheckpoint P)) :=
  match popToParent env parent node.main.length node [] with
  | (popped, none) => (popped, none)
  | (popped, some disconnected) =>
    (popped.execDetachHooks env popped.main.length true, some disconnected)

def switchToAlternativeBlockchain [DecidableEq P]
    (push : Node P S N Blob -> Block P -> Option Checkpoint -> AltResult P S N Blob)
    (node : Node P S N Blob) (altChain : List (BlockExtendedInfo P))
    (keepDisconnectedChain : Bool) : SwitchResult P S N Blob :=
  match altChain.head? with
  | none => ⟨node, .refused, []⟩
  | some front =>
    if !env.blockExists node.main front.block.prevId then
      ⟨node, .refused, []⟩
    else
      match disconnect env node front.block.prevId with
      | (popped, none) => ⟨popped, .threw, []⟩
      | (base, some disconnected) =>
        match connectAlternative env base altChain with
        | .terminated => ⟨base, .terminated, []⟩
        | .rejected stuck bei rest =>
          undoSwitch env stuck bei rest disconnected base.main.length
        | .connected joined =>
          finishSwitch env push joined altChain disconnected keepDisconnectedChain

/-! ## Deleting alternative blocks -/

section

variable {env} {node node' node'' : Node P S N Blob}

/-- Alternative blocks may have been deleted, and what is kept in memory of checkpoints
and invalid blocks may have changed. -/
structure Trims (node node' : Node P S N Blob) : Prop where
  main : node'.main = node.main
  masterNodes : node'.masterNodes = node.masterNodes
  altBlocks : node'.altBlocks.KeysIn node.altBlocks

theorem Trims.refl (node : Node P S N Blob) : Trims node node :=
  ⟨rfl, rfl, Table.KeysIn.refl _⟩

theorem Trims.trans (h : Trims node node') (h' : Trims node' node'') : Trims node node'' :=
  ⟨h'.main.trans h.main, h'.masterNodes.trans h.masterNodes, h'.altBlocks.trans h.altBlocks⟩

theorem trims_addBlockAsInvalid (node : Node P S N Blob) (block : Block P) :
    Trims node (node.addBlockAsInvalid env block) :=
  ⟨rfl, rfl, Table.KeysIn.refl _⟩

theorem trims_removeAltBlock {hash : Hash} (h : node.removeAltBlock hash = some node') :
    Trims node node' := by
  unfold Node.removeAltBlock at h
  split at h
  · cases h
    exact ⟨rfl, rfl, Table.keysIn_restrict _ _⟩
  · cases h

theorem trims_removeAltBlocks (node : Node P S N Blob)
    (altChain : List (BlockExtendedInfo P)) : Trims node (removeAltBlocks env node altChain).1 := by
  induction altChain generalizing node with
  | nil => exact Trims.refl node
  | cons bei rest ih =>
    unfold removeAltBlocks
    split
    · exact Trims.refl node
    next removed hremove =>
      exact (trims_removeAltBlock hremove).trans (ih removed)

theorem trims_orphanRest (blkid : Hash) (node : Node P S N Blob)
    (rest : List (BlockExtendedInfo P)) : Trims node (orphanRest env blkid node rest).1 := by
  induction rest generalizing node with
  | nil => exact Trims.refl node
  | cons bei rest ih =>
    have hinval : Trims node (node.addBlockAsInvalid env bei.block) :=
      trims_addBlockAsInvalid node bei.block
    unfold orphanRest
    dsimp only
    split
    · exact hinval
    next removed hremove =>
      exact hinval.trans ((trims_removeAltBlock hremove).trans (ih removed))

theorem trims_discardAlternative (node : Node P S N Blob) (bei : BlockExtendedInfo P)
    (rest : List (BlockExtendedInfo P)) : Trims node (discardAlternative env node bei rest).1 := by
  have hinval : Trims node (node.addBlockAsInvalid env bei.block) :=
    trims_addBlockAsInvalid node bei.block
  unfold discardAlternative
  dsimp only
  split
  · exact hinval
  next removed hremove =>
    exact hinval.trans ((trims_removeAltBlock hremove).trans (trims_orphanRest _ removed rest))

end

/-! ## What the steps of a switch have in common -/

/-- A preorder on nodes that holds across the steps of a switch other than the pops. -/
structure SwitchRule (env : Environment P S N Blob)
    (R : Node P S N Blob -> Node P S N Blob -> Prop) : Prop where
  refl : forall node, R node node
  trans : forall {node node' node''}, R node node' -> R node' node'' -> R node node''
  added : forall {node block checkpoint node'},
    AddedBlock env node block checkpoint node' -> R node node'
  rejected : forall {node block checkpoint node'},
    RejectedBlock env node block checkpoint node' -> R node node'
  detached : forall node height loadMissing, R node (node.execDetachHooks env height loadMissing)
  trims : forall {node node'}, Trims node node' -> R node node'

section Rule

variable {env} [DecidableEq P] {R : Node P S N Blob -> Node P S N Blob -> Prop}
  {node left : Node P S N Blob} {altChain : List (BlockExtendedInfo P)}
  {disconnected : List (BlockAndCheckpoint P)}
  {push : Node P S N Blob -> Block P -> Option Checkpoint -> AltResult P S N Blob}

section

variable (hR : SwitchRule env R)
include hR

theorem SwitchRule.connectAlternative
    (h : (connectAlternative env node altChain).node? = some left) : R node left := by
  induction altChain generalizing node with
  | nil =>
    cases h
    exact hR.refl _
  | cons bei rest ih =>
    unfold Chain.connectAlternative at h
    split at h
    next added hadded =>
      exact hR.trans (hR.added (addedBlock_of_handle hadded)) (ih h)
    next exit stuck hrej =>
      cases h
      exact hR.rejected (rejectedBlock_of_handle hrej)
    · cases h

theorem SwitchRule.reapply
    (h : (reapply env node disconnected).node? = some left) : R node left := by
  induction disconnected generalizing node with
  | nil =>
    cases h
    exact hR.refl _
  | cons entry rest ih =>
    unfold Chain.reapply at h
    split at h
    next added hadded =>
      exact hR.trans (hR.added (addedBlock_of_handle hadded)) (ih h)
    next exit stuck hrej =>
      cases h
      exact hR.rejected (rejectedBlock_of_handle hrej)
    · cases h

theorem SwitchRule.rollback {rollbackHeight : Nat} (hpops : rollbackHeight <= node.main.length ->
      R node (popBlocks env (node.main.length - rollbackHeight) node).1)
    (h : (rollbackBlockchainSwitching env node disconnected rollbackHeight).node? = some left) :
    R node left := by
  unfold rollbackBlockchainSwitching at h
  split at h
  · cases h
    exact hR.refl _
  next hlong =>
    have hpop := hpops (not_lt.mp hlong)
    split at h
    next popped heq =>
      rw [heq] at hpop
      cases h
      exact hpop
    next popped heq =>
      rw [heq] at hpop
      exact hR.trans hpop (hR.trans (hR.detached _ _ _) (hR.reapply h))

theorem SwitchRule.undoSwitch {bei : BlockExtendedInfo P}
    {rest : List (BlockExtendedInfo P)} {splitHeight : Nat}
    (hpops : splitHeight <= node.main.length ->
      R node (popBlocks env (node.main.length - splitHeight) node).1) :
    R node (undoSwitch env node bei rest disconnected splitHeight).node := by
  unfold Chain.undoSwitch
  cases hrollback : rollbackBlockchainSwitching env node disconnected splitHeight with
  | terminated => exact hR.refl node
  | threw left => exact hR.rollback hpops (congrArg RollbackResult.node? hrollback)
  | failed left | done left =>
    have hleft : R node left :=
      hR.rollback hpops (congrArg RollbackResult.node? hrollback)
    exact hR.trans hleft (hR.trims (trims_discardAlternative left bei rest))

end

omit [DecidableEq P] in
theorem SwitchRule.finishSwitch (hR : SwitchRule env R) {keep : Bool}
    (hkept : keep = true -> R node (pushDisconnected push node disconnected).node) :
    R node (finishSwitch env push node altChain disconnected keep).node := by
  unfold Chain.finishSwitch
  dsimp only
  have hpushed : R node (if keep then pushDisconnected push node disconnected
      else ⟨node, .switched, []⟩).node := by
    cases keep with
    | true => exact hkept rfl
    | false => exact hR.refl node
  generalize (if keep then pushDisconnected push node disconnected
    else ⟨node, .switched, []⟩) = kept at hpushed ⊢
  have hremove : Trims kept.node (removeAltBlocks env kept.node altChain).1 :=
    trims_removeAltBlocks kept.node altChain
  split
  · split
    next removed heq =>
      rw [heq] at hremove
      exact hR.trans hpushed (hR.trims hremove)
    next removed heq =>
      rw [heq] at hremove
      exact hR.trans hpushed (hR.trims hremove)
  · exact hpushed

/-- The relation holds across a switch, however it ends, if it holds across the pops and
across the blocks that are handed in again. -/
theorem SwitchRule.switch (hR : SwitchRule env R) {keep : Bool}
    (hdisc : forall front, altChain.head? = some front ->
      R node (disconnect env node front.block.prevId).1)
    (hpops : forall front base disconnected stuck, altChain.head? = some front ->
      disconnect env node front.block.prevId = (base, some disconnected) ->
      base.main.length <= stuck.main.length ->
        R stuck (popBlocks env (stuck.main.length - base.main.length) stuck).1)
    (hkept : forall front base disconnected joined, keep = true -> altChain.head? = some front ->
      env.blockExists node.main front.block.prevId = true ->
      disconnect env node front.block.prevId = (base, some disconnected) ->
      Chain.connectAlternative env base altChain = .connected joined ->
        R joined (pushDisconnected push joined disconnected).node) :
    R node (switchToAlternativeBlockchain env push node altChain keep).node := by
  unfold switchToAlternativeBlockchain
  cases hfront : altChain.head? with
  | none => exact hR.refl node
  | some front =>
    have hbase := hdisc front hfront
    dsimp only
    split
    · exact hR.refl node
    next hpar =>
      rw [Bool.not_eq_true', Bool.not_eq_false] at hpar
      split
      next popped heq =>
        rw [heq] at hbase
        exact hbase
      next base disconnected heq =>
        rw [heq] at hbase
        cases hconn : Chain.connectAlternative env base altChain with
        | terminated => exact hbase
        | rejected stuck bei rest =>
          have hstuck : R base stuck :=
            hR.connectAlternative (congrArg ConnectResult.node? hconn)
          exact hR.trans hbase (hR.trans hstuck
            (hR.undoSwitch (hpops front base disconnected stuck hfront heq)))
        | connected joined =>
          have hjoined : R base joined :=
            hR.connectAlternative (congrArg ConnectResult.node? hconn)
          refine hR.trans hbase (hR.trans hjoined (hR.finishSwitch ?_))
          intro hkeep
          exact hkept front base disconnected joined hkeep hfront hpar heq hconn

end Rule

end Beldex.Chain
