import Beldex.Chain.HandleAlternative

/-!
# The alternative blocks that are kept

A block is stored before its last checks are made, and so is the state of the
master node list after it.  What is stored has passed all checks as long as every
block that gets there passes the last ones, and a block that does not get there
leaves no trace.
-/

namespace Beldex.Chain

open Basic Crypto Foundation Foundation.Fallible Voting Table List

variable {P S N Blob : Type} {env : Environment P S N Blob}

/-! ## The checks of a block that is stored -/

section

variable (env) (node : Node P S N Blob) (block : Block P) (checkpoint : Option Checkpoint)

/-- A block without a checkpoint agrees with the hardcoded one of its height, and the
transactions are at hand. -/
structure LaterChecks : Prop where
  hardcoded : checkpoint = none ->
    checkBlock node.checkpoints.db (getBlockHeight block) (env.getBlockHash block) = true ∨
      isMasterNodeCheckpoint node.checkpoints.db (getBlockHeight block) = true
  transactions : forall txId, txId ∈ block.txHashes ->
    node.txExists env txId = true ∨ txId ∈ node.pool

/-- The master node list has the state below the block, can process the block, and verifies
it. -/
def Verified : Prop :=
  ¬ block.majorVersion < Hf.hf9MasterNodes -> exists start,
    node.masterNodes.startingState block = some start ∧ start.blockHash = block.prevId ∧
      (stateAfter env node.masterNodes start block).2 = true ∧
      env.verifyBlock { node.masterNodes with
        altState := node.masterNodes.altState.set (env.getBlockHash block)
          (stateAfter env node.masterNodes start block).1 } node.main block true checkpoint = true

def HasState : Prop :=
  (node.masterNodes.altState.find? (env.getBlockHash block)).isSome = true

end

namespace AltCall

variable (env) (call : AltCall P S N Blob)

def PassesAll : Prop :=
  exists below examined, Examined env call.node call.block below examined ∧
    LaterChecks env examined call.block call.checkpoint ∧
    Verified env examined call.block call.checkpoint

/-- If the block passes the checks before it is stored, it passes the others; it is not
verified when the list has a state of it. -/
def IsFit : Prop :=
  forall below examined, Examined env call.node call.block below examined ->
    LaterChecks env examined call.block call.checkpoint ∧
      (HasState env examined call.block ∨ Verified env examined call.block call.checkpoint)

end AltCall

variable {node : Node P S N Blob}

theorem altBlockAdd_iff {block : Block P} {checkpoint : Option Checkpoint} :
    (node.masterNodes.altBlockAdd env node.main block checkpoint).2 = true <->
      HasState env node block ∨ Verified env node block checkpoint := by
  unfold MasterNodeList.altBlockAdd HasState Verified
  by_cases hold : block.majorVersion < Hf.hf9MasterNodes
  · simp [hold]
  by_cases hst : (node.masterNodes.altState.find? (env.getBlockHash block)).isSome = true
  · simp [hold, hst]
  rw [if_neg hold, if_neg hst]
  cases hstart : node.masterNodes.startingState block with
  | none => simp [hst, hold]
  | some start =>
    by_cases hprev : start.blockHash = block.prevId
    · by_cases hnext : (stateAfter env node.masterNodes start block).2 = true
      · simp [hst, hold, hprev, hnext]
      · simp [hst, hold, hprev, hnext]
    · simp [hst, hold, hprev]

theorem examineStored_iff {bei : BlockExtendedInfo P}
    (hheight : bei.height = getBlockHeight bei.block) :
    (exists node', examineStored env node bei = .ok node') <->
      LaterChecks env node bei.block bei.checkpoint ∧
        (HasState env node bei.block ∨ Verified env node bei.block bei.checkpoint) := by
  have hhard : failsHardcodedCheckpoint env node.checkpoints.db bei = false <->
      (bei.checkpoint = none -> checkBlock node.checkpoints.db (getBlockHeight bei.block)
        (env.getBlockHash bei.block) = true ∨
          isMasterNodeCheckpoint node.checkpoints.db (getBlockHeight bei.block) = true) := by
    unfold failsHardcodedCheckpoint
    rw [hheight]
    cases bei.checkpoint with
    | none =>
      cases checkBlock node.checkpoints.db (getBlockHeight bei.block)
        (env.getBlockHash bei.block) <;> simp
    | some _ => simp
  have htxs : knowsTransactions env node bei.block = true <-> forall txId,
      txId ∈ bei.block.txHashes -> node.txExists env txId = true ∨ txId ∈ node.pool := by
    simp [knowsTransactions]
  constructor
  · rintro ⟨node', h⟩
    rcases rejectIf_bind_ok.mp h with ⟨hhard', h⟩
    rcases rejectIf_bind_ok.mp h with ⟨htxs', h⟩
    rcases rejectIf_bind_ok.mp h with ⟨hhook, _⟩
    rw [Bool.not_eq_false'] at htxs' hhook
    exact ⟨⟨hhard.mp hhard', htxs.mp htxs'⟩, altBlockAdd_iff.mp hhook⟩
  · rintro ⟨hlater, hhook⟩
    refine ⟨_, rejectIf_bind_ok.mpr ⟨hhard.mpr hlater.hardcoded, rejectIf_bind_ok.mpr
      ⟨?_, rejectIf_bind_ok.mpr ⟨?_, rfl⟩⟩⟩⟩
    · rw [Bool.not_eq_false']
      exact htxs.mpr hlater.transactions
    · rw [Bool.not_eq_false']
      exact altBlockAdd_iff.mpr hhook

/-! ## Fewer alternative blocks -/

structure Narrows (node node' : Node P S N Blob) : Prop where
  altBlocks : node'.altBlocks.KeysIn node.altBlocks
  altState : node'.masterNodes.altState.KeysIn node.masterNodes.altState

theorem Narrows.refl (node : Node P S N Blob) : Narrows node node :=
  ⟨KeysIn.refl _, KeysIn.refl _⟩

theorem Narrows.trans {node node' node'' : Node P S N Blob} (h : Narrows node node')
    (h' : Narrows node' node'') : Narrows node node'' :=
  ⟨h'.altBlocks.trans h.altBlocks, h'.altState.trans h.altState⟩

variable {node node' : Node P S N Blob}

theorem Trims.narrows (h : Trims node node') : Narrows node node' :=
  ⟨h.altBlocks, h.masterNodes ▸ KeysIn.refl _⟩

theorem altState_blockAdd (list : MasterNodeList S) (main : List (ChainBlock P))
    (block : Block P) (checkpoint : Option Checkpoint) :
    (list.blockAdd env main block checkpoint).1.altState.KeysIn list.altState := by
  unfold MasterNodeList.blockAdd
  split
  · exact KeysIn.refl _
  · exact keysIn_restrict _ _

theorem altState_blockchainDetached (list : MasterNodeList S) (main : List (ChainBlock P))
    (height : Nat) : (list.blockchainDetached env main height).altState.KeysIn list.altState := by
  unfold MasterNodeList.blockchainDetached
  split
  · exact KeysIn.refl _
  · dsimp only
    split
    · exact KeysIn.refl _
    · split
      · exact KeysIn.refl _
      · unfold initMasterNodeList
        split
        · exact keysIn_empty _
        · exact keysIn_empty _

theorem altState_loadBlock (main : List (ChainBlock P)) (checkpoints : CheckpointDb)
    (mnlHeight bnsHeight : Nat) (parts : MasterNodeList S × BnsDb N × Bool) (block : Block P) :
    (loadBlock env main checkpoints mnlHeight bnsHeight parts block).1.altState.KeysIn
      parts.1.altState := by
  unfold loadBlock
  dsimp only
  generalize (if Hf.hf15Flash <= block.majorVersion then _ else none) = checkpoint
  have hlisted : (if mnlHeight <= (getBlockHeight block).toNat then
      parts.1.blockAdd env main block checkpoint else (parts.1, true)).1.altState.KeysIn
        parts.1.altState := by
    split
    · exact altState_blockAdd _ _ _ _
    · exact KeysIn.refl _
  generalize (if mnlHeight <= (getBlockHeight block).toNat then
    parts.1.blockAdd env main block checkpoint else (parts.1, true)) = listed at hlisted ⊢
  split
  · exact KeysIn.refl _
  · split
    · exact hlisted
    · split
      · split
        · exact hlisted
        · exact hlisted
      · exact hlisted

theorem altState_loadMissingBlocks (main : List (ChainBlock P)) (checkpoints : CheckpointDb)
    (list : MasterNodeList S) (names : BnsDb N) :
    (loadMissingBlocks env main checkpoints list names).1.altState.KeysIn list.altState := by
  unfold loadMissingBlocks
  dsimp only
  generalize main.drop _ = blocks
  generalize true = going
  generalize max _ (list.state.height + 1) = mnlHeight
  generalize max _ (names.lastProcessedHeight + 1) = bnsHeight
  induction blocks generalizing list names going with
  | nil => exact KeysIn.refl _
  | cons entry rest ih =>
    rw [foldl_cons]
    exact (ih _ _ _).trans (altState_loadBlock _ _ _ _ (list, names, going) entry.block)

theorem narrows_execDetachHooks (node : Node P S N Blob) (height : Nat)
    (loadMissing : Bool) : Narrows node (node.execDetachHooks env height loadMissing) := by
  refine ⟨KeysIn.refl _, ?_⟩
  have hdetached : (node.masterNodes.blockchainDetached env node.main
      height).altState.KeysIn node.masterNodes.altState :=
    altState_blockchainDetached _ _ _
  cases loadMissing with
  | false => exact hdetached
  | true => exact (altState_loadMissingBlocks _ _ _ _).trans hdetached

theorem narrows_popBlock (env : Environment P S N Blob) (node : Node P S N Blob) :
    Narrows node (node.popBlockFromBlockchain env).1 := by
  unfold Node.popBlockFromBlockchain
  dsimp only
  split
  · exact Narrows.refl node
  · split
    · exact Narrows.refl node
    · split
      · exact ⟨KeysIn.refl _, KeysIn.refl _⟩
      · split
        · exact ⟨KeysIn.refl _, KeysIn.refl _⟩
        · exact ⟨KeysIn.refl _, KeysIn.refl _⟩

theorem narrows_popToParent (env : Environment P S N Blob) (parent : Hash) (fuel : Nat)
    (node : Node P S N Blob) (disconnected : List (BlockAndCheckpoint P)) :
    Narrows node (popToParent env parent fuel node disconnected).1 := by
  induction fuel generalizing node disconnected with
  | zero => exact Narrows.refl node
  | succ fuel ih =>
    have hpop := narrows_popBlock env node
    unfold popToParent
    split
    · exact Narrows.refl node
    · split
      next popped heq =>
        rw [heq] at hpop
        exact hpop
      next popped block heq =>
        rw [heq] at hpop
        exact hpop.trans (ih popped _)

theorem narrows_disconnect (env : Environment P S N Blob) (node : Node P S N Blob)
    (parent : Hash) : Narrows node (disconnect env node parent).1 := by
  have hpop := narrows_popToParent env parent node.main.length node []
  unfold disconnect
  split
  next popped heq =>
    rw [heq] at hpop
    exact hpop
  next popped disconnected heq =>
    rw [heq] at hpop
    exact hpop.trans (narrows_execDetachHooks _ _ _)

variable {checkpoint : Option Checkpoint} {block : Block P}

theorem AddedBlock.narrows (h : AddedBlock env node block checkpoint node') :
    Narrows node node' := by
  refine ⟨?_, ?_⟩
  · rw [h.altBlocks]
    exact KeysIn.refl _
  · rw [h.list]
    exact altState_blockAdd _ _ _ _

theorem RejectedBlock.narrows (h : RejectedBlock env node block checkpoint node') :
    Narrows node node' := by
  refine ⟨?_, ?_⟩
  · rw [h.altBlocks]
    exact KeysIn.refl _
  · rcases h.list with hlist | ⟨written, hlist⟩
    · rw [hlist]
      exact KeysIn.refl _
    · rw [hlist]
      exact (altState_blockchainDetached _ _ _).trans (altState_blockAdd _ _ _ _)

theorem narrows_popBlocks (env : Environment P S N Blob) (count : Nat)
    (node : Node P S N Blob) : Narrows node (popBlocks env count node).1 := by
  induction count generalizing node with
  | zero => exact Narrows.refl node
  | succ count ih =>
    have hpop := narrows_popBlock env node
    unfold popBlocks
    split
    next popped heq =>
      rw [heq] at hpop
      exact hpop
    next popped block heq =>
      rw [heq] at hpop
      exact hpop.trans (ih popped)

/-! ## What is stored was checked -/

/-- The hashes of all that is stored are good. -/
structure Vetted (good : Hash -> Prop) (node : Node P S N Blob) : Prop where
  altBlocks : forall hash, (node.altBlocks.find? hash).isSome = true -> good hash
  altState : forall hash, (node.masterNodes.altState.find? hash).isSome = true -> good hash

/-- The call is fit, and the hash is good if all checks are passed. -/
def Accounts (env : Environment P S N Blob) (good : Hash -> Prop) (call : AltCall P S N Blob) :
    Prop :=
  call.IsFit env ∧ (call.PassesAll env -> good (env.getBlockHash call.block))

variable {good : Hash -> Prop}

theorem Vetted.narrow (h : Vetted good node) (hnarrows : Narrows node node') :
    Vetted good node' where
  altBlocks := fun hash hstored => h.altBlocks hash (hnarrows.altBlocks hash hstored)
  altState := fun hash hstored => h.altState hash (hnarrows.altState hash hstored)

theorem find?_altState_altBlockAdd {list : MasterNodeList S} {main : List (ChainBlock P)}
    {hash : Hash}
    (h : ((list.altBlockAdd env main block checkpoint).1.altState.find? hash).isSome = true) :
    hash = env.getBlockHash block ∨ (list.altState.find? hash).isSome = true := by
  by_cases hhash : hash = env.getBlockHash block
  · exact Or.inl hhash
  refine Or.inr ?_
  unfold MasterNodeList.altBlockAdd at h
  split at h
  · exact h
  · split at h
    · exact h
    · split at h
      · exact h
      · split at h
        · exact h
        · dsimp only at h
          split at h
          · rw [find?_set_of_ne _ _ hhash] at h
            exact h
          · exact h

section Evaluate

variable {node node' : Node P S N Blob} {block : Block P} {checkpoint : Option Checkpoint}

theorem Vetted.examineStored_ok {bei : BlockExtendedInfo P} (hvetted : Vetted good node)
    (hself : good (env.getBlockHash bei.block))
    (h : examineStored env (storeAltBlock env node bei) bei = .ok node') : Vetted good node' := by
  rw [examineStored_eq_ok h]
  constructor
  · intro hash hstored
    rcases eq_or_ne hash (env.getBlockHash bei.block) with rfl | hhash
    · exact hself
    · refine hvetted.altBlocks hash ?_
      rw [<- find?_set_of_ne node.altBlocks
        ⟨bei.height, bei.cumulativeDifficulty, bei.block, bei.checkpoint⟩ hhash]
      exact hstored
  · intro hash hstored
    rcases find?_altState_altBlockAdd hstored with rfl | hold
    · exact hself
    · exact hvetted.altState hash hold

section

variable (hvetted : Vetted good node) (hcall : Accounts env good ⟨node, block, checkpoint⟩)
include hvetted hcall

theorem Vetted.evaluate_error
    (h : evaluate env node block checkpoint = .error (exit, node')) : Vetted good node' := by
  rcases evaluate_eq_error h with hexamine |
    ⟨below, examined, bei, hexamine, hstored, rfl, hht, rfl⟩
  · exact hvetted.narrow (trims_examine_error hexamine).narrows
  · have hfit := hcall.1 _ _ (examine_eq_ok hexamine)
    have hpass : exists node', examineStored env (storeAltBlock env examined bei) bei = .ok node' :=
      (examineStored_iff hht).mpr ⟨⟨hfit.1.hardcoded, hfit.1.transactions⟩, hfit.2⟩
    rcases hpass with ⟨_, hok⟩
    rw [hstored] at hok
    cases hok

theorem Vetted.evaluate_ok {contest : Contest P S N Blob}
    (h : evaluate env node block checkpoint = .ok contest) : Vetted good contest.node := by
  rcases evaluate_eq_ok h with ⟨below, examined, bei, hexamine, hstored, rfl, _, rfl, _⟩
  have hexamined := hvetted.narrow (trims_examine_ok hexamine).narrows
  have hchecks := examine_eq_ok hexamine
  refine hexamined.examineStored_ok ?_ hstored
  rcases hcall.1 _ _ hchecks with ⟨hlater, hst | hver⟩
  · exact hexamined.altState _ hst
  · exact hcall.2 ⟨below, examined, hchecks, hlater, hver⟩

end

end Evaluate

/-! ## A whole call -/

section

variable [DecidableEq P]
  {push : Node P S N Blob -> Block P -> Option Checkpoint -> AltResult P S N Blob}

def PushVets (env : Environment P S N Blob) (good : Hash -> Prop)
    (push : Node P S N Blob -> Block P -> Option Checkpoint -> AltResult P S N Blob) : Prop :=
  forall node block checkpoint, Vetted good node ->
    (forall call, call ∈ ⟨node, block, checkpoint⟩ :: (push node block checkpoint).pushed ->
      Accounts env good call) -> Vetted good (push node block checkpoint).node

omit [DecidableEq P] in
theorem Vetted.pushDisconnected (hpush : PushVets env good push)
    (hvetted : Vetted good node) {entries : List (BlockAndCheckpoint P)}
    (hcalls : forall call, call ∈ (pushDisconnected push node entries).pushed ->
      Accounts env good call) : Vetted good (Chain.pushDisconnected push node entries).node := by
  induction entries generalizing node with
  | nil => exact hvetted
  | cons entry rest ih =>
    unfold Chain.pushDisconnected at hcalls ⊢
    dsimp only at hcalls ⊢
    split
    next hterminated =>
      rw [if_pos hterminated] at hcalls
      exact hpush _ _ _ hvetted hcalls
    next hrunning =>
      rw [if_neg hrunning] at hcalls
      split
      next hthrew =>
        rw [if_pos hthrew] at hcalls
        exact hpush _ _ _ hvetted hcalls
      next hret =>
        rw [if_neg hret, forall_mem_append] at hcalls
        exact ih (hpush _ _ _ hvetted hcalls.1) hcalls.2

omit [DecidableEq P] in
theorem vetted_rule (env : Environment P S N Blob) :
    SwitchRule env fun node node' => Vetted good node -> Vetted good node' where
  refl := fun _ h => h
  trans := fun h h' hvetted => h' (h hvetted)
  added := fun hadded hvetted => hvetted.narrow hadded.narrows
  rejected := fun hrej hvetted => hvetted.narrow hrej.narrows
  detached := fun node height loadMissing hvetted =>
    hvetted.narrow (narrows_execDetachHooks node height loadMissing)
  trims := fun htrims hvetted => hvetted.narrow htrims.narrows

omit [DecidableEq P] in
theorem finishSwitch_pushed (node : Node P S N Blob) (altChain : List (BlockExtendedInfo P))
    (disconnected : List (BlockAndCheckpoint P)) :
    (finishSwitch env push node altChain disconnected true).pushed =
      (Chain.pushDisconnected push node disconnected).pushed := by
  unfold finishSwitch
  dsimp only
  rw [if_pos rfl]
  split
  · split
    · rfl
    · rfl
  · rfl

theorem Vetted.switchToAlternativeBlockchain (hpush : PushVets env good push)
    (hvetted : Vetted good node) {altChain : List (BlockExtendedInfo P)}
    {keep : Bool} (hcalls : forall call,
      call ∈ (switchToAlternativeBlockchain env push node altChain keep).pushed ->
        Accounts env good call) :
    Vetted good (Chain.switchToAlternativeBlockchain env push node altChain keep).node := by
  refine (vetted_rule env).switch ?_ ?_ ?_ hvetted
  · intro front _ h
    exact h.narrow (narrows_disconnect env node front.block.prevId)
  · intro front base disconnected stuck _ _ _ h
    exact h.narrow (narrows_popBlocks env _ stuck)
  · intro front base disconnected joined hkeep hfront hpar hdisc hconn h
    refine h.pushDisconnected hpush ?_
    unfold Chain.switchToAlternativeBlockchain at hcalls
    rw [hfront] at hcalls
    simp only [hpar, Bool.not_true, Bool.false_eq_true, if_false, hdisc, hconn,
      hkeep, finishSwitch_pushed] at hcalls
    exact hcalls

theorem handleAlternativeBlock_vets (depth : Nat) :
    PushVets env good (handleAlternativeBlock env depth) := by
  induction depth with
  | zero =>
    intro node block checkpoint hvetted _
    exact hvetted
  | succ depth ih =>
    intro node block checkpoint hvetted hcalls
    rw [forall_mem_cons] at hcalls
    unfold handleAlternativeBlock at hcalls ⊢
    cases heval : evaluate env node block checkpoint with
    | error result => exact hvetted.evaluate_error hcalls.1 heval
    | ok contest =>
      rw [heval] at hcalls
      have hcontest := hvetted.evaluate_ok hcalls.1 heval
      dsimp only at hcalls ⊢
      split
      · exact hcontest
      · exact hcontest
      next keep hwins =>
        rw [hwins] at hcalls
        exact hcontest.switchToAlternativeBlockchain ih hcalls.2

/-- A block that is answered with true and is no orphan has passed all checks. -/
theorem checks_of_returned_true {block : Block P}
    {checkpoint : Option Checkpoint} {depth : Nat}
    (htrue : (handleAlternativeBlock env depth node block checkpoint).exit.returned = some true)
    (hparent : (handleAlternativeBlock env depth node block checkpoint).exit ≠ .orphaned) :
    exists below examined, Examined env node block below examined ∧
      LaterChecks env examined block checkpoint ∧
      (HasState env examined block ∨ Verified env examined block checkpoint) := by
  cases depth with
  | zero => cases htrue
  | succ depth =>
    unfold handleAlternativeBlock at htrue hparent
    cases heval : evaluate env node block checkpoint with
    | error result =>
      rw [heval] at htrue hparent
      dsimp only at htrue hparent
      exfalso
      rcases evaluate_eq_error heval with hexamine | ⟨_, _, _, _, hstored, _⟩
      · rcases examine_eq_error hexamine with ⟨horphan, _⟩ | ⟨hret, _⟩ | hbuild
        · exact hparent horphan
        · exact hret htrue
        · rcases buildAltChain_eq_error hbuild with ⟨hexit, _⟩ | hexit | ⟨hexit, _⟩
          all_goals
            rw [hexit] at htrue
            cases htrue
      · rcases (examineStored_eq_error hstored).1 with hexit | hexit | hexit
        all_goals
          rw [hexit] at htrue
          cases htrue
    | ok contest =>
      rcases evaluate_eq_ok heval with ⟨below, examined, bei, hexamine, hstored, rfl, hht, rfl, _⟩
      rcases (examineStored_iff hht).mp ⟨_, hstored⟩ with ⟨hlater, hver⟩
      exact ⟨below, examined, examine_eq_ok hexamine, ⟨hlater.hardcoded, hlater.transactions⟩, hver⟩

end

/-! ## A block that is turned down -/

section

variable [DecidableEq P]
  {node node' : Node P S N Blob} {block : Block P} {checkpoint : Option Checkpoint}

/-- A block was turned down for good: nothing is stored, the block is turned down in the
same way when it comes again, and a block on top of it has no parent. -/
structure TurnedDown (env : Environment P S N Blob) (node : Node P S N Blob)
    (block : Block P) (result : AltResult P S N Blob) : Prop where
  altBlocks : result.node.altBlocks = node.altBlocks
  altState : result.node.masterNodes.altState = node.masterNodes.altState
  again : forall depth checkpoint,
    handleAlternativeBlock env (depth + 1) result.node block checkpoint =
      ⟨result.node, result.exit, []⟩
  child : forall depth (child : Block P) checkpoint, child.prevId = env.getBlockHash block ->
      node.altBlocks.find? (env.getBlockHash block) = none ->
        env.blockExists node.main (env.getBlockHash block) = false ->
          handleAlternativeBlock env (depth + 1) result.node child checkpoint =
            ⟨result.node, .orphaned, []⟩

theorem handleAlternativeBlock_of_examine_error (h : examine env node block = .error (exit, node'))
    (depth : Nat) :
    handleAlternativeBlock env (depth + 1) node block checkpoint = ⟨node', exit, []⟩ := by
  have heval : evaluate env node block checkpoint = .error (exit, node') :=
    bind_error.mpr (Or.inl h)
  unfold handleAlternativeBlock
  rw [heval]

omit [DecidableEq P] in
theorem examine_again (hpar : ((node.altBlocks.find? block.prevId).isNone &&
      !env.blockExists node.main block.prevId) = false) :
    examine env (altBasicBlockChecks env node block).2 block = examine env node block := by
  have hpar' : (((altBasicBlockChecks env node block).2.altBlocks.find?
      block.prevId).isNone && !env.blockExists (altBasicBlockChecks env node block).2.main
        block.prevId) = false := by
    rcases altBasicBlockChecks_node env node block with ⟨checkpoints, hnode, _⟩
    rw [hnode]
    exact hpar
  unfold examine
  rw [altBasicBlockChecks_again, hpar, hpar']
  rfl

/-- The stored chain below the block starts on the main chain, above what is immutable. -/
def StoredConnects (env : Environment P S N Blob) (node : Node P S N Blob) (block : Block P) :
    Prop :=
  forall front, (altChainBelow env node block.prevId).head? = some front ->
    Anchored env (altBasicBlockChecks env node block).2 front

theorem turnedDown_of_returned_false {depth : Nat} {result : AltResult P S N Blob}
    (hrun : handleAlternativeBlock env depth node block checkpoint = result)
    (hfalse : result.exit.returned = some false) (hconnects : StoredConnects env node block)
    (hfails : ¬ exists below examined, Examined env node block below examined) :
    TurnedDown env node block result := by
  have hexamine : examine env node block = .error (result.exit, result.node) := by
    cases depth with
    | zero =>
      subst hrun
      cases hfalse
    | succ depth =>
      cases hexamine : examine env node block with
      | ok examined => exact absurd ⟨_, _, examine_eq_ok hexamine⟩ hfails
      | error failed =>
        rw [handleAlternativeBlock_of_examine_error hexamine] at hrun
        subst hrun
        rfl
  have hbasic : result.node = (altBasicBlockChecks env node block).2 := by
    rcases examine_eq_error hexamine with ⟨horphan, _⟩ | ⟨_, hnode⟩ | hbuild
    · rw [horphan] at hfalse
      cases hfalse
    · exact hnode
    · rcases buildAltChain_eq_error hbuild with ⟨_, hnode⟩ | hthrew | ⟨_, front, hfront, hnot⟩
      · exact hnode
      · rw [hthrew] at hfalse
        cases hfalse
      · rw [altChainBelow_altBasicBlockChecks] at hfront
        exact absurd (hconnects front hfront) hnot
  rcases altBasicBlockChecks_node env node block with ⟨checkpoints, hnode, _⟩
  have hpar : ((node.altBlocks.find? block.prevId).isNone &&
      !env.blockExists node.main block.prevId) = false := by
    rcases rejectIf_bind_error.mp hexamine with ⟨_, hexit⟩ | ⟨hpar, _⟩
    · have horphan : AltExit.orphaned = result.exit := congrArg Prod.fst hexit
      rw [<- horphan] at hfalse
      cases hfalse
    · exact hpar
  constructor
  · rw [hbasic, hnode]
  · rw [hbasic, hnode]
  · intro depth checkpoint
    refine handleAlternativeBlock_of_examine_error ?_ depth
    rw [hbasic, examine_again hpar, hexamine, hbasic]
  · intro depth child checkpoint hprev haltBlocks hmain
    refine handleAlternativeBlock_of_examine_error
      (rejectIf_bind_error.mpr (Or.inl ⟨?_, rfl⟩)) depth
    rw [hprev, hbasic, hnode]
    dsimp only
    rw [haltBlocks, hmain]
    rfl

end

/-! ## Runs -/

section

variable [DecidableEq P]

/-- The nodes that calls lead to, with all calls that are made on the way. -/
inductive AltRun (env : Environment P S N Blob) (start : Node P S N Blob) :
    List (AltCall P S N Blob) -> Node P S N Blob -> Prop where
  | start : AltRun env start [] start
  | call {calls : List (AltCall P S N Blob)} {node : Node P S N Blob}
      (hrun : AltRun env start calls node) (depth : Nat) (block : Block P)
      (checkpoint : Option Checkpoint) :
      AltRun env start (calls ++ ⟨node, block, checkpoint⟩ ::
        (handleAlternativeBlock env depth node block checkpoint).pushed)
        (handleAlternativeBlock env depth node block checkpoint).node

/-- The hash was stored before, or its block passed all checks in one of the calls. -/
def Accounted (env : Environment P S N Blob) (start : Node P S N Blob)
    (calls : List (AltCall P S N Blob)) (hash : Hash) : Prop :=
  (start.altBlocks.find? hash).isSome = true ∨
    (start.masterNodes.altState.find? hash).isSome = true ∨
    exists call, call ∈ calls ∧ env.getBlockHash call.block = hash ∧ call.PassesAll env

theorem AltRun.vetted {start node : Node P S N Blob} {calls : List (AltCall P S N Blob)}
    (hrun : AltRun env start calls node) (hstart : Vetted good start)
    (hcalls : forall call, call ∈ calls -> Accounts env good call) : Vetted good node := by
  induction hrun with
  | start => exact hstart
  | call _ depth block checkpoint ih =>
    rw [forall_mem_append] at hcalls
    exact handleAlternativeBlock_vets depth _ _ _ (ih hcalls.1) hcalls.2

/-- Over every run in which the blocks that get stored pass the checks after that, all that is
stored has passed all checks.  A block that is accepted has passed them, and one that fails a
check before it is stored leaves no trace. -/
theorem altStore_sound {start node : Node P S N Blob} {calls : List (AltCall P S N Blob)}
    (hrun : AltRun env start calls node) :
    ((forall call, call ∈ calls -> call.IsFit env) -> Vetted (Accounted env start calls) node) ∧
    forall depth block checkpoint,
      ((handleAlternativeBlock env depth node block checkpoint).exit.returned = some true ->
        (handleAlternativeBlock env depth node block checkpoint).exit ≠ .orphaned ->
          exists below examined, Examined env node block below examined ∧
            LaterChecks env examined block checkpoint ∧
            (HasState env examined block ∨ Verified env examined block checkpoint)) ∧
      ((handleAlternativeBlock env depth node block checkpoint).exit.returned = some false ->
        StoredConnects env node block ->
          (¬ exists below examined, Examined env node block below examined) ->
            TurnedDown env node block
              (handleAlternativeBlock env depth node block checkpoint)) := by
  refine ⟨fun hfit => ?_, fun depth block checkpoint => ⟨checks_of_returned_true,
    turnedDown_of_returned_false rfl⟩⟩
  apply hrun.vetted
  · exact ⟨fun _ h => Or.inl h, fun _ h => Or.inr (Or.inl h)⟩
  · intro call hcall
    exact ⟨hfit call hcall, fun hpasses => Or.inr (Or.inr ⟨call, hcall, rfl, hpasses⟩)⟩

end

/-! ## Samples -/

def nothingStored : Node Unit Unit Unit PlainBlob :=
  plainNode [plainBlock 1 0 0, plainBlock 2 1 1, plainBlock 3 2 2] empty

def strictClock : Environment Unit Unit Unit PlainBlob :=
  { plainEnvironment with checkBlockTimestamp := fun _ block => block.nonce != 7 }

def stepClock (node : Node Unit Unit Unit PlainBlob) (block : Block Unit) :
    AltResult Unit Unit Unit PlainBlob :=
  handleAlternativeBlock strictClock 1 node block none

def twoStored : Node Unit Unit Unit PlainBlob :=
  (stepClock (stepClock nothingStored (plainBlock 5 1 1)).node (plainBlock 6 2 5)).node

/-- Two blocks are stored, and a third one on top of them is too early. -/
theorem altStore_sound_strictClock :
    Vetted (Accounted strictClock nothingStored
      [⟨nothingStored, plainBlock 5 1 1, none⟩,
        ⟨(stepClock nothingStored (plainBlock 5 1 1)).node, plainBlock 6 2 5, none⟩]) twoStored ∧
      (stepClock twoStored (plainBlock 7 3 6)).exit = .timestamp ∧
      TurnedDown strictClock twoStored (plainBlock 7 3 6)
        (stepClock twoStored (plainBlock 7 3 6)) := by
  have hrun : AltRun strictClock nothingStored _ twoStored :=
    .call (.call .start 1 (plainBlock 5 1 1) none) 1 (plainBlock 6 2 5) none
  have hsound := altStore_sound hrun
  refine ⟨hsound.1 ?_, rfl, (hsound.2 1 (plainBlock 7 3 6) none).2 rfl ?_ ?_⟩
  · refine forall_mem_cons.mpr ⟨?_, forall_mem_cons.mpr ⟨?_, fun _ hnone => by cases hnone⟩⟩
    all_goals
      intro below examined hexamined
      cases hexamined.node_eq
      exact ⟨⟨fun _ => Or.inl rfl, fun _ hin => by cases hin⟩,
        Or.inr fun _ => ⟨_, rfl, rfl, rfl, rfl⟩⟩
  · intro front hfront
    cases hfront
    exact ⟨by decide, rfl, rfl⟩
  · rintro ⟨below, examined, hexamined⟩
    cases hexamined.timestamp

def strictVerifier : Environment Unit Unit Unit PlainBlob :=
  { plainEnvironment with verifyBlock := fun _ _ block _ _ => block.nonce != 7 }

/-- A block that fails its verification stays stored with its state, and the block on top
of it is accepted. -/
theorem unverifiedBlock_stored :
    let failed := handleAlternativeBlock strictVerifier 1 nothingStored
      (plainBlock 7 1 1) none
    failed.exit = .altBlockHook ∧ failed.exit.returned = some false ∧
      (failed.node.altBlocks.find? ⟨7⟩).isSome = true ∧
      (failed.node.masterNodes.altState.find? ⟨7⟩).isSome = true ∧
      ¬ Accounted strictVerifier nothingStored [⟨nothingStored, plainBlock 7 1 1, none⟩] ⟨7⟩ ∧
      (handleAlternativeBlock strictVerifier 1 failed.node
        (plainBlock 8 2 7) none).exit = .addedAsAlternative := by
  refine ⟨rfl, rfl, rfl, rfl, ?_, rfl⟩
  rintro (hstored | hstored | ⟨call, hcall, _, below, examined, _, _, hver⟩)
  · cases hstored
  · cases hstored
  · cases mem_singleton.mp hcall
    rcases hver (by decide) with ⟨start, _, _, _, hverifies⟩
    cases hverifies

end Beldex.Chain
