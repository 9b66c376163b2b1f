import Beldex.Chain.MainChain
import Beldex.Chain.StateHistory
import Beldex.NodeList.BlockSteps

/-!
# The master node list through a reorganization

A state change names the height of the quorum that voted for it, which is looked up
in the history and in the archive of the list.  Only quorums of the last blocks can
vote, so that a list that lost the older part of its history on an abandoned chain
goes on as one that never saw that chain.
-/

namespace Beldex.NodeList

open Basic Chain Crypto Foundation Foundation.Fallible Outputs Token Voting

variable {P σ N Blob : Type}

/-! ## The quorums of a list -/

def quorumSource (list : MasterNodeList Nodes) : QuorumSource where
  stored := fun height =>
    ((list.stateHistory.find? height.toNat).or (list.stateArchive.find? height.toNat)).map
      fun state => state.nodes.quorums
  alternative := []

def Follows (env : Environment P Nodes N Blob) (O : ListOracles P σ) : Prop :=
  forall list block, env.updateFromBlock list list.state block =
    (updateFromBlock O (quorumSource list) (list.state.height + 1) block
      (block.txHashes.map env.transaction) list.state.nodes, true)

variable {stateChange : StateChange} (O : ListOracles P σ)

theorem isAccepted_verifyTxStateChange_of_tooOld {latestHeight : UInt64}
    (hold : stateChange.blockHeight.toNat + voteLifetime.toNat <= latestHeight.toNat)
    (quorum : Quorum) (hf : Hf) :
    isAccepted (verifyTxStateChange O stateChange latestHeight quorum hf) = false := by
  have hsum : stateChange.blockHeight + stateChangeTxLifetimeInBlocks <= latestHeight := by
    rw [UInt64.le_iff_toNat_le, UInt64.toNat_add]
    exact (Nat.mod_le _ _).trans hold
  cases hver : verifyTxStateChange O stateChange latestHeight quorum hf with
  | error e => rfl
  | ok u =>
    unfold verifyTxStateChange at hver
    simp only [rejectIf_bind_ok, decide_eq_false_iff_not] at hver
    exact absurd hsum hver.2.2.2.2.2.1

variable {source : QuorumSource} {ctx : BlockContext}

theorem validatingQuorum_eq_none (halt : source.alternative = [])
    (hold : stateChange.blockHeight.toNat + voteLifetime.toNat <= ctx.blockHeight.toNat) :
    validatingQuorum O source ctx stateChange = none := by
  unfold validatingQuorum
  simp only [isAccepted_verifyTxStateChange_of_tooOld O hold, halt]
  cases source.stored stateChange.blockHeight with
  | none => rfl
  | some quorums =>
    simp

variable {source' : QuorumSource}

/-! ## Going on after a reorganization -/

/-- How many blocks the chain that is given up may have, so that no vote on a block of
the other chain needs a state that was culled. -/
def maxForgottenBlocks : Nat :=
  6 * voteLifetime.toNat - voteLifetime.toNat + 1

section GoingOn

variable {env : Environment P Nodes N Blob} {O : ListOracles P σ}

variable (env) in
theorem state_processBlock (list : MasterNodeList Nodes) (block : Block P) :
    (list.processBlock env block).1.state =
      { height := list.state.height + 1
        blockHash := env.getBlockHash block
        onlyLoadedQuorums := list.state.onlyLoadedQuorums
        nodes := (list.processBlock env block).1.state.nodes } :=
  rfl

theorem nodes_processBlock (hfollows : Follows env O) (list : MasterNodeList Nodes)
    (block : Block P) :
    (list.processBlock env block).1.state.nodes =
      updateFromBlock O (quorumSource (list.processBlock env block).1) (list.state.height + 1)
        block (block.txHashes.map env.transaction) list.state.nodes :=
  -- the block sees the history after culling, with the state before it
  congrArg Prod.fst (hfollows { (list.processBlock env block).1 with state := list.state } block)

variable {bound : Nat} {behind list : MasterNodeList Nodes}

section

variable (hfollows : Follows env O) (hlist : Ordered list) (h : Trails env bound list behind)
  (hbound : bound <= list.state.height)
include hfollows hlist h hbound

theorem state_processBlock_of_trails
    {block : Block P}
    (hblock : (getBlockHeight block).toNat = list.state.height + 1)
    (hold : forall r, shortTermStateCullHeight (list.state.height + 1) < r -> r < bound ->
      r + voteLifetime.toNat <= list.state.height + 1) :
    (behind.processBlock env block).1.state = (list.processBlock env block).1.state := by
  have hstored : forall r : UInt64,
      (quorumSource (behind.processBlock env block).1).stored r =
        (quorumSource (list.processBlock env block).1).stored r ∨
      r.toNat + voteLifetime.toNat <= (blockContext block).blockHeight.toNat := by
    intro r
    have hctx : (blockContext block).blockHeight.toNat = list.state.height + 1 := hblock
    unfold quorumSource
    simp only [find?_history_processBlock, (h.ordered hlist).find?_archive_processBlock,
      hlist.find?_archive_processBlock, cullHeightOf, hblock, hctx, h.state]
    by_cases hr : bound <= r.toNat
    · rw [h.history _ hr, h.archive _ hr]
      exact Or.inl rfl
    · have hne : ¬ r.toNat = list.state.height := by
        omega
      rw [h.lost _ (by omega), h.archive_lost _ (by omega), if_neg hne]
      by_cases hkept : shortTermStateCullHeight (list.state.height + 1) < r.toNat
      · exact Or.inr (hold _ hkept (by omega))
      · -- the state is culled in both lists
        simp only [if_neg hkept, if_pos (not_lt.mp hkept), Option.bind_none, Option.or_none,
          Option.none_or, true_or]
  have hnodes : (behind.processBlock env block).1.state.nodes =
      (list.processBlock env block).1.state.nodes := by
    rw [nodes_processBlock hfollows, nodes_processBlock hfollows, h.state]
    have hquorum : validatingQuorum O (quorumSource (behind.processBlock env block).1)
        (blockContext block) = validatingQuorum O (quorumSource (list.processBlock env block).1)
          (blockContext block) := by
      funext stateChange
      rcases hstored stateChange.blockHeight with hsame | hold
      · unfold validatingQuorum
        rw [hsame]
        rfl
      · rw [validatingQuorum_eq_none O rfl hold, validatingQuorum_eq_none O rfl hold]
    unfold updateFromBlock processTx processStateChangeTx stateChangeTarget
    simp only [hquorum]
  rw [state_processBlock, state_processBlock env list, hnodes, h.state]

theorem state_processBlocks_of_trails
        (hold : forall r, 0 < r -> r < bound -> r + voteLifetime.toNat <= list.state.height + 1)
    {blocks : List (Block P)} (hblocks : OnTop list.state.height blocks) :
    (processBlocks env behind blocks).state = (processBlocks env list blocks).state := by
  induction blocks generalizing list behind with
  | nil => exact h.state
  | cons block rest ih =>
    have hst : (behind.processBlock env block).1.state = (list.processBlock env block).1.state :=
      state_processBlock_of_trails hfollows hlist h hbound hblocks.1.1
        fun r hkept hr => hold r (Nat.zero_lt_of_lt hkept) hr
    have hht : (list.processBlock env block).1.state.height = list.state.height + 1 := rfl
    refine ih (hlist.processBlock block) (h.processBlock hlist hbound hst) ?_ ?_ ?_
    · rw [hht]
      omega
    · intro r hpos hr
      have := hold r hpos hr
      rw [hht]
      omega
    · rw [hht]
      exact hblocks.2

end

/-! ## The round trip -/

/-- The states of the main chain after blocks that were given up: the state at the fork is
the one before them, the history is the one before them without what they culled, and as
long as they were not too many every other chain leads to the same states. -/
theorem reorg_restores (hfollows : Follows env O) {list : MasterNodeList Nodes}
    (hlist : ReachableList env list) {blocks : List (Block P)}
    (hblocks : OnTop list.state.height blocks) (main : List (ChainBlock P))
    {state : MasterNodeState Nodes}
    (hfork : (processBlocks env list blocks).stateHistory.find? list.state.height = some state)
    (hloaded : state.onlyLoadedQuorums = false) : let detached :=
      (processBlocks env list blocks).blockchainDetached env main (list.state.height + 1)
    detached.state = list.state ∧
      (forall h, detached.stateHistory.find? h =
        if shortTermStateCullHeight (list.state.height + blocks.length) < h then
          list.stateHistory.find? h else none) ∧
      (blocks.length <= maxForgottenBlocks ->
        forall alternative, OnTop list.state.height alternative ->
          (processBlocks env detached alternative).state =
            (processBlocks env list alternative).state) := by
  have hordered := hlist.ordered
  have hne : blocks ≠ [] := by
    rintro rfl
    have hnone := hordered.find?_history_eq_none (le_refl list.state.height)
    exact Option.some_ne_none state (hfork.symm.trans hnone)
  have hgrown : Grown env _ list (processBlocks env list blocks) :=
    hordered.grown_processBlocks hne hblocks
  have htrails := hgrown.blockchainDetached hordered main hfork hloaded
  intro detached
  refine ⟨htrails.state, ?_, ?_⟩
  · intro h
    split
    · exact htrails.history h (by omega)
    · by_cases hlow : h < list.state.height
      · exact htrails.lost h (by omega)
      · exact (htrails.history h (by omega)).trans (hordered.find?_history_eq_none (by omega))
  · intro hshort alternative halternative
    refine state_processBlocks_of_trails hfollows hordered htrails (Nat.min_le_right _ _) ?_
      halternative
    intro r hpos hr
    have hwindow : maxForgottenBlocks + voteLifetime.toNat = 6 * voteLifetime.toNat + 1 := by
      decide
    unfold shortTermStateCullHeight at hr
    omega

end GoingOn

/-! ## A reorganization that shortens the history -/

/-- A node whose master node list starts empty at the genesis block. -/
def listEnvironment : Environment Int Nodes Unit PlainBlob :=
  { passingEnvironment 0 openNodes with
    transaction := fun _ => stakeFive
    networkVersion := fun _ => .hf22PrivacyTokens
    updateFromBlock := fun list state block =>
      (updateFromBlock stakeOracles (quorumSource list) (state.height + 1) block
        (block.txHashes.map fun _ => stakeFive) state.nodes, true)
    stripNodes := fun nodes => ⟨Table.empty, [], nodes.quorums⟩ }

theorem follows_listEnvironment : Follows listEnvironment stakeOracles :=
  fun _ _ => rfl

def blockAt (height : Nat) : Block P :=
  { emptyBlock P with
    majorVersion := .hf22PrivacyTokens
    minorVersion := 22
    minerTx := { Transaction.setNull P with vin := [.gen (UInt64.ofNat height)] } }

def blocksAfter : Nat -> Nat -> List (Block P)
  | _, 0 => []
  | height, count + 1 => blockAt (height + 1) :: blocksAfter (height + 1) count

theorem length_blocksAfter (height count : Nat) :
    (blocksAfter height count : List (Block P)).length = count := by
  induction count generalizing height with
  | zero => rfl
  | succ count ih => rw [blocksAfter, List.length_cons, ih]

variable {height : Nat}

theorem getBlockHeight_blockAt (h : height < 2 ^ 64) :
    (getBlockHeight (blockAt height : Block P)).toNat = height :=
  UInt64.toNat_ofNat_of_lt' h

theorem onTop_blocksAfter {count : Nat} (h : height + count < 2 ^ 64) :
    OnTop height (blocksAfter height count : List (Block P)) := by
  induction count generalizing height with
  | zero => exact True.intro
  | succ count ih =>
    have hversion : Hf.hf9MasterNodes <= Hf.hf22PrivacyTokens := by
      decide
    exact ⟨⟨getBlockHeight_blockAt (by omega), hversion⟩, ih (by omega)⟩

def emptyList : MasterNodeList Nodes :=
  initMasterNodeList listEnvironment []

theorem reachableList_emptyList : ReachableList listEnvironment emptyList := by
  refine ReachableList.start [] ⟨?_, ?_⟩
  · intro h state hfind
    cases hfind
  · intro h state hfind
    cases hfind

def firstList : MasterNodeList Nodes :=
  (emptyList.processBlock listEnvironment (blockAt 1)).1

theorem reachableList_firstList : ReachableList listEnvironment firstList :=
  reachableList_emptyList.processed _

def stakingBlock : Block Int :=
  { blockAt 2 with txHashes := [⟨5⟩] }

/-- A stake is given up with the two blocks on top of it. -/
theorem reorg_restores_stakingBlock :
    let stakes := processBlocks listEnvironment firstList (stakingBlock :: blocksAfter 2 2)
    let detached := stakes.blockchainDetached listEnvironment [] 2
    (stakes.state.nodes.masterNodesInfos.find? ⟨7⟩).map (fun info => info.totalContributed) =
        some 2500000000000 ∧
      detached.state = firstList.state ∧
      (processBlocks listEnvironment detached (blocksAfter 1 4)).state =
        (processBlocks listEnvironment firstList (blocksAfter 1 4)).state := by
  have htop : OnTop 1 (stakingBlock :: blocksAfter 2 2) :=
    ⟨⟨rfl, by decide⟩, onTop_blocksAfter (by decide)⟩
  have hfork : (processBlocks listEnvironment firstList
      (stakingBlock :: blocksAfter 2 2)).stateHistory.find? 1 = some firstList.state := rfl
  have hrestores := reorg_restores follows_listEnvironment reachableList_firstList htop [] hfork rfl
  exact ⟨rfl, hrestores.1, hrestores.2.2 (by decide) _ (onTop_blocksAfter (by decide))⟩

variable {env : Environment P Nodes N Blob}

theorem onlyLoadedQuorums_processBlocks
    (list : MasterNodeList Nodes) (blocks : List (Block P)) :
    (processBlocks env list blocks).state.onlyLoadedQuorums = list.state.onlyLoadedQuorums := by
  induction blocks generalizing list with
  | nil => rfl
  | cons block rest ih => exact ih (list.processBlock env block).1

def fullList : MasterNodeList Nodes :=
  processBlocks listEnvironment firstList (blocksAfter 1 1439)

theorem reachableList_processBlocks
    {list : MasterNodeList Nodes} (h : ReachableList env list) (blocks : List (Block P)) :
    ReachableList env (processBlocks env list blocks) := by
  induction blocks generalizing list with
  | nil => exact h
  | cons block rest ih => exact ih (h.processed block)

theorem reachableList_fullList : ReachableList listEnvironment fullList :=
  reachableList_processBlocks reachableList_firstList _

theorem height_fullList : fullList.state.height = 1440 := by
  unfold fullList
  rw [height_processBlocks, length_blocksAfter]
  rfl

theorem isSome_find?_fullList : (fullList.stateHistory.find? 1).isSome := by
  have hne : (blocksAfter 1 1439 : List (Block Int)) ≠ [] := List.cons_ne_nil _ _
  have htop : OnTop firstList.state.height (blocksAfter 1 1439 : List (Block Int)) :=
    onTop_blocksAfter (by decide)
  have hgrown : Grown listEnvironment _ _ fullList :=
    reachableList_firstList.ordered.grown_processBlocks hne htop
  rcases hgrown.fork with hfork | ⟨hculled, _⟩
  · exact Option.isSome_of_eq_some hfork
  · rw [length_blocksAfter] at hculled
    exact absurd hculled (by decide)

/-- One more block culls the first state, and giving that block up does not bring it back. -/
theorem reorg_loses_history :
    ReachableList listEnvironment fullList ∧ Follows listEnvironment stakeOracles ∧
      OnTop fullList.state.height [(blockAt 1441 : Block Int)] ∧
      (exists state, (processBlocks listEnvironment fullList
          [blockAt 1441]).stateHistory.find? fullList.state.height = some state ∧
        state.onlyLoadedQuorums = false) ∧
      (fullList.stateHistory.find? 1).isSome ∧
      ((processBlocks listEnvironment fullList [blockAt 1441]).blockchainDetached listEnvironment
        [] (fullList.state.height + 1)).stateHistory.find? 1 = none := by
  have hblocks : [(blockAt 1441 : Block Int)] = blocksAfter 1440 1 := rfl
  rw [hblocks]
  have htop : OnTop fullList.state.height (blocksAfter 1440 1 : List (Block Int)) := by
    rw [height_fullList]
    exact onTop_blocksAfter (by decide)
  have hgrown : Grown listEnvironment _ fullList
      (processBlocks listEnvironment fullList (blocksAfter 1440 1)) :=
    reachableList_fullList.ordered.grown_processBlocks (List.cons_ne_nil _ _) htop
  have hfork : (processBlocks listEnvironment fullList
      (blocksAfter 1440 1)).stateHistory.find? fullList.state.height = some fullList.state := by
    rcases hgrown.fork with hfork | ⟨hculled, _⟩
    · exact hfork
    · rw [height_fullList, length_blocksAfter] at hculled
      exact absurd hculled (by decide)
  have hloaded : fullList.state.onlyLoadedQuorums = false := by
    unfold fullList
    rw [onlyLoadedQuorums_processBlocks]
    rfl
  have htrails := hgrown.blockchainDetached reachableList_fullList.ordered [] hfork hloaded
  refine ⟨reachableList_fullList, follows_listEnvironment, htop, ⟨_, hfork, hloaded⟩,
    isSome_find?_fullList, htrails.lost 1 ?_⟩
  rw [height_fullList, length_blocksAfter]
  decide

end Beldex.NodeList
