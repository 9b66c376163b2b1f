import Beldex.NodeList.UpdateFromBlock
import Beldex.Outputs.RingType
import Beldex.Staking.Funding
import Beldex.Swarm.Conservation

/-!
# Blocks step by step

What the steps of a block do to the nodes of the list.  Most of them leave a view of
every node alone; a transaction stakes, changes the state of a node, unlocks a stake,
or does nothing.
-/

namespace Beldex.NodeList

open Basic Crypto Foundation Foundation.Fallible Outputs Staking Token Table List

variable {P σ : Type}

/-! ## Locked key images -/

def lockedKeyImages (contributors : List Contributor) : List KeyImage :=
  contributors.flatMap fun contributor =>
    contributor.lockedContributions.map Contribution.keyImage

def isKeyImageLocked (infos : MasterNodes) (k : KeyImage) : Option UInt64 :=
  (infos.entries.find? fun entry => (lockedKeyImages entry.2.contributors).contains k).map
    fun entry => entry.2.requestedUnlockHeight

def StakedIn (k : KeyImage) (key : PublicKey) (infos : MasterNodes) : Prop :=
  exists info, infos.find? key = some info ∧ k ∈ lockedKeyImages info.contributors

variable {k : KeyImage} {key : PublicKey} {infos : MasterNodes}

theorem StakedIn.isKeyImageLocked (h : StakedIn k key infos) :
    (isKeyImageLocked infos k).isSome = true := by
  rcases h with ⟨info, hinfo, hk⟩
  unfold NodeList.isKeyImageLocked
  rw [Option.isSome_map, find?_isSome]
  exact ⟨(key, info), infos.mem_of_find?_eq_some hinfo, contains_iff_mem.mpr hk⟩

/-! ## Steps that leave a view of the nodes alone -/

/-- The two lists have the same nodes, as far as a view of a node goes. -/
def SameView {β : Type} (view : MasterNode -> β) (infos infos' : MasterNodes) : Prop :=
  forall key, (infos'.find? key).map view = (infos.find? key).map view

variable {infos' : MasterNodes} {info : MasterNode}

section Views

variable {β : Type} {view : MasterNode -> β}

theorem SameView.refl (infos : MasterNodes) : SameView view infos infos :=
  fun _ => rfl

theorem SameView.trans {infos'' : MasterNodes} (h : SameView view infos infos')
    (h' : SameView view infos' infos'') : SameView view infos infos'' :=
  fun key => (h' key).trans (h key)

theorem sameView_set {info' : MasterNode} (hinfo : infos.find? key = some info)
    (hview : view info' = view info) : SameView view infos (infos.set key info') := by
  intro k
  rw [find?_set]
  split
  next hk =>
    rw [hk, hinfo, Option.map_some, Option.map_some, hview]
  · rfl

theorem sameView_modifyInfo (infos : MasterNodes) (key : PublicKey)
    {f : MasterNode -> MasterNode} (hf : forall info, view (f info) = view info) :
    SameView view infos (modifyInfo infos key f) := by
  unfold modifyInfo
  cases hinfo : infos.find? key with
  | none => exact SameView.refl infos
  | some info => exact sameView_set hinfo (hf info)

theorem sameView_foldl {ι : Type} {step : MasterNodes -> ι -> MasterNodes}
    (hstep : forall infos i, SameView view infos (step infos i)) (l : List ι)
    (infos : MasterNodes) : SameView view infos (l.foldl step infos) := by
  induction l generalizing infos with
  | nil => exact SameView.refl infos
  | cons i rest ih => exact (hstep infos i).trans (ih (step infos i))

theorem sameView_updatePosQuorum
    (hview : forall info sorter, view { info with posSorter := sorter } = view info)
    (O : ListOracles P σ) (height : Nat) (block : Block P) (nodes : Nodes) :
    SameView view nodes.masterNodesInfos
      (updatePosQuorum O height block nodes).masterNodesInfos := by
  unfold updatePosQuorum
  split
  · simp only
    split
    · refine sameView_foldl (fun infos entry => ?_) _ _
      exact sameView_modifyInfo infos entry.1 fun info => hview info _
    · exact SameView.refl _
  · exact SameView.refl _

theorem sameView_finishBlock
    (hview : forall info swarm, view { info with swarmId := swarm } = view info)
    (O : ListOracles P σ) (height : Nat) (block : Block P) (u : Updating) :
    SameView view u.nodes.masterNodesInfos (finishBlock O height block u).masterNodesInfos := by
  unfold finishBlock
  split
  · refine sameView_foldl (fun infos group => ?_) _ _
    refine sameView_foldl (fun infos key => ?_) _ _
    exact sameView_modifyInfo infos key fun info => hview info _
  · exact SameView.refl _

end Views

/-! ## Transactions -/

variable {ctx : BlockContext} {index : UInt32} {O : ListOracles P σ} {tx : Transaction P}
  {result : MasterNodes × Bool}

theorem contributed_eq_ok (h : contributed O ctx index tx infos = .ok result) :
    exists stake info next, txGetStakingComponentsAndAmounts O.toStakingOracles O.nettype ctx.hf tx
        (O.listExtra ctx.hf tx).toStakingExtra ctx.blockHeight = some stake ∧
      infos.find? stake.masterNodePubkey = some info ∧
      applyContribution ctx.hf ctx.blockHeight index (O.listExtra ctx.hf tx).toStakingExtra
        info.toMasterNodeInfo stake = .ok next ∧
      result.1 = infos.set stake.masterNodePubkey { info with toMasterNodeInfo := next } := by
  rcases orReject_bind_ok.mp h with ⟨stake, hstake, h⟩
  rcases orReject_bind_ok.mp h with ⟨info, hinfo, h⟩
  rcases bind_ok.mp h with ⟨next, hnext, hres⟩
  cases hres
  exact ⟨stake, info, next, hstake, hinfo, hnext, rfl⟩

variable {source : QuorumSource} {stateChange : StateChange}

theorem stateChangeTarget_find?
    (h : stateChangeTarget O source ctx tx infos = some (stateChange, key, info)) :
    infos.find? key = some info := by
  unfold stateChangeTarget at h
  simp only [Option.bind_eq_bind, Option.bind_eq_some_iff] at h
  rcases h with ⟨_, _, _, _, key', _, info', hinfo, h⟩
  cases h
  exact hinfo

variable {next nodes : Nodes}

/-- A state change deregisters its target or changes the record of it. -/
theorem processStateChangeTx_eq_some (h : processStateChangeTx O source ctx tx nodes = some next) :
    exists stateChange target info,
      stateChangeTarget O source ctx tx nodes.masterNodesInfos = some (stateChange, target, info) ∧
      (stateChange.state = .deregister ∧ next = deregister O.nettype ctx target info nodes ∨
        exists changed, changedInfo ctx stateChange info = some changed ∧
          next = { nodes with masterNodesInfos := nodes.masterNodesInfos.set target changed }) := by
  unfold processStateChangeTx at h
  simp only [Option.bind_eq_bind, Option.bind_eq_some_iff] at h
  rcases h with ⟨⟨stateChange, target, info⟩, htarget, h⟩
  refine ⟨stateChange, target, info, htarget, ?_⟩
  split at h
  next hst =>
    exact .inl ⟨hst, (Option.some.inj h).symm⟩
  · rcases Option.bind_eq_some_iff.mp h with ⟨changed, hchg, h⟩
    exact .inr ⟨changed, hchg, (Option.some.inj h).symm⟩

theorem processKeyImageUnlockTx_eq_some {next : MasterNodes}
    (h : processKeyImageUnlockTx O ctx tx infos = some next) :
    exists target info unlockHeight, infos.find? target = some info ∧
      next = infos.set target { info with requestedUnlockHeight := unlockHeight } := by
  unfold processKeyImageUnlockTx at h
  simp only [Option.bind_eq_bind, Option.bind_eq_some_iff] at h
  rcases h with ⟨target, _, info, hinfo, h⟩
  split at h
  · cases h
  · simp only [Option.bind_eq_some_iff] at h
    rcases h with ⟨unlock, _, contribution, _, h⟩
    split at h
    · cases h
    · split at h
      · exact ⟨target, info, _, hinfo, (Option.some.inj h).symm⟩
      · cases h

inductive Processed (O : ListOracles P σ) (source : QuorumSource) (ctx : BlockContext)
    (nodes : Nodes) (entry : Transaction P × Nat) : Nodes -> Prop where
  | staking :
      entry.1.type = stakingTxType ctx.hf -> Processed O source ctx nodes entry { nodes with
        masterNodesInfos :=
          (processStakingTx O ctx (UInt32.ofNat entry.2) entry.1 nodes.masterNodesInfos).1 }
  | stateChange {next : Nodes} :
      entry.1.type = .stateChange -> processStateChangeTx O source ctx entry.1 nodes = some next ->
      Processed O source ctx nodes entry next
  | unlock {infos : MasterNodes} :
      processKeyImageUnlockTx O ctx entry.1 nodes.masterNodesInfos = some infos ->
      Processed O source ctx nodes entry { nodes with masterNodesInfos := infos }
  | nothing : Processed O source ctx nodes entry nodes

theorem processTx_processed (O : ListOracles P σ) (source : QuorumSource) (ctx : BlockContext)
    (u : Updating) (entry : Transaction P × Nat) :
    Processed O source ctx u.nodes entry (processTx O source ctx u entry).nodes := by
  unfold processTx
  simp only
  split
  next htype =>
    exact .staking htype
  · split
    next htype =>
      cases hchange : processStateChangeTx O source ctx entry.1 u.nodes with
      | none => exact .nothing
      | some next => exact .stateChange htype hchange
    · split
      · cases hunlock : processKeyImageUnlockTx O ctx entry.1 u.nodes.masterNodesInfos with
        | none => exact .nothing
        | some infos => exact .unlock hunlock
      · exact .nothing

/-! ## Runs -/

structure BlockStep (P : Type) where
  block : Block P
  txs : List (Transaction P)
  source : QuorumSource

def BlockStep.apply (O : ListOracles P σ) (height : Nat) (step : BlockStep P) (nodes : Nodes) :
    Nodes :=
  updateFromBlock O step.source height step.block step.txs nodes

def runBlocks (O : ListOracles P σ) : Nat -> Nodes -> List (BlockStep P) -> Nodes
  | _, nodes, [] => nodes
  | height, nodes, step :: rest =>
    runBlocks O (height + 1) (step.apply O (height + 1) nodes) rest

/-! ## Samples -/

/-- Every output pays the fee of its transaction to the address it is decoded with, and the
extra section is that of the sample contributor number five. -/
def stakeOracles : ListOracles Int Unit where
  toRegistrationOracles := payingOracles
  nettype := .mainnet
  listExtra := fun _ _ =>
    { extraOf 5 with masterNodeRegister := none, stateChange := none, keyImageUnlock := none }
  makeStateChangeVoteHash := fun _ _ _ => nullHash
  generateRequestStakeUnlockHash := fun _ => nullHash
  getBlockHash := fun _ => nullHash
  getBlockFromHeight := fun _ => none
  getPosEntropyForNextBlock := fun _ _ => []
  generatePosQuorum := fun _ _ _ _ _ => ⟨[], []⟩
  generateOtherQuorums := fun _ _ _ _ _ quorums => quorums
  swarmEnv := Swarm.lastDraw
  swarmFuel := 0

def openNode : MasterNode where
  lastRewardBlockHeight := 59000
  lastRewardTransactionIndex := 0
  activeSinceHeight := 0
  contributors := []
  totalContributed := 0
  totalReserved := 0
  stakingRequirement := 10000000000000
  registrationHeight := 59000
  portionsForOperator := 0
  swarmId := unassignedSwarmId
  operatorAddress := sampleAddress 1
  lastIpChangeHeight := 59000
  registrationHfVersion := .hf18Bns

def openNodes : Nodes where
  masterNodesInfos := Table.empty.set ⟨7⟩ openNode
  keyImageBlacklist := []
  quorums := {}

/-- A quarter of the requirement, staked with the native output number five. -/
def stakeFive : Transaction Int :=
  { sampleTx [] [nativeOutput 5]
      { type := .clsag, txnFee := 2500000000000, outPk := [], clsags := [], pseudoOuts := [] } with
    type := .stake }

def stakeStep : BlockStep Int where
  block := (sampleEntry 60000 []).block
  txs := [stakeFive]
  source := ⟨fun _ => none, []⟩

end Beldex.NodeList
