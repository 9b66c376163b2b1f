import Beldex.NodeList.StateChange

/-!
# What a block does to the master node list

A block first sends the validators of its POS quorum to the back of their queue,
lets blacklist entries and nodes expire and moves the winner of the reward to the
end of the list.  Then its transactions are processed in order, and the swarms and
quorums follow from the nodes that are active at the end.
-/

namespace Beldex.NodeList

open Basic Crypto Staking Swarm

variable {P σ : Type}

/-! ## Sorted nodes -/

/-- A key read in the order in which its bytes are compared. -/
def keyRank (key : PublicKey) : Nat :=
  (List.range 32).foldl (fun n i => 256 * n + (key.bits.extractLsb' (8 * i) 8).toNat) 0

variable (infos : MasterNodes)

def sortAndFilter (keep : MasterNode -> Bool) : List (PublicKey × MasterNode) :=
  (infos.entries.filter fun entry => keep entry.2).mergeSort fun a b =>
    keyRank a.1 <= keyRank b.1

def activeMasterNodesInfos : List (PublicKey × MasterNode) :=
  sortAndFilter infos isActive

def decommissionedMasterNodesInfos : List (PublicKey × MasterNode) :=
  sortAndFilter infos fun info => isDecommissioned info && info.isFullyFunded

def modifyInfo (key : PublicKey) (f : MasterNode -> MasterNode) : MasterNodes :=
  match infos.find? key with
  | some info => infos.set key (f info)
  | none => infos

/-! ## Before the transactions -/

def sendToBack (height : Nat) (infos : MasterNodes) (validators : List PublicKey) : MasterNodes :=
  (validators.zipIdx).foldl
    (fun infos entry => modifyInfo infos entry.1 fun info =>
      { info with
        posSorter :=
          { lastHeightValidatingInQuorum := UInt64.ofNat height
            quorumIndex := UInt8.ofNat entry.2 } })
    infos

variable (O : ListOracles P σ)

def updatePosQuorum (height : Nat) (block : Block P) (nodes : Nodes) : Nodes :=
  if Hf.hf17POS <= block.majorVersion then
    let entropy := O.getPosEntropyForNextBlock block.prevId block.pos.round
    let quorum := O.generatePosQuorum (getMasterNodeWinnerFromTxExtra block.minerTx)
      block.majorVersion (activeMasterNodesInfos nodes.masterNodesInfos) entropy block.pos.round
    if verifyPosQuorumSizes quorum then
      { nodes with
        masterNodesInfos := sendToBack height nodes.masterNodesInfos quorum.validators
        quorums := { nodes.quorums with pos := some quorum } }
    else
      nodes
  else
    nodes

variable (ctx : BlockContext)

def removeExpiredKeyImages (blacklist : List KeyImageBlacklistEntry) :
    List KeyImageBlacklistEntry :=
  if Hf.hf11InfiniteStaking <= ctx.hf then
    blacklist.filter fun entry => ctx.blockHeight < entry.unlockHeight
  else
    blacklist

def stakingRequirementLockBlocksExcess : UInt64 := 20

def isExpired (nettype : NetworkType) (ctx : BlockContext) (info : MasterNode) : Bool :=
  if Hf.hf11InfiniteStaking <= info.registrationHfVersion then
    info.requestedUnlockHeight != keyImageAwaitingUnlockHeight &&
      decide (info.requestedUnlockHeight < ctx.blockHeight)
  else
    decide (info.registrationHeight + stakingNumLockBlocks nettype ctx.hf +
      stakingRequirementLockBlocksExcess < ctx.blockHeight)

/-- In the first master node fork the nodes that a block registered expire together. -/
def expiredInV9 : List PublicKey :=
  let lockBlocks := stakingNumLockBlocks O.nettype ctx.hf
  if ctx.blockHeight <= lockBlocks then
    []
  else
    let height := ctx.blockHeight - lockBlocks
    match O.getBlockFromHeight height with
    | none => []
    | some (block, txs) =>
      if block.majorVersion < Hf.hf9MasterNodes then
        []
      else
        txs.filterMap fun tx =>
          match isRegistrationTx O.toRegistrationOracles O.nettype Hf.hf9MasterNodes tx
              (O.listExtra Hf.hf9MasterNodes tx).toRegistrationExtra block.timestamp height 0 with
          | .ok (key, _) => some key
          | .error _ => none

def getExpiredNodes (infos : MasterNodes) : List PublicKey :=
  if ctx.hf = Hf.hf9MasterNodes then
    expiredInV9 O ctx
  else
    (infos.entries.filter fun entry => isExpired O.nettype ctx entry.2).map Prod.fst

def expireNodes (expired : List PublicKey) (infos : MasterNodes) : MasterNodes × Bool :=
  (infos.restrict fun key => !expired.contains key,
    infos.entries.any fun entry => expired.contains entry.1 && isActive entry.2)

def advanceWinner (winner : PublicKey) (infos : MasterNodes) : MasterNodes :=
  modifyInfo infos winner fun info =>
    { info with
      lastRewardBlockHeight := ctx.blockHeight
      lastRewardTransactionIndex := 0xffffffff }

def blockContext (block : Block P) : BlockContext where
  hf := block.majorVersion
  timestamp := block.timestamp
  blockHeight := getBlockHeight block

structure Updating where
  nodes : Nodes
  needSwarmUpdate : Bool

def beginBlock (height : Nat) (block : Block P) (nodes : Nodes) : Updating :=
  let ctx := blockContext block
  let nodes := updatePosQuorum O height block { nodes with quorums := {} }
  let (infos, needSwarmUpdate) :=
    expireNodes (getExpiredNodes O ctx nodes.masterNodesInfos) nodes.masterNodesInfos
  { nodes :=
      { nodes with
        keyImageBlacklist := removeExpiredKeyImages ctx nodes.keyImageBlacklist
        masterNodesInfos :=
          advanceWinner ctx (getMasterNodeWinnerFromTxExtra block.minerTx) infos }
    needSwarmUpdate := needSwarmUpdate }

/-! ## The transactions -/

def stakingTxType (hf : Hf) : TxType :=
  if (getMaxTypeForHf hf).toNat < TxType.stake.toNat then .standard else .stake

def orUnchanged {ε α : Type} (a : α) : Except ε α -> α
  | .ok b => b
  | .error _ => a

def registered (index : UInt32) (tx : Transaction P) (infos : MasterNodes) : MasterNodes :=
  orUnchanged infos (processRegistrationTx O.toRegistrationOracles O.nettype ctx.hf tx
    (O.listExtra ctx.hf tx).toRegistrationExtra ctx.timestamp ctx.blockHeight index infos)

def contributed (index : UInt32) (tx : Transaction P) (infos : MasterNodes) :
    Except ContributionRejection (MasterNodes × Bool) :=
  MasterNodes.processContributionTx O.toStakingOracles O.nettype ctx.hf ctx.blockHeight tx
    (O.listExtra ctx.hf tx).toStakingExtra index infos

def processStakingTx (index : UInt32) (tx : Transaction P) (infos : MasterNodes) :
    MasterNodes × Bool :=
  let infos := registered O ctx index tx infos
  orUnchanged (infos, false) (contributed O ctx index tx infos)

def processTx (source : QuorumSource) (ctx : BlockContext) (u : Updating)
    (entry : Transaction P × Nat) : Updating :=
  let tx := entry.1
  if tx.type = stakingTxType ctx.hf then
    let (infos, funded) :=
      processStakingTx O ctx (UInt32.ofNat entry.2) tx u.nodes.masterNodesInfos
    { nodes := { u.nodes with masterNodesInfos := infos }
      needSwarmUpdate := u.needSwarmUpdate || funded }
  else if tx.type = .stateChange then
    match processStateChangeTx O source ctx tx u.nodes with
    | some nodes => { nodes := nodes, needSwarmUpdate := true }
    | none => u
  else if tx.type = .keyImageUnlock then
    match processKeyImageUnlockTx O ctx tx u.nodes.masterNodesInfos with
    | some infos => { u with nodes := { u.nodes with masterNodesInfos := infos } }
    | none => u
  else
    u

/-! ## After the transactions -/

def seedOf (hash : Hash) : UInt64 :=
  UInt64.ofNat (hash.bits.extractLsb' 0 64).toNat

def addToSwarm (swarms : SwarmMnodeMap) (entry : PublicKey × MasterNode) : SwarmMnodeMap :=
  (changeAt swarms entry.2.swarmId (· ++ [entry.1])).getD
    (swarms.emplace ⟨entry.2.swarmId, [entry.1]⟩)

def existingSwarms (active : List (PublicKey × MasterNode)) : SwarmMnodeMap :=
  active.foldl addToSwarm noSwarms

def applySwarms (swarms : SwarmMnodeMap) (infos : MasterNodes) : MasterNodes :=
  swarms.items.foldl
    (fun infos group => group.mnodes.foldl
      (fun infos key => modifyInfo infos key fun info => { info with swarmId := group.swarmId })
      infos)
    infos

def updateSwarms (seed : UInt64) (active : List (PublicKey × MasterNode)) (infos : MasterNodes) :
    MasterNodes :=
  let swarms := existingSwarms active
  applySwarms ((calcSwarmChanges O.swarmEnv seed O.swarmFuel swarms).getD swarms) infos

def finishBlock (height : Nat) (block : Block P) (u : Updating) : Nodes :=
  let active := activeMasterNodesInfos u.nodes.masterNodesInfos
  let blockHash := O.getBlockHash block
  let infos :=
    if u.needSwarmUpdate then
      updateSwarms O (seedOf blockHash) active u.nodes.masterNodesInfos
    else
      u.nodes.masterNodesInfos
  { u.nodes with
    masterNodesInfos := infos
    quorums := O.generateOtherQuorums height blockHash block.majorVersion active
      (decommissionedMasterNodesInfos infos) u.nodes.quorums }

/-! ## The whole block -/

def updateFromBlock (source : QuorumSource) (height : Nat) (block : Block P)
    (txs : List (Transaction P)) (nodes : Nodes) : Nodes :=
  finishBlock O height block
    (txs.zipIdx.foldl (processTx O source (blockContext block)) (beginBlock O height block nodes))

end Beldex.NodeList
