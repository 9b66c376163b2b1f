import Beldex.Staking.Registration
import Beldex.Swarm.Assignment
import Beldex.Voting.VotePool

/-!
# Changes of the state of a master node

A quorum of master nodes can deregister another one, take it out of service for a
while and bring it back; its contributors can ask for the end of their stake.
Both come as transactions without inputs.  The stakes of a deregistered node go to
a blacklist, where they stay for the lock time.
-/

namespace Beldex.NodeList

open Basic Crypto Coinbase Foundation.Fallible Staking Voting

variable {P σ : Type}

/-! ## Records -/

structure QuorumManager where
  obligations : Option Quorum := none
  checkpointing : Option Quorum := none
  flash : Option Quorum := none
  pos : Option Quorum := none

structure KeyImageBlacklistEntry where
  keyImage : KeyImage
  unlockHeight : UInt64
  amount : UInt64

structure Nodes where
  masterNodesInfos : MasterNodes
  keyImageBlacklist : List KeyImageBlacklistEntry
  quorums : QuorumManager

structure StateChangeVote where
  signature : Signature
  validatorIndex : UInt32

structure StateChange where
  state : NewState
  blockHeight : UInt64
  masterNodeIndex : UInt32
  reasonConsensusAll : UInt16
  reasonConsensusAny : UInt16
  votes : List StateChangeVote

structure KeyImageUnlock where
  keyImage : KeyImage
  signature : Signature
  nonce : UInt32

structure ListExtra extends RegistrationExtra where
  stateChange : Option StateChange
  keyImageUnlock : Option KeyImageUnlock

structure BlockContext where
  hf : Hf
  timestamp : UInt64
  blockHeight : UInt64

/-- Cryptography, the database, the parser of extra sections, the generators of quorums and
the random numbers of the swarms. -/
structure ListOracles (P σ : Type) extends RegistrationOracles P where
  nettype : NetworkType
  listExtra : Hf -> Transaction P -> ListExtra
  makeStateChangeVoteHash : UInt64 -> UInt32 -> NewState -> Hash
  generateRequestStakeUnlockHash : UInt32 -> Hash
  getBlockHash : Block P -> Hash
  getBlockFromHeight : UInt64 -> Option (Block P × List (Transaction P))
  getPosEntropyForNextBlock : Hash -> UInt8 -> List Hash
  generatePosQuorum :
    PublicKey -> Hf -> List (PublicKey × MasterNode) -> List Hash -> UInt8 -> Quorum
  /-- The quorums for obligations, checkpoints and flash, from the active nodes and those out
  of service. -/
  generateOtherQuorums :
    Nat -> Hash -> Hf -> List (PublicKey × MasterNode) -> List (PublicKey × MasterNode) ->
      QuorumManager -> QuorumManager
  swarmEnv : Swarm.SwarmEnv σ
  /-- How many rounds the loops over the swarms may take. -/
  swarmFuel : Nat

/-! ## Verifying a state change -/

def stateChangeMinVotesToChangeState : Nat := 7

def stateChangeQuorumSize : Nat := 10

def stateChangeTxLifetimeInBlocks : UInt64 := voteLifetime

inductive StateChangeRejection where
  | notBeforeCheckpointing
  | notEnoughVotes
  | tooManyVotes
  | workerIndexOutOfBounds
  | tooNew
  | tooOld
  | votesNotSorted
  | validatorIndexOutOfBounds
  | validatorIndexOutOfScope
  | duplicateVoters
  | signatureNotValid

structure VoteScan where
  validatorIndexTracker : Int := -1
  validatorSet : List UInt32 := []

variable (O : ListOracles P σ)

def verifyStateChangeVote (hf : Hf) (quorum : Quorum) (hash : Hash) (scan : VoteScan)
    (vote : StateChangeVote) : Except StateChangeRejection VoteScan := do
  let ordered := decide (Hf.hf15Flash <= hf)
  rejectIf (ordered && decide ((vote.validatorIndex.toNat : Int) <= scan.validatorIndexTracker))
    .votesNotSorted
  let key <- orReject quorum.validators[vote.validatorIndex.toNat]? .validatorIndexOutOfBounds
  rejectIf (decide (stateChangeQuorumSize < vote.validatorIndex.toNat)) .validatorIndexOutOfScope
  rejectIf (scan.validatorSet.contains vote.validatorIndex) .duplicateVoters
  rejectIf (!O.checkSignature hash key vote.signature) .signatureNotValid
  .ok
    { validatorIndexTracker :=
        if ordered then vote.validatorIndex.toNat else scan.validatorIndexTracker
      validatorSet := vote.validatorIndex :: scan.validatorSet }

def verifyTxStateChange (stateChange : StateChange) (latestHeight : UInt64) (quorum : Quorum)
    (hf : Hf) : Except StateChangeRejection Unit := do
  rejectIf (stateChange.state != .deregister && decide (hf < Hf.hf13Checkpointing))
    .notBeforeCheckpointing
  rejectIf (decide (stateChange.votes.length < stateChangeMinVotesToChangeState)) .notEnoughVotes
  rejectIf (decide (stateChangeQuorumSize < stateChange.votes.length)) .tooManyVotes
  rejectIf (decide (quorum.workers.length <= stateChange.masterNodeIndex.toNat))
    .workerIndexOutOfBounds
  rejectIf (decide (latestHeight <= stateChange.blockHeight)) .tooNew
  rejectIf (decide (stateChange.blockHeight + stateChangeTxLifetimeInBlocks <= latestHeight))
    .tooOld
  let hash := O.makeStateChangeVoteHash stateChange.blockHeight stateChange.masterNodeIndex
    stateChange.state
  let _ <- run (verifyStateChangeVote O hf quorum hash) {} stateChange.votes
  .ok ()

def isAccepted {ε α : Type} : Except ε α -> Bool
  | .ok _ => true
  | .error _ => false

/-! ## Applying a state change -/

/-- The quorums of the states that a block can see: those of the main chain by their height,
and those of alternative states with their heights. -/
structure QuorumSource where
  stored : UInt64 -> Option QuorumManager
  alternative : List (UInt64 × QuorumManager)

/-- The obligations quorum that validates all votes.  Among the alternative states the last
one of that height decides. -/
def validatingQuorum (source : QuorumSource) (ctx : BlockContext) (stateChange : StateChange) :
    Option Quorum := do
  let verifies := fun quorum : Quorum =>
    isAccepted (verifyTxStateChange O stateChange ctx.blockHeight quorum ctx.hf)
  let quorums <- source.stored stateChange.blockHeight
  let obligations <- quorums.obligations
  if verifies obligations then
    some obligations
  else do
    let last <- (source.alternative.filter fun entry =>
      entry.1 == stateChange.blockHeight).getLast?
    let obligations <- last.2.obligations
    if verifies obligations then some obligations else none

def stateChangeTarget (source : QuorumSource) (ctx : BlockContext) (tx : Transaction P)
    (infos : MasterNodes) : Option (StateChange × PublicKey × MasterNode) := do
  let stateChange <- (O.listExtra ctx.hf tx).stateChange
  let obligations <- validatingQuorum O source ctx stateChange
  let key <- obligations.workers[stateChange.masterNodeIndex.toNat]?
  let info <- infos.find? key
  some (stateChange, key, info)

variable (info : MasterNode)

def isDecommissioned : Bool :=
  decide (info.activeSinceHeight < 0)

def isActive : Bool :=
  info.isFullyFunded && !isDecommissioned info

def decommissionCreditPerDay : Int64 := 96

def decommissionMaxCredit : Int64 := 5760

def calculateDecommissionCredit (currentHeight : UInt64) : Int64 :=
  let blocksUp : Int64 :=
    if !info.isFullyFunded then 0
    else if isDecommissioned info then
      info.lastDecommissionHeight.toInt64 - -info.activeSinceHeight
    else
      currentHeight.toInt64 - info.activeSinceHeight
  -- The division is one of unsigned words.
  let earned : Int64 :=
    if 0 < blocksUp then ((blocksUp * decommissionCreditPerDay).toUInt64 / 2880).toInt64 else 0
  let credit := info.recommissionCredit + earned
  let credit := if decommissionMaxCredit < credit then decommissionMaxCredit else credit
  if isDecommissioned info then
    credit - (currentHeight.toInt64 - info.lastDecommissionHeight.toInt64)
  else
    credit

def recommissionCredit (creditAtDecomm decommBlocks : Int64) : Int64 :=
  let credit := creditAtDecomm - 2 * decommBlocks
  if credit < 0 then 0 else credit

/-- The entries that the stakes of a deregistered node leave on the blacklist. -/
def blacklistEntries (nettype : NetworkType) (ctx : BlockContext) (info : MasterNode) :
    List KeyImageBlacklistEntry :=
  info.contributors.flatMap fun contributor =>
    contributor.lockedContributions.map fun contribution =>
      { keyImage := contribution.keyImage
        unlockHeight := ctx.blockHeight + stakingNumLockBlocks nettype ctx.hf
        amount := contribution.amount }

def erase (infos : MasterNodes) (key : PublicKey) : MasterNodes :=
  infos.restrict fun k => k != key

def deregister (nettype : NetworkType) (ctx : BlockContext) (key : PublicKey)
    (info : MasterNode) (nodes : Nodes) : Nodes :=
  { nodes with
    keyImageBlacklist :=
      if Hf.hf11InfiniteStaking <= ctx.hf then
        nodes.keyImageBlacklist ++ blacklistEntries nettype ctx info
      else
        nodes.keyImageBlacklist
    masterNodesInfos := erase nodes.masterNodesInfos key }

variable (ctx : BlockContext)

def decommissioned (stateChange : StateChange) (info : MasterNode) : Option MasterNode :=
  if ctx.hf < Hf.hf13Checkpointing ∨ isDecommissioned info then
    none
  else
    some { info with
      activeSinceHeight := -info.activeSinceHeight
      lastDecommissionHeight := ctx.blockHeight
      lastDecommissionReasonConsensusAll := stateChange.reasonConsensusAll
      lastDecommissionReasonConsensusAny := stateChange.reasonConsensusAny
      decommissionCount := info.decommissionCount + 1
      swarmId := if Hf.hf15Flash <= ctx.hf then unassignedSwarmId else info.swarmId }

def recommissioned (info : MasterNode) : Option MasterNode :=
  if ctx.hf < Hf.hf13Checkpointing ∨ !isDecommissioned info then
    none
  else
    let creditAtDecomm := calculateDecommissionCredit info info.lastDecommissionHeight
    let decommBlocks := (ctx.blockHeight - info.lastDecommissionHeight).toInt64
    some { info with
      activeSinceHeight := ctx.blockHeight.toInt64
      recommissionCredit := recommissionCredit creditAtDecomm decommBlocks
      lastRewardBlockHeight := ctx.blockHeight
      lastRewardTransactionIndex := 0xffffffff }

def ipChangePenalty (info : MasterNode) : Option MasterNode :=
  if ctx.hf < Hf.hf13Checkpointing ∨ isDecommissioned info then
    none
  else
    some { info with
      lastRewardBlockHeight := ctx.blockHeight
      lastRewardTransactionIndex := 0xffffffff
      lastIpChangeHeight := ctx.blockHeight }

/-- The record of a node after a change of its state other than a deregistration. -/
def changedInfo (stateChange : StateChange) (info : MasterNode) : Option MasterNode :=
  match stateChange.state with
  | .deregister => none
  | .decommission => decommissioned ctx stateChange info
  | .recommission => recommissioned ctx info
  | .ipChangePenalty => ipChangePenalty ctx info

/-- Process a state change; nothing is returned when it has no effect. -/
def processStateChangeTx (source : QuorumSource) (ctx : BlockContext) (tx : Transaction P)
    (nodes : Nodes) : Option Nodes := do
  let (stateChange, key, info) <- stateChangeTarget O source ctx tx nodes.masterNodesInfos
  if stateChange.state = .deregister then
    some (deregister O.nettype ctx key info nodes)
  else do
    let info <- changedInfo ctx stateChange info
    some { nodes with masterNodesInfos := nodes.masterNodesInfos.set key info }

/-! ## Unlocking a stake -/

def keyImageAwaitingUnlockHeight : UInt64 := 0

def smallContributorUnlockTimer : UInt64 := 2880 * 30

def smallContributorThreshold : UInt64 := 2500

def getLockedKeyImageUnlockHeight (nettype : NetworkType) (currHeight : UInt64) (hf : Hf) :
    UInt64 :=
  currHeight + stakingNumLockBlocks nettype hf / 2

def findContribution (keyImage : KeyImage) : Option Contribution :=
  info.contributors.findSome? fun contributor =>
    contributor.lockedContributions.find? fun contribution => contribution.keyImage == keyImage

def processKeyImageUnlockTx (tx : Transaction P) (infos : MasterNodes) : Option MasterNodes := do
  let extra := O.listExtra ctx.hf tx
  let key <- extra.masterNodePubkey
  let info <- infos.find? key
  if info.requestedUnlockHeight ≠ keyImageAwaitingUnlockHeight then
    none
  else do
    let unlock <- extra.keyImageUnlock
    let contribution <- findContribution info unlock.keyImage
    if Hf.hf18Bns <= ctx.hf ∧ contribution.amount < smallContributorThreshold * coin ∧
        ctx.blockHeight - info.registrationHeight < smallContributorUnlockTimer then
      none
    else if O.checkSignature (O.generateRequestStakeUnlockHash unlock.nonce)
        contribution.keyImagePubKey unlock.signature then
      some (infos.set key { info with
        requestedUnlockHeight :=
          getLockedKeyImageUnlockHeight O.nettype ctx.blockHeight ctx.hf })
    else
      none

end Beldex.NodeList
