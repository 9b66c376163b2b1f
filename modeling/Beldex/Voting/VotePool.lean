import Beldex.Foundation.Fallible
import Beldex.Voting.Checkpoint

/-!
# The vote pool

Master nodes vote on the state of other nodes and on checkpoints.  `handleVote`
verifies a vote, keeps it in the pool with the votes on the same matter, and
writes a checkpoint once there are enough votes for its hash.
-/

namespace Beldex.Voting

open Basic Crypto Foundation Foundation.Fallible Foundation.Ranked

/-! ## Votes -/

inductive QuorumGroup where
  | invalid
  | validator
  | worker
deriving DecidableEq

inductive NewState where
  | deregister
  | decommission
  | recommission
  | ipChangePenalty
deriving DecidableEq

/-- What a vote is about, for the types of votes that have a content. -/
inductive VoteBody where
  | obligations (workerIndex : UInt16) (state : NewState) (reason : UInt16)
  | checkpointing (blockHash : Hash)
  | flash
  | pos

def VoteBody.type : VoteBody -> QuorumType
  | .obligations _ _ _ => .obligations
  | .checkpointing _ => .checkpointing
  | .flash => .flash
  | .pos => .pos

structure QuorumVote where
  blockHeight : UInt64
  group : QuorumGroup
  indexInGroup : UInt16
  signature : Signature
  body : VoteBody

variable (vote : QuorumVote)

def QuorumVote.rank : Nat :=
  vote.indexInGroup.toNat

def QuorumVote.quorumSignature : QuorumSignature where
  voterIndex := vote.indexInGroup
  signature := vote.signature

/-- Why a vote is not taken; `verificationFailed` marks a height that is far off. -/
inductive VoteRejection where
  | invalidBlockHeight (verificationFailed : Bool)
  | noQuorum
  | incorrectVotingGroup
  | validatorIndexOutOfBounds
  | workerIndexOutOfBounds
  | signatureNotValid
  | unhandledType
  | stateChangeRefused

structure VoteOracles where
  checkSignature : Hash -> PublicKey -> Signature -> Bool
  makeStateChangeVoteHash : UInt64 -> UInt16 -> NewState -> Hash

/-! ## Verifying a vote -/

def voteLifetime : UInt64 := 240

def voteOrTxVerifyHeightBuffer : UInt64 := 5

def verifyVoteAge (latestHeight : UInt64) : Except VoteRejection Unit :=
  if vote.blockHeight + voteLifetime < latestHeight then
    .error (.invalidBlockHeight !(decide
      (latestHeight <= vote.blockHeight + (voteLifetime + voteOrTxVerifyHeightBuffer))))
  else if latestHeight < vote.blockHeight then
    .error (.invalidBlockHeight !(decide
      (vote.blockHeight <= latestHeight + voteOrTxVerifyHeightBuffer)))
  else
    .ok ()

/-- The members of the group of a vote, and the error for an index beyond them. -/
def groupMembers (quorum : Quorum) :
    QuorumGroup -> Except VoteRejection (List PublicKey × VoteRejection)
  | .invalid => .error .incorrectVotingGroup
  | .validator => .ok (quorum.validators, .validatorIndexOutOfBounds)
  | .worker => .ok (quorum.workers, .workerIndexOutOfBounds)

variable (O : VoteOracles)

def signedHash (vote : QuorumVote) (quorum : Quorum) : Except VoteRejection Hash :=
  match vote.body with
  | .obligations workerIndex state _ =>
    if vote.group != .validator then .error .incorrectVotingGroup
    else if quorum.workers.length <= workerIndex.toNat then .error .workerIndexOutOfBounds
    else .ok (O.makeStateChangeVoteHash vote.blockHeight workerIndex state)
  | .checkpointing blockHash =>
    if vote.group != .validator then .error .incorrectVotingGroup else .ok blockHash
  | .flash => .error .unhandledType
  | .pos => .error .unhandledType

def verifyVoteSignature (vote : QuorumVote) (quorum : Quorum) : Except VoteRejection Unit := do
  let (members, outOfBounds) <- groupMembers quorum vote.group
  let key <- orReject members[vote.indexInGroup.toNat]? outOfBounds
  let hash <- signedHash O vote quorum
  rejectIf (!O.checkSignature hash key vote.signature) .signatureNotValid

/-! ## The pool -/

inductive VoteSubject where
  | obligations (height : UInt64) (workerIndex : UInt16) (state : NewState)
  | checkpoint (height : UInt64) (hash : Hash)
deriving DecidableEq

def QuorumVote.subject? : Option VoteSubject :=
  match vote.body with
  | .obligations workerIndex state _ => some (.obligations vote.blockHeight workerIndex state)
  | .checkpointing blockHash => some (.checkpoint vote.blockHeight blockHash)
  | .flash => none
  | .pos => none

def VoteSubject.height : VoteSubject -> UInt64
  | .obligations height _ _ => height
  | .checkpoint height _ => height

/-- The two pools of the node in one, as their subjects never coincide. -/
abbrev VotingPool : Type :=
  Table VoteSubject (List QuorumVote)

def findVotePool (pool : VotingPool) (subject : VoteSubject) : List QuorumVote :=
  (pool.find? subject).getD []

/-- The votes on the subject of a vote, with the vote, unless its voter is there. -/
def addVoteToPoolIfUnique (votes : List QuorumVote) (vote : QuorumVote) :
    Option (List QuorumVote) :=
  insertUnique QuorumVote.rank vote votes

def isExpired (height : UInt64) (subject : VoteSubject) : Bool :=
  let minHeight := if height < voteLifetime then 0 else height - voteLifetime
  decide (subject.height < minHeight) || decide (height < subject.height)

def removeExpiredVotes (pool : VotingPool) (height : UInt64) : VotingPool :=
  pool.restrict fun subject => !isExpired height subject

/-! ## Checkpoint votes -/

/-- The votes and the checkpoints of a node, and what it has written so far, the
latest first. -/
structure QuorumCop where
  pool : VotingPool
  checkpoints : CheckpointDb
  written : List Checkpoint

def updateCheckpoint (cop : QuorumCop) (checkpoint : Checkpoint) : QuorumCop :=
  { cop with
    checkpoints := cop.checkpoints.set checkpoint.height checkpoint.asStored
    written := checkpoint.asStored :: cop.written }

/-- Add the votes of the pool to a stored checkpoint of the same hash. -/
def mergeVotes (checkpoint : Checkpoint) (votes : List QuorumVote) : Option Checkpoint :=
  if checkpoint.signatures.length = checkpointQuorumSize then none
  else
    match mergeUnique QuorumSignature.rank (sortByRank QuorumSignature.rank checkpoint.signatures)
        (votes.map QuorumVote.quorumSignature) with
    | (_, false) => none
    | (signatures, true) => some { checkpoint with signatures := signatures }

def assembleCheckpoint (checkpoints : CheckpointDb) (currentHeight : UInt64)
    (height : UInt64) (blockHash : Hash) (votes : List QuorumVote) : Option Checkpoint :=
  let makeNew : Option Checkpoint :=
    if height < currentHeight then
      some { makeEmptyMasterNodeCheckpoint blockHash height with
        signatures := votes.map QuorumVote.quorumSignature }
    else none
  match checkpoints.find? height with
  | none => makeNew
  | some checkpoint =>
    if checkpoint.blockHash = blockHash then mergeVotes checkpoint votes else makeNew

def handleCheckpointVote (cop : QuorumCop) (currentHeight : UInt64) (height : UInt64)
    (blockHash : Hash) (votes : List QuorumVote) : QuorumCop :=
  if votes.length < checkpointMinVotes then cop
  else
    match assembleCheckpoint cop.checkpoints currentHeight height blockHash votes with
    | none => cop
    | some checkpoint =>
      if checkpoint.height = exemptHeight then cop else updateCheckpoint cop checkpoint

/-! ## One vote -/

structure VoteEnvironment where
  latestHeight : UInt64
  getQuorum : QuorumType -> UInt64 -> Option Quorum
  -- the height when a checkpoint is assembled
  currentHeight : UInt64
  -- whether a state change made of the votes is taken into the pool, or not wanted
  acceptsStateChange : List QuorumVote -> Bool

def verifyVote (env : VoteEnvironment) (vote : QuorumVote) : Except VoteRejection VoteSubject := do
  verifyVoteAge vote env.latestHeight
  let quorum <- orReject (env.getQuorum vote.body.type vote.blockHeight) .noQuorum
  verifyVoteSignature O vote quorum
  orReject vote.subject? .unhandledType

def handleVotesOn (env : VoteEnvironment) (cop : QuorumCop) (votes : List QuorumVote) :
    VoteSubject -> QuorumCop × Except VoteRejection Unit
  | .checkpoint height hash =>
    (handleCheckpointVote cop env.currentHeight height hash votes, .ok ())
  | .obligations _ _ _ =>
    (cop, rejectIf (!env.acceptsStateChange votes) .stateChangeRefused)

/-- A vote that is not unique is taken without effect. -/
def handleVote (env : VoteEnvironment) (cop : QuorumCop) (vote : QuorumVote) :
    QuorumCop × Except VoteRejection Unit :=
  match verifyVote O env vote with
  | .error rejection => (cop, .error rejection)
  | .ok subject =>
    match addVoteToPoolIfUnique (findVotePool cop.pool subject) vote with
    | none => (cop, .ok ())
    | some votes =>
      handleVotesOn env { cop with pool := cop.pool.set subject votes } votes subject

end Beldex.Voting
