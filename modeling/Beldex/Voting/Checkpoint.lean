import Beldex.Foundation.Ranked
import Beldex.Foundation.Table
import Beldex.Voting.QuorumIntersection

/-!
# Checkpoints

A checkpoint fixes the block of a height.  It is compiled into the node, or it
carries the signatures of the master nodes of a checkpointing quorum.
-/

namespace Beldex.Voting

open Basic Crypto Foundation Foundation.Ranked List

inductive CheckpointType where
  | hardcoded
  | masterNode
deriving DecidableEq

structure Checkpoint where
  type : CheckpointType
  height : UInt64
  blockHash : Hash
  signatures : List QuorumSignature

/-- The database does not keep the type: what has signatures is read back as a
checkpoint of the master nodes. -/
def Checkpoint.asStored (checkpoint : Checkpoint) : Checkpoint :=
  { checkpoint with
    type := if checkpoint.signatures.isEmpty then .hardcoded else .masterNode }

/-- The stored checkpoints, one for each height, as they are read back. -/
abbrev CheckpointDb : Type :=
  Table UInt64 Checkpoint

def checkpointInterval : UInt64 := 4

/-- The height at which signatures are not insisted on. -/
def exemptHeight : UInt64 := 3126052

def makeEmptyMasterNodeCheckpoint (blockHash : Hash) (height : UInt64) : Checkpoint where
  type := .masterNode
  height := height
  blockHash := blockHash
  signatures := []

def verifyCheckpoint (checkSignature : Hash -> PublicKey -> Signature -> Bool) (hfVersion : Hf)
    (checkpoint : Checkpoint) (quorum : Quorum) : Bool :=
  match checkpoint.type with
  | .masterNode =>
    checkpoint.height % checkpointInterval == 0 && (checkpoint.height == exemptHeight ||
        verifyQuorumSignatures (P := Unit) checkSignature quorum .checkpointing hfVersion
          checkpoint.height checkpoint.blockHash checkpoint.signatures none)
  | .hardcoded => checkpoint.signatures.isEmpty

/-! ## The quorum of a checkpoint -/

def reorgSafetyBufferBlocksPostHf12 : UInt64 := 11

def offsetTestingQuorumHeight (type : QuorumType) (height : UInt64) : UInt64 :=
  match type with
  | .checkpointing =>
    if height < reorgSafetyBufferBlocksPostHf12 then 0
    else height - reorgSafetyBufferBlocksPostHf12
  | _ => height

/-- The checkpointing quorum that is generated with the state of a height, from the
active master nodes in a shuffled order. -/
def generateCheckpointingQuorum (stateHeight : UInt64) (shuffled : List PublicKey) :
    Option Quorum :=
  if (stateHeight + reorgSafetyBufferBlocksPostHf12) % checkpointInterval = 0 then
    some
      { validators :=
          if checkpointQuorumSize <= shuffled.length then shuffled.take checkpointQuorumSize
          else []
        workers := [] }
  else
    none

/-- The checkpointing quorum of a height; `states` are the shuffled master nodes of
the heights whose state is at hand. -/
def getCheckpointingQuorum (states : UInt64 -> Option (List PublicKey)) (height : UInt64) :
    Option Quorum :=
  let stateHeight := offsetTestingQuorumHeight .checkpointing height
  (states stateHeight).bind (generateCheckpointingQuorum stateHeight)

variable {quorum : Quorum}

theorem getCheckpointingQuorum_eq_some {states : UInt64 -> Option (List PublicKey)}
    {height : UInt64} (h : getCheckpointingQuorum states height = some quorum) :
    height % checkpointInterval = 0 ∧ quorum.validators.length <= checkpointQuorumSize := by
  rcases Option.bind_eq_some_iff.mp h with ⟨shuffled, _, hgen⟩
  unfold generateCheckpointingQuorum at hgen
  split at hgen
  next hintv =>
    cases hgen
    constructor
    · unfold offsetTestingQuorumHeight at hintv
      dsimp only at hintv
      split at hintv
      · -- the state of height zero has no checkpointing quorum
        exact absurd hintv (by decide)
      · rwa [UInt64.sub_add_cancel] at hintv
    · split
      · exact length_take_le _ _
      · exact Nat.zero_le _
  · cases hgen

/-! ## Checkpoints that verify -/

def QuorumSignature.rank (signature : QuorumSignature) : Nat :=
  signature.voterIndex.toNat

def SignedBy (checkSignature : Hash -> PublicKey -> Signature -> Bool) (quorum : Quorum)
    (hash : Hash) (signature : QuorumSignature) : Prop :=
  exists key, quorum.validators[signature.voterIndex.toNat]? = some key ∧
    checkSignature hash key signature.signature = true

structure Assembled (checkSignature : Hash -> PublicKey -> Signature -> Bool) (quorum : Quorum)
    (checkpoint : Checkpoint) : Prop where
  masterNode : checkpoint.type = .masterNode
  interval : checkpoint.height % checkpointInterval = 0
  ascending : Ascending QuorumSignature.rank checkpoint.signatures
  enough : checkpointMinVotes <= checkpoint.signatures.length
  bounded : checkpoint.signatures.length <= checkpointQuorumSize
  signed : forall signature, signature ∈ checkpoint.signatures ->
    SignedBy checkSignature quorum checkpoint.blockHash signature

variable {checkpoint : Checkpoint}

theorem asStored_type (h : checkpointMinVotes <= checkpoint.signatures.length) :
    checkpoint.asStored.type = .masterNode := by
  have hne : checkpoint.signatures.isEmpty = false := by
    rw [isEmpty_eq_false_iff_exists_mem]
    exact exists_mem_of_length_pos (lt_of_lt_of_le (by decide) h)
  change (if checkpoint.signatures.isEmpty then CheckpointType.hardcoded
    else CheckpointType.masterNode) = CheckpointType.masterNode
  rw [hne]
  rfl

variable {checkSignature : Hash -> PublicKey -> Signature -> Bool}

theorem Assembled.verifies (h : Assembled checkSignature quorum checkpoint)
    (hsize : quorum.validators.length <= checkpointQuorumSize) (hfVersion : Hf) :
    verifyCheckpoint checkSignature hfVersion checkpoint quorum = true := by
  have hvotes : verifyVotes (P := Unit) (checkSignature checkpoint.blockHash) quorum
      .checkpointing none (enforcesVoteOrdering .checkpointing hfVersion) checkpoint.height []
      checkpoint.signatures = true := by
    apply verifyVotes_of_ascending
    · exact h.ascending.imp fun hlt => UInt16.lt_iff_toNat_lt.mpr hlt
    · intro signature _ voter hvoter
      cases hvoter
    · intro signature hmem
      rcases h.signed signature hmem with ⟨key, hkey, hcheck⟩
      have hindex := (List.getElem?_eq_some_iff.mp hkey).1
      refine ⟨rfl, ?_, key, hkey, hcheck⟩
      have hmax : checkpointQuorumSize <= maxQuorumSize := by decide
      omega
  unfold verifyCheckpoint
  rw [h.masterNode]
  unfold verifyQuorumSignatures signatureListIsAdmissible
  simp [h.interval, hvotes, h.enough, h.bounded]

theorem verifyCheckpoint_signed {hfVersion : Hf} (hht : checkpoint.height ≠ exemptHeight)
    (h : verifyCheckpoint checkSignature hfVersion checkpoint quorum = true) :
    (checkpoint.signatures.map QuorumSignature.rank).Nodup ∧
      (forall signature, signature ∈ checkpoint.signatures ->
        SignedBy checkSignature quorum checkpoint.blockHash signature) := by
  unfold verifyCheckpoint at h
  cases htype : checkpoint.type with
  | hardcoded =>
    rw [htype] at h
    rw [isEmpty_iff.mp h]
    constructor
    · exact nodup_nil
    · intro signature hsig
      cases hsig
  | masterNode =>
    rw [htype] at h
    simp only [Bool.and_eq_true, Bool.or_eq_true, beq_iff_eq, hht, false_or] at h
    have hvotes := (verifyQuorumSignatures_eq_true hht h.2).2
    constructor
    · have hdist := hvotes.distinct.map (f := UInt16.toNat) fun a b hab =>
        UInt16.toNat_inj.mp hab
      rwa [map_map] at hdist
    · exact hvotes.signed

end Beldex.Voting
