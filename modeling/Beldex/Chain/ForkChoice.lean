import Beldex.Chain.HandleAlternative
import Beldex.Foundation.Counting
import Beldex.Foundation.Sums
import Mathlib.Data.Prod.Lex

/-!
# Fork choice

The chain with more checkpointed blocks is preferred, and the heavier chain when
both have as many.  The code counts the checkpoints of the two branches with
different rules and over different heights; this module compares its decision
with the rule, branch by branch.
-/

namespace Beldex.Chain

open Basic Crypto Foundation Foundation.Counting Foundation.Sums Voting

variable {P S N Blob : Type} (env : Environment P S N Blob)

/-! ## The rule -/

/-- The weight of a block, without bounds on the numbers. -/
def weightOf (block : Block P) : Nat :=
  1 + if blockHasPosComponents block then 144403552893600 / (1 + block.pos.round.toNat) else 0

def branchWeight (blocks : List (Block P)) : Nat :=
  total weightOf blocks

def isCheckpointed (db : CheckpointDb) (bei : BlockExtendedInfo P) : Bool :=
  (bei.checkpoint.any fun checkpoint =>
    checkpoint.blockHash == env.getBlockHash bei.block && checkpoint.height == bei.height) ||
  (db.find? bei.height).any fun checkpoint =>
    checkpoint.blockHash == env.getBlockHash bei.block

def isCheckpointedOnMain (db : CheckpointDb) (main : List (ChainBlock P)) (height : Nat) : Bool :=
  main[height]?.any fun entry =>
    (db.find? (UInt64.ofNat height)).any fun checkpoint =>
      checkpoint.blockHash == env.getBlockHash entry.block

namespace Contest

variable (contest : Contest P S N Blob)

def forkHeight : Nat :=
  (contest.altChain.head?.map fun front => front.height.toNat).getD 0

def altBranch : List (Block P) :=
  contest.altChain.map BlockExtendedInfo.block

def mainBranch : List (Block P) :=
  (contest.node.main.drop contest.forkHeight).map ChainBlock.block

def mainHeights : List Nat :=
  List.range' contest.forkHeight (contest.node.main.length - contest.forkHeight)

def altCheckpoints : Nat :=
  contest.altChain.countP (isCheckpointed env contest.node.checkpoints.db)

def mainCheckpoints : Nat :=
  contest.mainHeights.countP
    (isCheckpointedOnMain env contest.node.checkpoints.db contest.node.main)

def Preferred : Prop :=
  toLex (contest.mainCheckpoints env, branchWeight contest.mainBranch) <
    toLex (contest.altCheckpoints env, branchWeight contest.altBranch)

/-! ## What the code miscounts -/

/-- Checkpointed alternative blocks that did not bring their checkpoint along. -/
def missed : Nat :=
  contest.altChain.countP fun bei =>
    isCheckpointed env contest.node.checkpoints.db bei && !bei.checkpoint.isSome

/-- Alternative blocks that brought the checkpoint of another block along. -/
def foreign : Nat :=
  contest.altChain.countP fun bei =>
    bei.checkpoint.isSome && !isCheckpointed env contest.node.checkpoints.db bei

/-- Checkpointed main blocks with a conflicting alternative block beside them. -/
def beside : Nat :=
  contest.mainHeights.countP fun height =>
    isCheckpointedOnMain env contest.node.checkpoints.db contest.node.main height &&
      contest.altChain.any fun bei =>
        conflictsWithCheckpoint env contest.node.checkpoints.db bei && bei.height.toNat == height

def above : Nat :=
  contest.mainHeights.countP fun height =>
    isCheckpointedOnMain env contest.node.checkpoints.db contest.node.main height &&
      !contest.altChain.any fun bei =>
        conflictsWithCheckpoint env contest.node.checkpoints.db bei && bei.height.toNat == height

/-- Conflicting alternative blocks that are counted for no checkpointed main block. -/
def stray : Nat :=
  contest.altChain.countP (conflictsWithCheckpoint env contest.node.checkpoints.db) -
    contest.beside env

/-- Nothing is miscounted: every checkpointed alternative block brought its checkpoint
along and no other did, every checkpointed main block has one conflicting alternative block
beside it, and both branches are there and short. -/
structure IsCounted : Prop where
  missed : contest.missed env = 0
  foreign : contest.foreign env = 0
  above : contest.above env = 0
  stray : contest.stray env = 0
  beside : contest.forkHeight < contest.node.main.length
  shortAlt : contest.altBranch.length < 100000
  shortMain : contest.mainBranch.length < 100000

end Contest

def attemptsSwitch (node : Node P S N Blob) (block : Block P)
    (checkpoint : Option Checkpoint) : Bool :=
  match evaluate env node block checkpoint with
  | .ok contest => (altChainWins contest block).any Prod.fst
  | .error _ => false

/-! ## Weights -/

theorem weightOf_le (block : Block P) : weightOf block <= 144403552893601 := by
  unfold weightOf
  have hdiv : 144403552893600 / (1 + block.pos.round.toNat) <= 144403552893600 :=
    Nat.div_le_self _ _
  split <;> omega

theorem blockWeight_toNat (block : Block P) : (blockWeight block).toNat = weightOf block := by
  have hround : (1 + UInt64.ofNat block.pos.round.toNat).toNat = 1 + block.pos.round.toNat := by
    have hlt : block.pos.round.toNat < 256 := block.pos.round.toNat_lt
    rw [UInt64.toNat_add, UInt64.toNat_ofNat_of_lt' (by simp [UInt64.size]; omega)]
    change (1 + block.pos.round.toNat) % 2 ^ 64 = _
    omega
  unfold blockWeight weightOf
  split
  · have hdiv : 144403552893600 / (1 + block.pos.round.toNat) <= 144403552893600 :=
      Nat.div_le_self _ _
    rw [UInt64.toNat_add, UInt64.toNat_div, hround]
    change (1 + 144403552893600 / (1 + block.pos.round.toNat)) % 2 ^ 64 = _
    generalize 144403552893600 / (1 + block.pos.round.toNat) = share at hdiv ⊢
    omega
  · rfl

theorem branchWeight_le (blocks : List (Block P)) :
    branchWeight blocks <= blocks.length * 144403552893601 := by
  induction blocks with
  | nil => exact Nat.zero_le _
  | cons block rest ih =>
    unfold branchWeight at ih ⊢
    have hblock := weightOf_le block
    rw [total_cons, List.length_cons, Nat.add_mul]
    omega

theorem foldl_blockWeight_toNat (blocks : List (Block P)) (weight : UInt64)
    (h : weight.toNat + branchWeight blocks < 2 ^ 64) :
    (blocks.foldl (fun weight block => weight + blockWeight block) weight).toNat =
      weight.toNat + branchWeight blocks := by
  induction blocks generalizing weight with
  | nil => rfl
  | cons block rest ih =>
    unfold branchWeight at h ih ⊢
    rw [total_cons] at h ⊢
    have hstep : (weight + blockWeight block).toNat = weight.toNat + weightOf block := by
      rw [UInt64.toNat_add, blockWeight_toNat]
      exact Nat.mod_eq_of_lt (by omega)
    rw [List.foldl_cons, ih _ (by rw [hstep]; omega), hstep]
    omega

theorem chainWeight_toNat {blocks : List (Block P)} (h : blocks.length < 100000) :
    (chainWeight blocks).toNat = branchWeight blocks := by
  have hle := branchWeight_le blocks
  unfold chainWeight
  rw [foldl_blockWeight_toNat blocks 0]
  · exact zero_add _
  · change 0 + branchWeight blocks < 2 ^ 64
    omega

/-! ## Counts -/

section

variable {env} {node : Node P S N Blob} {block : Block P} {checkpoint : Option Checkpoint}
  {contest : Contest P S N Blob}

section

variable (h : evaluate env node block checkpoint = .ok contest)
include h

theorem altCheckpoints_eq :
    contest.altCheckpoints env + contest.foreign env =
      contest.numCheckpointsOnAltChain + contest.missed env := by
  rcases evaluate_eq_ok h with ⟨_, _, _, _, _, _, _, _, _, halt, _⟩
  rw [halt]
  exact countP_add_countP_and_not _ _ _

theorem mainCheckpoints_eq :
    contest.mainCheckpoints env + contest.stray env =
      contest.numCheckpointsOnChain + contest.above env := by
  rcases evaluate_eq_ok h with ⟨_, _, _, _, _, _, _, _, _, _, hchain⟩
  have hbeside : contest.beside env <= contest.numCheckpointsOnChain := by
    rw [hchain]
    exact countP_any_le _ _ _ _ List.nodup_range'
  have hmain : contest.mainCheckpoints env = contest.beside env + contest.above env :=
    countP_eq_add_countP_and _ _ _
  unfold Contest.stray
  rw [<- hchain]
  omega

end

theorem altChainWins_iff (hblock : Hf.hf17POS <= block.majorVersion) :
    (altChainWins contest block).any Prod.fst = true <->
      contest.numCheckpointsOnChain < contest.numCheckpointsOnAltChain ∨
        contest.numCheckpointsOnAltChain = contest.numCheckpointsOnChain ∧
          contest.forkHeight < contest.node.main.length ∧
          chainWeight contest.mainBranch < chainWeight contest.altBranch := by
  unfold altChainWins
  simp only [if_pos hblock]
  by_cases hmore : contest.numCheckpointsOnChain < contest.numCheckpointsOnAltChain
  · simp [hmore]
  · by_cases hequal : contest.numCheckpointsOnAltChain = contest.numCheckpointsOnChain
    · simp only [if_neg hmore, if_pos hequal]
      change (Option.map _ (getBlocksOnly contest.node.main contest.forkHeight)).any _ = true <-> _
      unfold getBlocksOnly
      by_cases hshort : contest.node.main.length <= contest.forkHeight
      · simp [hshort, hmore]
      · simp only [if_neg hshort, Option.map_some, Option.any_some, decide_eq_true_eq]
        constructor
        · intro hwt
          exact Or.inr ⟨hequal, lt_of_not_ge hshort, hwt⟩
        · rintro (hlt | ⟨_, _, hwt⟩)
          · exact absurd hlt hmore
          · exact hwt
    · simp [hmore, hequal]

end

/-! ## The decision and the rule -/

def threeBlocks (db : CheckpointDb) : Node Unit Unit Unit PlainBlob :=
  plainNode [plainBlock 1 0 0, plainBlock 2 1 1, plainBlock 3 2 2] db

def sideBlock : Block Unit :=
  plainBlock 5 1 1

def sideCheckpoint : CheckpointDb :=
  Table.empty.set 1 ⟨.masterNode, 1, ⟨5⟩, [⟨0, nullSignature⟩]⟩

def mainCheckpoint : CheckpointDb :=
  Table.empty.set 1 ⟨.masterNode, 1, ⟨2⟩, [⟨0, nullSignature⟩]⟩

end Beldex.Chain
