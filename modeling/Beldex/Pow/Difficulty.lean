import Beldex.Basic.Config

/-!
# The window of the next difficulty

The difficulty of a miner block is computed from the last blocks of its chain.  On the
main chain the window is kept from call to call, for an alternative chain it is put
together from two chains.  Fixed difficulties and POS blocks return before that.
-/

namespace Beldex.Pow

open Basic List

/-- The hard forks of a network: the version of a height, and where a version starts. -/
structure HardForks where
  mainnet : Bool
  version : Nat -> Hf
  start : Hf -> Option Nat

inductive DifficultyCalcMode where
  | useOldLwma
  | normal
  | hf12Override
  | hf16Override
deriving DecidableEq

def difficultyWindow : Nat := 59

def difficultyBlocksCount (beforeHf16 : Bool) : Nat :=
  if beforeHf16 then difficultyWindow + 2 else difficultyWindow + 1

def inFirstWindow (start : Option Nat) (height : Nat) : Bool :=
  start.any fun first => first <= height && height <= first + difficultyWindow

structure DifficultyEntry where
  timestamp : Nat
  cumulativeDifficulty : Nat
  majorVersion : Hf

structure DifficultyArgs where
  entries : List DifficultyEntry
  targetSeconds : Nat
  mode : DifficultyCalcMode

variable (forks : HardForks) (chain : List DifficultyEntry)

def difficultyMode (height : Nat) : DifficultyCalcMode :=
  if forks.version height < Hf.hf10Bulletproofs then .useOldLwma
  else if inFirstWindow (forks.start .hf13Checkpointing) height then .hf12Override
  else if forks.mainnet && inFirstWindow (forks.start .hf17POS) height then .hf16Override
  else .normal

def targetAt (height : Nat) : Nat :=
  if Hf.hf17POS <= forks.version height then 30 else 120

def blocksCountAt (height : Nat) : Nat :=
  difficultyBlocksCount (decide (forks.version height < Hf.hf17POS))

/-! ## The main chain -/

def trimTo (count : Nat) (entries : List DifficultyEntry) : List DifficultyEntry :=
  entries.drop (entries.length - count)

/-- Bring the window of an earlier call up to the chain. -/
def fillTimestampsAndDifficultiesForPow (cached : List DifficultyEntry) (cachedHeight : Nat) :
    List DifficultyEntry :=
  let height := chain.length
  let count := blocksCountAt forks height
  if height < 2 then cached
  else
    let cached :=
      if cachedHeight = 0 ∨ height ≠ cachedHeight + 1 ∨ count < cached.length then
        (chain.take (height - 1)).drop (max (height - min height count) 1)
      else cached
    trimTo count (cached ++ chain.drop (height - 1))

def nextBlockArgs : DifficultyArgs where
  entries := fillTimestampsAndDifficultiesForPow forks chain [] 0
  targetSeconds := targetAt forks chain.length
  mode := difficultyMode forks chain.length

def lastBlocks (count : Nat) : List DifficultyEntry :=
  chain.drop (max (chain.length - count) 1)

theorem drop_take_append_drop {chain : List DifficultyEntry} {start height : Nat}
    (hstart : start <= height) (hht : height <= chain.length) :
    (chain.take height).drop start ++ chain.drop height = chain.drop start := by
  have hlen : start <= (chain.take height).length := by
    rw [length_take_of_le hht]
    exact hstart
  rw [<- drop_append_of_le_length hlen, take_append_drop]

theorem trimTo_drop (count start : Nat) :
    trimTo count (chain.drop start) = chain.drop (max start (chain.length - count)) := by
  unfold trimTo
  rw [drop_drop, length_drop]
  congr 1
  omega

theorem nextBlockArgs_entries : (nextBlockArgs forks chain).entries =
    lastBlocks chain (blocksCountAt forks chain.length) := by
  unfold nextBlockArgs fillTimestampsAndDifficultiesForPow lastBlocks
  dsimp only
  split
  · exact (drop_eq_nil_of_le (by omega)).symm
  · have hcount : 60 <= blocksCountAt forks chain.length := by
      unfold blocksCountAt difficultyBlocksCount
      split
      · decide
      · decide
    rw [if_pos (Or.inl rfl), drop_take_append_drop (by omega) (by omega), trimTo_drop]
    congr 1
    omega

/-! ## Alternative chains -/

variable (main alt : List DifficultyEntry)

def altBeforeHf16 : Bool :=
  match alt.getLast? with
  | some back => decide (back.majorVersion < Hf.hf17POS)
  | none => decide (forks.version main.length < Hf.hf17POS)

/-- The arguments for the block after an alternative chain that leaves the main chain at the
given height. -/
def altBlockArgs (forkHeight : Nat) : DifficultyArgs :=
  let count := difficultyBlocksCount (altBeforeHf16 forks main alt)
  let height := forkHeight + alt.length + 1
  { entries :=
      if alt.length < count then
        let start := forkHeight - min (count - min count alt.length) forkHeight
        (main.take forkHeight).drop (if start = 0 then 1 else start) ++ alt
      else
        alt.drop (alt.length - count)
    targetSeconds := targetAt forks height
    mode := difficultyMode forks height }

variable {main}

theorem altBlockArgs_entries {forkHeight : Nat} (hgen : 0 < forkHeight)
    (hmain : forkHeight <= main.length) :
    (altBlockArgs forks main alt forkHeight).entries = lastBlocks (main.take forkHeight ++ alt)
        (difficultyBlocksCount (altBeforeHf16 forks main alt)) := by
  have hlen := length_take_of_le hmain
  unfold altBlockArgs lastBlocks
  generalize difficultyBlocksCount (altBeforeHf16 forks main alt) = count
  rw [length_append, hlen, drop_append, hlen]
  dsimp only
  split
  · congr 1
    · congr 1
      split <;> omega
    · rw [Nat.sub_eq_zero_of_le (by omega)]
      rfl
  · have hnil : (main.take forkHeight).drop (max (forkHeight + alt.length - count) 1) = [] :=
      drop_eq_nil_of_le (by omega)
    rw [hnil, nil_append]
    congr 1
    omega

def forkAtThree : HardForks where
  mainnet := true
  version height := if height < 3 then .hf16 else .hf17POS
  start hf := if hf = .hf17POS then some 3 else none

def blockAt (timestamp : Nat) : DifficultyEntry := ⟨timestamp, timestamp, .hf16⟩

end Beldex.Pow
