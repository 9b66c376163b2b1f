import Beldex.Basic.Transaction
import Beldex.Common.IntUtil
import Mathlib.Logic.Relation

/-!
# Verification of the proof of work

A proof of work is accepted when the hash, read as a little-endian number of
256 bits, times the difficulty stays below 2^256.  `Blockchain::verify_block_pow`
obtains the proof of work of a block from one of three places, lets a precompiled
block hash replace it, and returns a verdict that the two block handlers use to
admit a miner block.  The hash functions are oracles.
-/

namespace Beldex.Pow

open Basic Common Crypto Foundation Limbs

section

/-! ## The difficulty check -/

def cadd (a b : UInt64) : Bool :=
  carryOut a b

def cadc (a b : UInt64) (c : Bool) : Bool :=
  carryOutIn a b c

variable (hash : Hash) (difficulty : UInt64)

def checkHash : Bool :=
  let (top, high) := mul128 (hash.word 3) difficulty
  if high != 0 then
    false
  else
    let (_, cur) := mul128 (hash.word 0) difficulty
    let (low, high) := mul128 (hash.word 1) difficulty
    let carry := cadd cur low
    let cur := high
    let (low, high) := mul128 (hash.word 2) difficulty
    let carry := cadc cur low carry
    let carry := cadc high top carry
    !carry

theorem value4_words :
    value4 (hash.word 0) (hash.word 1) (hash.word 2) (hash.word 3) = hash.toNat :=
  value4_extractLsb hash.bits

/-- The product is brought into columns, and each column hands one carry on. -/
theorem product_lt_iff {lo0 hi0 lo1 hi1 lo2 hi2 lo3 hi3 : Nat} (l0 : lo0 < base) (u0 : hi0 < base)
    (l1 : lo1 < base) (u1 : hi1 < base) (l2 : lo2 < base) (u2 : hi2 < base) (l3 : lo3 < base) :
    lo0 + base * hi0 + base * (lo1 + base * hi1 +
        base * (lo2 + base * hi2 + base * (lo3 + base * hi3))) < 2 ^ 256 <->
      hi3 + (decide (base <= hi2 + lo3 + (decide (base <= hi1 + lo2 +
        (decide (base <= hi0 + lo1)).toNat)).toNat)).toNat < 1 := by
  have hbit : forall b : Bool, b.toNat <= 1 := Bool.toNat_le
  have hsmall : decide (base <= lo0) = false := by
    simpa using l0
  have hcolumns :
      lo0 + base * hi0 + base * (lo1 + base * hi1 +
        base * (lo2 + base * hi2 + base * (lo3 + base * hi3))) =
      lo0 + base * (hi0 + lo1 + base * (hi1 + lo2 + base * (hi2 + lo3 + base * hi3))) := by
    ring
  have hpow : (2 ^ 256 : Nat) = base * (base * (base * (base * 1))) := by
    decide
  rw [hcolumns, hpow, column_lt_iff (by omega), hsmall, Bool.toNat_false, add_zero,
    column_lt_iff (by omega), add_right_comm (hi1 + lo2),
    column_lt_iff (by have := hbit (decide (base <= hi0 + lo1)); omega),
    add_right_comm (hi2 + lo3), column_lt_iff]
  have := hbit (decide (base <= hi1 + lo2 + (decide (base <= hi0 + lo1)).toNat))
  omega

/-- The carries of `checkHash` as conditions on the halves of the four products. -/
theorem checkHash_eq :
    checkHash hash difficulty = (decide ((mul128 (hash.word 3) difficulty).2.toNat = 0) &&
        !decide (base <= (mul128 (hash.word 2) difficulty).2.toNat +
          (mul128 (hash.word 3) difficulty).1.toNat +
          (decide (base <= (mul128 (hash.word 1) difficulty).2.toNat +
            (mul128 (hash.word 2) difficulty).1.toNat +
            (decide (base <= (mul128 (hash.word 0) difficulty).2.toNat +
              (mul128 (hash.word 1) difficulty).1.toNat)).toNat)).toNat)) := by
  have hzero : ((mul128 (hash.word 3) difficulty).2 != 0) =
      !decide ((mul128 (hash.word 3) difficulty).2.toNat = 0) := by
    rw [bne, beq_eq_decide]
    congr 1
    exact decide_eq_decide.mpr UInt64.toNat_inj.symm
  unfold checkHash
  simp only [hzero, cadd, cadc, carryOut_eq, carryOutIn_eq]
  by_cases htop : (mul128 (hash.word 3) difficulty).2.toNat = 0
  · simp [htop]
  · simp [htop]

theorem checkHash_iff :
    checkHash hash difficulty = true <-> hash.toNat * difficulty.toNat < 2 ^ 256 := by
  rw [checkHash_eq, <- value4_words, value4_mul, <- mul128_value (hash.word 0),
    <- mul128_value (hash.word 1), <- mul128_value (hash.word 2), <- mul128_value (hash.word 3),
    product_lt_iff (toNat_lt _) (toNat_lt _) (toNat_lt _) (toNat_lt _) (toNat_lt _) (toNat_lt _)
      (toNat_lt _)]
  simp only [Bool.and_eq_true, decide_eq_true_eq, Bool.not_eq_true', decide_eq_false_iff_not]
  generalize (mul128 (hash.word 2) difficulty).2.toNat + _ + _ = x
  by_cases hx : base <= x
  · simp [hx]
  · simp [hx]

/-- The products and the carries of the words are exact, and so is the whole check. -/
theorem checkHash_exact :
    (forall a b, (mul128 a b).1.toNat + 2 ^ 64 * (mul128 a b).2.toNat = a.toNat * b.toNat) ∧
      (forall a b, cadd a b = true <-> 2 ^ 64 <= a.toNat + b.toNat) ∧
      (forall a b c, cadc a b c = true <-> 2 ^ 64 <= a.toNat + b.toNat + c.toNat) ∧
      (checkHash hash difficulty = true <-> hash.toNat * difficulty.toNat < 2 ^ 256) := by
  refine ⟨mul128_value, ?_, ?_, checkHash_iff hash difficulty⟩
  · intro a b
    exact (congrArg (· = true) (carryOut_eq a b)).to_iff.trans decide_eq_true_iff
  · intro a b c
    exact (congrArg (· = true) (carryOutIn_eq a b c)).to_iff.trans decide_eq_true_iff

theorem checkHash_nullHash : checkHash nullHash difficulty = true := by
  rw [checkHash_iff]
  change 0 * difficulty.toNat < 2 ^ 256
  omega

end

open List

/-! ## Inputs of the check -/

structure RandomxLonghashContext where
  seedHeight : UInt64 := 0
  seedBlockHash : Hash := nullHash
  currentBlockchainHeight : UInt64 := 0

structure PowOracles (P : Type) where
  getBlockHash : Block P -> Hash
  getBlockLonghash : NetworkType -> RandomxLonghashContext -> Block P -> UInt64 -> Hash
  rxSlowHash : RandomxLonghashContext -> Block P -> Hash

structure PowView where
  nettype : NetworkType
  blocksHashCheck : List Hash
  blocksLonghashTable : List (Hash × Hash)
  getBlockIdByHeight : UInt64 -> Hash
  getPendingBlockIdByHeight : UInt64 -> Hash
  getCurrentBlockchainHeight : UInt64

def seedhashEpochBlocks : UInt64 := 2048

def seedhashEpochLag : UInt64 := 64

def rxSeedheight (height : UInt64) : UInt64 :=
  if height <= seedhashEpochBlocks + seedhashEpochLag then
    0
  else
    (height - seedhashEpochLag - 1) &&& ~~~(seedhashEpochBlocks - 1)

variable {P : Type} (O : PowOracles P)

def getAltblockLonghash (nettype : NetworkType) (ctx : RandomxLonghashContext) (blk : Block P)
    (height : UInt64) : Hash :=
  if nettype = .fakechain ∨ blk.majorVersion < Hf.hf13Checkpointing then
    O.getBlockLonghash nettype ctx blk height
  else
    O.rxSlowHash ctx blk

variable (view : PowView) (blk : Block P)

def randomxLonghashContext (height : UInt64) : RandomxLonghashContext :=
  if Hf.hf13Checkpointing <= blk.majorVersion then
    { seedHeight := rxSeedheight height
      seedBlockHash := view.getPendingBlockIdByHeight (rxSeedheight height)
      currentBlockchainHeight := view.getCurrentBlockchainHeight }
  else
    {}

variable (chainHeight : UInt64)

/-- The context that the check itself fills in for an alternative block. -/
def altRandomxContext : RandomxLonghashContext :=
  if Hf.hf13Checkpointing <= blk.majorVersion then
    { currentBlockchainHeight := chainHeight
      seedHeight := rxSeedheight (getBlockHeight blk)
      seedBlockHash := view.getBlockIdByHeight (rxSeedheight (getBlockHeight blk)) }
  else
    {}

def getBlockLonghashWBlockchain (height : UInt64) : Hash :=
  O.getBlockLonghash view.nettype (randomxLonghashContext view blk height) blk height

/-! ## The check -/

structure BlockPowVerified where
  valid : Bool := false
  precomputed : Bool := false
  perBlockCheckpointed : Bool := false
  proofOfWork : Hash := ⟨BitVec.allOnes 256⟩

def expectedHash : Option Hash :=
  match view.blocksHashCheck[chainHeight.toNat]? with
  | none => none
  | some hash => if hash != nullHash then some hash else none

/-- The last part of the check, run on whatever hash was obtained. -/
def concludePow (result : BlockPowVerified) (difficulty : UInt64) : BlockPowVerified :=
  let proofOfWork : Hash := nullHash
  if result.perBlockCheckpointed then
    { result with valid := true }
  else
    -- The source compares the local null hash, not the one stored in the result.
    { result with valid := checkHash proofOfWork difficulty }

variable (difficulty : UInt64)

def verifyBlockPow (chainHeight : UInt64) (altBlock : Bool) : BlockPowVerified :=
  let blkHash := O.getBlockHash blk
  let blkHeight := getBlockHeight blk
  if altBlock then
    let ctx := altRandomxContext view blk chainHeight
    concludePow
      { proofOfWork := getAltblockLonghash O view.nettype ctx blk blkHeight }
      difficulty
  else
    match expectedHash view chainHeight with
    | some expected =>
      if blkHash != expected then
        { valid := false }
      else
        concludePow { perBlockCheckpointed := true } difficulty
    | none =>
      match view.blocksLonghashTable.lookup blkHash with
      | some entry =>
        concludePow { precomputed := true, proofOfWork := entry } difficulty
      | none =>
        concludePow
          { proofOfWork := getBlockLonghashWBlockchain O view blk chainHeight }
          difficulty

/-! ## What the verdict says -/

def obtainedHash (altBlock : Bool) : Hash :=
  if altBlock then
    getAltblockLonghash O view.nettype (altRandomxContext view blk chainHeight) blk
      (getBlockHeight blk)
  else
    (view.blocksLonghashTable.lookup (O.getBlockHash blk)).getD
      (getBlockLonghashWBlockchain O view blk chainHeight)

def Precompiled (altBlock : Bool) : Prop :=
  altBlock = false ∧ exists hash, expectedHash view chainHeight = some hash

theorem concludePow_of_not_checkpointed {result : BlockPowVerified}
    (h : result.perBlockCheckpointed = false) :
    concludePow result difficulty = { result with valid := true } := by
  unfold concludePow
  rw [if_neg (by simp [h]), checkHash_nullHash]

section Verdict

variable {O view blk chainHeight difficulty} {altBlock : Bool} {result : BlockPowVerified}
  (hresult : verifyBlockPow O view blk difficulty chainHeight altBlock = result)

include hresult

theorem verifyBlockPow_of_not_precompiled (h : ¬ Precompiled view chainHeight altBlock) :
    result.valid = true ∧ result.perBlockCheckpointed = false ∧
      result.proofOfWork = obtainedHash O view blk chainHeight altBlock := by
  subst hresult
  cases altBlock with
  | true =>
    unfold obtainedHash verifyBlockPow
    simp [concludePow_of_not_checkpointed]
  | false =>
    have hnone : expectedHash view chainHeight = none := by
      cases hexp : expectedHash view chainHeight with
      | none => rfl
      | some hash => exact absurd ⟨rfl, hash, hexp⟩ h
    unfold obtainedHash verifyBlockPow
    simp only [hnone, Bool.false_eq_true, if_false]
    cases view.blocksLonghashTable.lookup (O.getBlockHash blk) with
    | _ => simp [concludePow_of_not_checkpointed]

theorem verifyBlockPow_of_precompiled (h : Precompiled view chainHeight altBlock)
    (hvalid : result.valid = true) : result.perBlockCheckpointed = true := by
  subst hresult
  rcases h with ⟨rfl, expected, hexp⟩
  unfold verifyBlockPow at *
  simp only [hexp, Bool.false_eq_true, if_false] at *
  by_cases hne : (O.getBlockHash blk != expected) = true
  · rw [if_pos hne] at hvalid
    cases hvalid
  · rw [if_neg hne]
    unfold concludePow
    rw [if_pos rfl]

end Verdict

def PowEnforced (chainHeight : UInt64) (altBlock : Bool) : Prop :=
  (verifyBlockPow O view blk difficulty chainHeight altBlock).valid = true ->
    (verifyBlockPow O view blk difficulty chainHeight altBlock).perBlockCheckpointed = false ->
    checkHash (verifyBlockPow O view blk difficulty chainHeight altBlock).proofOfWork
      difficulty = true

def WorkCovered (chainHeight : UInt64) (altBlock : Bool) : Prop :=
  Precompiled view chainHeight altBlock ∨
    (obtainedHash O view blk chainHeight altBlock).toNat * difficulty.toNat < 2 ^ 256

theorem powEnforced_iff_workCovered (chainHeight : UInt64) (altBlock : Bool) :
    PowEnforced O view blk difficulty chainHeight altBlock <->
      WorkCovered O view blk difficulty chainHeight altBlock := by
  unfold PowEnforced WorkCovered
  by_cases hpre : Precompiled view chainHeight altBlock
  · constructor
    · intro _
      exact Or.inl hpre
    · intro _ hvalid hnot
      rw [verifyBlockPow_of_precompiled rfl hpre hvalid] at hnot
      cases hnot
  · generalize hresult : verifyBlockPow O view blk difficulty chainHeight altBlock = result
    rcases verifyBlockPow_of_not_precompiled hresult hpre with ⟨hvalid, hnot, hpow⟩
    rw [hpow, checkHash_iff]
    constructor
    · intro henf
      exact Or.inr (henf hvalid hnot)
    · rintro (h | hwork) _ _
      · exact absurd h hpre
      · exact hwork

/-! ## Admission to the main chain and to the alternative store -/

structure Admission (P : Type) where
  view : PowView
  block : Block P
  difficulty : UInt64
  chainHeight : UInt64
  altBlock : Bool

/-- The proof-of-work gate of both block handlers; POS blocks pass it unseen. -/
def powGate (a : Admission P) : Bool :=
  blockHasPosComponents a.block ||
    (verifyBlockPow O a.view a.block a.difficulty a.chainHeight a.altBlock).valid

structure ChainStores (P : Type) where
  mainChain : List (Admission P)
  altBlocks : List (Admission P)

/-- A change of the two stores; `Offered` restricts the blocks that are handed in. -/
inductive StoreStep (O : PowOracles P) (Offered : Admission P -> Prop) :
    ChainStores P -> ChainStores P -> Prop where
  | handleBlockToMainChain (s : ChainStores P) (a : Admission P) :
      a.altBlock = false -> Offered a -> powGate O a = true ->
      StoreStep O Offered s { s with mainChain := a :: s.mainChain }
  | handleAlternativeBlock (s : ChainStores P) (a : Admission P) :
      a.altBlock = true -> Offered a -> powGate O a = true ->
      StoreStep O Offered s { s with altBlocks := a :: s.altBlocks }
  | popBlock (s : ChainStores P) : StoreStep O Offered s { s with mainChain := s.mainChain.tail }
  | removeAltBlocks (s : ChainStores P) (kept : List (Admission P)) :
      kept ⊆ s.altBlocks ->
      StoreStep O Offered s { s with altBlocks := kept }

def AllWorked (s : ChainStores P) : Prop :=
  forall a, a ∈ s.mainChain ++ s.altBlocks ->
    blockHasPosComponents a.block = false ->
      Precompiled a.view a.chainHeight a.altBlock ∨
        checkHash (obtainedHash O a.view a.block a.chainHeight a.altBlock) a.difficulty = true

def Admission.WorkCovered (a : Admission P) : Prop :=
  Pow.WorkCovered O a.view a.block a.difficulty a.chainHeight a.altBlock

theorem allWorked_step {O : PowOracles P} {s s' : ChainStores P}
    (hstep : StoreStep O (Admission.WorkCovered O) s s') (h : AllWorked O s) : AllWorked O s' := by
  have hnew : forall a : Admission P, a.WorkCovered O ->
      Precompiled a.view a.chainHeight a.altBlock ∨
        checkHash (obtainedHash O a.view a.block a.chainHeight a.altBlock) a.difficulty = true := by
    intro a hcov
    rw [checkHash_iff]
    exact hcov
  intro b hb hminer
  cases hstep with
  | handleBlockToMainChain a _ hcov _ =>
    rcases mem_cons.mp hb with rfl | hold
    · exact hnew b hcov
    · exact h b hold hminer
  | handleAlternativeBlock a _ hcov _ =>
    rcases mem_append.mp hb with hmain | halt
    · exact h b (mem_append_left _ hmain) hminer
    · rcases mem_cons.mp halt with rfl | hold
      · exact hnew b hcov
      · exact h b (mem_append_right _ hold) hminer
  | popBlock =>
    rcases mem_append.mp hb with hmain | halt
    · exact h b (mem_append_left _ (mem_of_mem_tail hmain)) hminer
    · exact h b (mem_append_right _ halt) hminer
  | removeAltBlocks kept hkept =>
    rcases mem_append.mp hb with hmain | halt
    · exact h b (mem_append_left _ hmain) hminer
    · exact h b (mem_append_right _ (hkept halt)) hminer

theorem allWorked_run {O : PowOracles P} {s : ChainStores P}
    (hrun : Relation.ReflTransGen (StoreStep O (Admission.WorkCovered O))
      { mainChain := [], altBlocks := [] } s) : AllWorked O s := by
  induction hrun with
  | refl =>
    intro a ha
    cases ha
  | tail _ hstep ih =>
    exact allWorked_step hstep ih

/-- The proof of work is enforced exactly for the blocks whose work is covered,
and stores that are only offered such blocks hold no unworked miner block. -/
theorem verifyBlockPow_enforced_iff (O : PowOracles P) :
    (forall (view : PowView) (blk : Block P) (difficulty chainHeight : UInt64)
      (altBlock : Bool),
      PowEnforced O view blk difficulty chainHeight altBlock <->
        WorkCovered O view blk difficulty chainHeight altBlock) ∧ (forall s : ChainStores P,
      Relation.ReflTransGen (StoreStep O (Admission.WorkCovered O))
        { mainChain := [], altBlocks := [] } s ->
      AllWorked O s) :=
  ⟨powEnforced_iff_workCovered O, fun _ hrun => allWorked_run hrun⟩

/-! ## A block without work -/

def worklessOracles : PowOracles Unit where
  getBlockHash := fun _ => nullHash
  getBlockLonghash := fun _ _ _ _ => ⟨BitVec.allOnes 256⟩
  rxSlowHash := fun _ _ => ⟨BitVec.allOnes 256⟩

def emptyView : PowView where
  nettype := .mainnet
  blocksHashCheck := []
  blocksLonghashTable := []
  getBlockIdByHeight := fun _ => nullHash
  getPendingBlockIdByHeight := fun _ => nullHash
  getCurrentBlockchainHeight := 5

def minerBlock : Block Unit :=
  { emptyBlock Unit with
    majorVersion := .hf22PrivacyTokens
    minerTx := { Transaction.setNull Unit with vin := [.gen 5] } }

/-- A miner block with the worst possible hash is admitted to both stores. -/
theorem verifyBlockPow_admits_unworked_block :
    ¬ PowEnforced worklessOracles emptyView minerBlock 2 5 false ∧
    ¬ PowEnforced worklessOracles emptyView minerBlock 2 5 true ∧
    exists s : ChainStores Unit,
      Relation.ReflTransGen (StoreStep worklessOracles fun _ => True)
        { mainChain := [], altBlocks := [] } s ∧
      ¬ AllWorked worklessOracles s := by
  have hmain : ¬ WorkCovered worklessOracles emptyView minerBlock 2 5 false := by
    rintro (⟨_, hash, hexp⟩ | hwork)
    · cases hexp
    · exact absurd hwork (by decide)
  have halt : ¬ WorkCovered worklessOracles emptyView minerBlock 2 5 true := by
    rintro (⟨hfalse, _⟩ | hwork)
    · cases hfalse
    · exact absurd hwork (by decide)
  refine ⟨fun h => hmain ((powEnforced_iff_workCovered ..).mp h),
    fun h => halt ((powEnforced_iff_workCovered ..).mp h), ?_⟩
  let a : Admission Unit := ⟨emptyView, minerBlock, 2, 5, false⟩
  refine ⟨{ mainChain := [a], altBlocks := [] }, Relation.ReflTransGen.single
    (StoreStep.handleBlockToMainChain _ a rfl trivial (by decide)), ?_⟩
  intro hall
  have ha := hall a (mem_append_left _ (mem_singleton.mpr rfl)) (by decide)
  rw [checkHash_iff] at ha
  exact hmain ha

end Beldex.Pow
