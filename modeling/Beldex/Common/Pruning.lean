import Mathlib.Algebra.Order.Ring.Nat
import Mathlib.Order.Bounds.Basic
import Mathlib.Tactic.GCongr
import Mathlib.Tactic.Ring

/-!
# Pruning stripes

A pruned node keeps the blocks of one stripe of each cycle, and the blocks at the tip of
the chain.  Where the kept blocks begin and end is computed in closed form.
-/

namespace Beldex.Common

def maxBlockNumber : Nat := 500000000

def pruningStripeSize : Nat := 4096

def pruningLogStripes : Nat := 3

def pruningTipBlocks : Nat := 5500

def getPruningLogStripes (pruningSeed : Nat) : Nat :=
  (pruningSeed >>> 7) &&& 0x7

/-- The stripe that a seed keeps. -/
def seedStripe (pruningSeed : Nat) : Nat :=
  if pruningSeed = 0 then 0 else 1 + (pruningSeed &&& 0x7f)

/-- There is no seed where the code throws. -/
def makePruningSeed (stripe logStripes : Nat) : Option Nat :=
  if logStripes <= 0x7 ∧ 0 < stripe ∧ stripe <= 1 <<< logStripes then
    some (logStripes <<< 7 ||| (stripe - 1))
  else
    none

def getPruningStripe (blockHeight blockchainHeight logStripes : Nat) : Nat :=
  if blockHeight + pruningTipBlocks >= blockchainHeight then
    0
  else
    ((blockHeight / pruningStripeSize) &&& (1 <<< logStripes - 1)) + 1

def getPruningSeed (blockHeight blockchainHeight logStripes : Nat) : Option Nat :=
  let stripe := getPruningStripe blockHeight blockchainHeight logStripes
  if stripe = 0 then some 0 else makePruningSeed stripe logStripes

def hasUnprunedBlock (blockHeight blockchainHeight pruningSeed : Nat) : Bool :=
  let stripe := seedStripe pruningSeed
  let blockStripe :=
    getPruningStripe blockHeight blockchainHeight (getPruningLogStripes pruningSeed)
  stripe == 0 || blockStripe == 0 || blockStripe == stripe

def seedLogStripes (pruningSeed : Nat) : Nat :=
  if getPruningLogStripes pruningSeed ≠ 0 then getPruningLogStripes pruningSeed
  else pruningLogStripes

def getNextUnprunedBlockHeight (blockHeight blockchainHeight pruningSeed : Nat) : Nat :=
  let stripe := seedStripe pruningSeed
  let logStripes := seedLogStripes pruningSeed
  let blockPruningStripe := ((blockHeight / pruningStripeSize) &&& (1 <<< logStripes - 1)) + 1
  let cycles := (blockHeight / pruningStripeSize) >>> logStripes
  let cycleStart := cycles + if stripe > blockPruningStripe then 0 else 1
  let h := cycleStart * pruningStripeSize <<< logStripes + (stripe - 1) * pruningStripeSize
  if blockHeight > maxBlockNumber + 1 ∨ blockchainHeight > maxBlockNumber + 1 then blockHeight
  else if stripe = 0 then blockHeight
  else if blockHeight + pruningTipBlocks >= blockchainHeight then blockHeight
  else if blockPruningStripe = stripe then blockHeight
  else if h + pruningTipBlocks > blockchainHeight then
    if blockchainHeight < pruningTipBlocks then 0 else blockchainHeight - pruningTipBlocks
  else if h < blockHeight then blockHeight
  else h

def getNextPrunedBlockHeight (blockHeight blockchainHeight pruningSeed : Nat) : Option Nat :=
  let stripe := seedStripe pruningSeed
  let logStripes := seedLogStripes pruningSeed
  let mask := 1 <<< logStripes - 1
  let blockPruningSeed := ((blockHeight / pruningStripeSize) &&& mask) + 1
  if stripe = 0 then some blockchainHeight
  else if blockHeight + pruningTipBlocks >= blockchainHeight then some blockchainHeight
  else if blockPruningSeed ≠ stripe then some blockHeight
  else (makePruningSeed (1 + (blockPruningSeed &&& mask)) logStripes).map
    (getNextUnprunedBlockHeight blockHeight blockchainHeight)

variable {s k seed b c h : Nat}

/-- The next number with a given remainder. -/
theorem next_residue {n : Nat} (hs : s < n) (hne : b % n ≠ s) :
    IsLeast {q | b <= q ∧ q % n = s} ((b / n + if s > b % n then 0 else 1) * n + s) := by
  have hb := Nat.div_add_mod' b n
  have hr := Nat.mod_lt b (Nat.zero_lt_of_lt hs)
  refine ⟨⟨?_, by rw [Nat.mul_add_mod', Nat.mod_eq_of_lt hs]⟩, fun q hq => ?_⟩
  · rw [add_mul]
    split
    · omega
    · omega
  · have hqn := Nat.div_add_mod' q n
    have hcycle := Nat.div_le_div_right (c := n) hq.1
    rw [<- hqn, hq.2]
    gcongr
    split
    · exact hcycle
    · refine lt_of_le_of_ne hcycle fun heq => ?_
      rw [heq] at hb
      have := hq.1
      have := hq.2
      omega

section

variable (hk : k <= 7) (hs : s < 2 ^ k)
include hk hs

theorem seed_eq : makePruningSeed (s + 1) k = some (k * 128 + s) := by
  have hs' : s < 2 ^ 7 := lt_of_lt_of_le hs (Nat.pow_le_pow_right (by decide) hk)
  unfold makePruningSeed
  rw [if_pos ⟨hk, Nat.succ_pos s, by rwa [Nat.one_shiftLeft]⟩, Nat.add_sub_cancel,
    <- Nat.shiftLeft_add_eq_or_of_lt hs', Nat.shiftLeft_eq]

theorem decode_seed (hpos : 0 < k) :
    seedStripe (k * 128 + s) = s + 1 ∧ getPruningLogStripes (k * 128 + s) = k ∧
      seedLogStripes (k * 128 + s) = k := by
  have hs' : s < 2 ^ 7 := lt_of_lt_of_le hs (Nat.pow_le_pow_right (by decide) hk)
  have hlog : getPruningLogStripes (k * 128 + s) = k := by
    unfold getPruningLogStripes
    rw [Nat.shiftRight_eq_div_pow, show 7 = 2 ^ 3 - 1 from rfl, Nat.and_two_pow_sub_one_eq_mod]
    omega
  refine ⟨?_, hlog, ?_⟩
  · unfold seedStripe
    rw [if_neg (by omega), show 0x7f = 2 ^ 7 - 1 from rfl, Nat.and_two_pow_sub_one_eq_mod]
    omega
  · unfold seedLogStripes
    rw [hlog, if_pos (by omega)]

theorem hasUnprunedBlock_iff (hpos : 0 < k) :
    hasUnprunedBlock h c (k * 128 + s) = true <->
      c <= h + pruningTipBlocks ∨ h / pruningStripeSize % 2 ^ k = s := by
  rcases decode_seed hk hs hpos with ⟨hstripe, hlog, -⟩
  unfold hasUnprunedBlock getPruningStripe
  rw [hstripe, hlog, Nat.one_shiftLeft, Nat.and_two_pow_sub_one_eq_mod]
  split
  case isTrue hle => simp [hle]
  case isFalse hlt => simp [hlt]

theorem nextUnpruned_isLeast (hpos : 0 < k) (hb : b <= maxBlockNumber + 1)
    (hc : c <= maxBlockNumber + 1) :
    IsLeast {h | b <= h ∧ (c <= h + pruningTipBlocks ∨ h / pruningStripeSize % 2 ^ k = s)}
      (getNextUnprunedBlockHeight b c (k * 128 + s)) := by
  rcases decode_seed hk hs hpos with ⟨hstripe, -, hlog⟩
  have hsize : 0 < pruningStripeSize := by decide
  unfold getNextUnprunedBlockHeight
  simp only [hstripe, hlog, Nat.shiftLeft_eq, one_mul, Nat.and_two_pow_sub_one_eq_mod,
    Nat.shiftRight_eq_div_pow, Nat.add_sub_cancel, gt_iff_lt, Nat.add_lt_add_iff_right,
    Nat.add_right_cancel_iff]
  rw [if_neg (by omega), if_neg (Nat.succ_ne_zero s)]
  split
  case isTrue htip => exact ⟨⟨le_rfl, Or.inl htip⟩, fun h hh => hh.1⟩
  case isFalse hlow =>
  split
  case isTrue hsame => exact ⟨⟨le_rfl, Or.inr hsame⟩, fun h hh => hh.1⟩
  case isFalse hother =>
  rcases next_residue hs hother with ⟨⟨hle, hres⟩, hmin⟩
  generalize (b / pruningStripeSize / 2 ^ k +
    if b / pruningStripeSize % 2 ^ k < s then 0 else 1) = start at *
  have hreach : b < (start * 2 ^ k + s) * pruningStripeSize := by
    rw [<- Nat.div_lt_iff_lt_mul hsize]
    refine lt_of_le_of_ne hle fun heq => hother ?_
    rw [heq, hres]
  have hfirst : forall h, b <= h -> h / pruningStripeSize % 2 ^ k = s ->
      (start * 2 ^ k + s) * pruningStripeSize <= h := fun h hbh hh =>
    (Nat.le_div_iff_mul_le hsize).mp (hmin ⟨Nat.div_le_div_right hbh, hh⟩)
  rw [show start * (pruningStripeSize * 2 ^ k) + s * pruningStripeSize =
    (start * 2 ^ k + s) * pruningStripeSize by ring]
  split
  case isTrue htip =>
    rw [if_neg (by omega)]
    refine ⟨⟨by omega, by omega⟩, fun h hh => ?_⟩
    rcases hh.2 with hat | hsame
    · omega
    · have := hfirst h hh.1 hsame
      omega
  case isFalse hbelow =>
    rw [if_neg (by omega)]
    refine ⟨⟨hreach.le, Or.inr ?_⟩, fun h hh => ?_⟩
    · rw [Nat.mul_div_cancel _ hsize, hres]
    · rcases hh.2 with hat | hsame
      · omega
      · exact hfirst h hh.1 hsame

end

/-- Every block has a seed, zero at the tip, and below the tip the nodes with this seed are
those that keep the block; no sum is beyond 64 bits. -/
theorem kept_iff_getPruningSeed {stripe : Nat} (hseed : makePruningSeed stripe k = some seed)
    (hpos : 1 <= k) (hheight : h <= maxBlockNumber + 1) (c : Nat) :
    h + pruningTipBlocks < 2 ^ 64 ∧ exists own, getPruningSeed h c k = some own ∧
      (own = 0 <-> c <= h + pruningTipBlocks) ∧
      (hasUnprunedBlock h c seed = true <-> own = 0 ∨ own = seed) := by
  have hseed' := hseed
  unfold makePruningSeed at hseed
  split at hseed
  case isFalse => cases hseed
  case isTrue hrange =>
  rw [Nat.one_shiftLeft] at hrange
  rcases hrange with ⟨hk, hfirst, hs⟩
  rcases Nat.exists_eq_succ_of_ne_zero (Nat.ne_of_gt hfirst) with ⟨s, rfl⟩
  rw [seed_eq hk hs] at hseed'
  cases hseed'
  have hfits : h + pruningTipBlocks < 2 ^ 64 := by
    unfold maxBlockNumber at hheight
    unfold pruningTipBlocks
    omega
  have hown := seed_eq hk (Nat.mod_lt (h / pruningStripeSize) (Nat.two_pow_pos k))
  rw [hasUnprunedBlock_iff hk hs hpos]
  unfold getPruningSeed getPruningStripe
  rw [Nat.one_shiftLeft, Nat.and_two_pow_sub_one_eq_mod]
  by_cases htip : c <= h + pruningTipBlocks
  · exact ⟨hfits, 0, by simp [htip], by simp [htip], by simp [htip]⟩
  · exact ⟨hfits, k * 128 + h / pruningStripeSize % 2 ^ k, by simp [htip, hown], by omega, by omega⟩

theorem kept_iff_getPruningSeed_third :
    hasUnprunedBlock 8192 20000 386 = true ∧ getPruningSeed 8192 20000 3 = some 386 := by
  have hseed : makePruningSeed 3 3 = some 386 := by decide
  rcases kept_iff_getPruningSeed (h := 8192) hseed (by decide) (by decide) 20000 with
    ⟨_, own, hown, _, hkept⟩
  cases hown
  exact ⟨hkept.mpr (Or.inr rfl), rfl⟩

/-- The first block from a height on that is kept; and from a height on the chain the first
one that is not, or if there is none a height up to which all blocks are kept. -/
theorem pruningStripes_exact {stripe : Nat} (hseed : makePruningSeed stripe k = some seed)
    (hpos : 1 <= k) (hb : b <= maxBlockNumber + 1) (hc : c <= maxBlockNumber + 1) :
    IsLeast {h | b <= h ∧ hasUnprunedBlock h c seed = true} (getNextUnprunedBlockHeight b c seed) ∧
    exists g, getNextPrunedBlockHeight b c seed = some g ∧ (c < b -> g = c) ∧
      (b <= c -> b <= g ∧ (forall h, b <= h -> h < g -> hasUnprunedBlock h c seed = true) ∧
        ((exists h, b <= h ∧ h < c ∧ hasUnprunedBlock h c seed = false) ->
          hasUnprunedBlock g c seed = false)) := by
  have hseed' := hseed
  unfold makePruningSeed at hseed
  split at hseed
  case isFalse => cases hseed
  case isTrue hrange =>
  rcases hrange with ⟨hk, hfirst, hlast⟩
  rw [Nat.one_shiftLeft] at hlast
  rcases Nat.exists_eq_succ_of_ne_zero (Nat.ne_of_gt hfirst) with ⟨s, rfl⟩
  rw [seed_eq hk hlast] at hseed'
  cases hseed'
  rcases decode_seed hk hlast hpos with ⟨hstripe, -, hlog⟩
  simp only [hasUnprunedBlock_iff hk hlast hpos, <- Bool.not_eq_true, not_or, not_le]
  refine ⟨nextUnpruned_isLeast hk hlast hpos hb hc, ?_⟩
  unfold getNextPrunedBlockHeight
  simp only [hstripe, hlog, Nat.one_shiftLeft, Nat.and_two_pow_sub_one_eq_mod]
  rw [if_neg (Nat.succ_ne_zero s)]
  split
  case isTrue htip => exact ⟨c, rfl, fun _ => rfl, fun hle => ⟨hle, by omega, by omega⟩⟩
  case isFalse hlow =>
  split
  case isTrue hother => exact ⟨b, rfl, by omega, fun _ => ⟨le_rfl, by omega, fun _ => by omega⟩⟩
  case isFalse hsame =>
  have hown : b / pruningStripeSize % 2 ^ k = s := by omega
  have hnext : (s + 1) % 2 ^ k < 2 ^ k := Nat.mod_lt _ (Nat.two_pow_pos k)
  have hdiffer : (s + 1) % 2 ^ k ≠ s := by
    have hmany : 2 <= 2 ^ k := Nat.le_self_pow (by omega) 2
    rcases Nat.lt_or_ge (s + 1) (2 ^ k) with hin | hout
    · rw [Nat.mod_eq_of_lt hin]
      omega
    · rw [show s + 1 = 2 ^ k by omega, Nat.mod_self]
      omega
  rw [hown, add_comm 1, seed_eq hk hnext]
  rcases nextUnpruned_isLeast hk hnext hpos hb hc with ⟨⟨hle, hkept⟩, hmin⟩
  -- The next stripe begins behind the one of the block.
  have hbehind : getNextUnprunedBlockHeight b c (k * 128 + (s + 1) % 2 ^ k) <=
      (b / pruningStripeSize + 1) * pruningStripeSize := by
    refine hmin ⟨(Nat.lt_mul_of_div_lt (Nat.lt_succ_self _) (by decide)).le, Or.inr ?_⟩
    rw [Nat.mul_div_cancel _ (by decide), <- hown, Nat.mod_add_mod]
  rw [Option.map_some]
  generalize getNextUnprunedBlockHeight b c (k * 128 + (s + 1) % 2 ^ k) = g at *
  have hstays : forall h, b <= h -> h < g -> h / pruningStripeSize % 2 ^ k = s := by
    intro h hbh hh
    have hfrom := Nat.div_le_div_right (c := pruningStripeSize) hbh
    have hto := (Nat.div_lt_iff_lt_mul (by decide)).mpr (lt_of_lt_of_le hh hbehind)
    rw [<- hown, Nat.le_antisymm (Nat.lt_succ_iff.mp hto) hfrom]
  refine ⟨g, rfl, by omega, fun _ => ⟨hle, fun h hbh hh => Or.inr (hstays h hbh hh), ?_⟩⟩
  rintro ⟨h, hbh, -, hlt, hne⟩
  have hgh : g <= h := le_of_not_gt fun hh => hne (hstays h hbh hh)
  rcases hkept with hat | hres
  · omega
  · exact ⟨by omega, hres ▸ hdiffer⟩

theorem pruningStripes_exact_firstStripe :
    getNextUnprunedBlockHeight 5000 20000 384 = 14500 ∧
      hasUnprunedBlock 14500 20000 384 = true := by
  have hseed : makePruningSeed 1 3 = some 384 := by decide
  have hnext : getNextUnprunedBlockHeight 5000 20000 384 = 14500 := by decide
  rcases pruningStripes_exact (b := 5000) (c := 20000) hseed (by decide) (by decide) (by decide)
    with ⟨hleast, -⟩
  rw [hnext] at hleast
  exact ⟨hnext, hleast.1.2⟩

/-- Above the height of the chain the next pruned block is said to be below. -/
theorem nextPruned_below :
    makePruningSeed 1 3 = some 384 ∧ getNextPrunedBlockHeight 6 5 384 = some 5 := by
  decide

end Beldex.Common
