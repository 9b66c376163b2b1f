import Beldex.Foundation.Limbs

/-!
# Products and quotients of two words

The helpers of `int-util.h` for 128-bit arithmetic: a product by its four half-word
products, and a long division bit by bit.  Both are exact.
-/

namespace Beldex.Common

open Foundation Limbs

def hiDword (val : UInt64) : UInt64 :=
  val >>> 32

def loDword (val : UInt64) : UInt64 :=
  val &&& 0xFFFFFFFF

/-- The low and the high word of a product. -/
def mul128 (multiplier multiplicand : UInt64) : UInt64 × UInt64 :=
  let a := hiDword multiplier
  let b := loDword multiplier
  let c := hiDword multiplicand
  let d := loDword multiplicand
  let ac := a * c
  let ad := a * d
  let bc := b * c
  let bd := b * d
  let adbc := ad + bc
  let adbcCarry : UInt64 := if adbc < ad then 1 else 0
  let productLo := bd + adbc <<< 32
  let productLoCarry : UInt64 := if productLo < bd then 1 else 0
  (productLo, ac + adbc >>> 32 + adbcCarry <<< 32 + productLoCarry)

/-- A number of two words, the high one first, doubled; and the bit that is shifted out. -/
def shl128 (hi lo : UInt64) : UInt64 × UInt64 × Bool :=
  (hi <<< 1 + lo >>> 63, lo <<< 1, hi >>> 63 != 0)

/-- The quotient in two words, and the remainder. -/
structure Division where
  hi : UInt64
  lo : UInt64
  remainder : UInt64

/-- The quotient takes the place of the dividend bit by bit. -/
def div12864Loop (divisor : UInt64) : Nat -> UInt64 -> UInt64 -> UInt64 -> Division
  | 0, dividendHi, dividendLo, remainder => ⟨dividendHi, dividendLo, remainder⟩
  | rounds + 1, dividendHi, dividendLo, remainder =>
    let carry := remainder >>> 63 != 0
    let (dividendHi, dividendLo, out) := shl128 dividendHi dividendLo
    let remainder := if out then remainder <<< 1 ||| 1 else remainder <<< 1
    if carry || decide (divisor <= remainder) then
      div12864Loop divisor rounds dividendHi (dividendLo ||| 1) (remainder - divisor)
    else
      div12864Loop divisor rounds dividendHi dividendLo remainder

def div12864 (dividendHi dividendLo divisor : UInt64) : Division :=
  div12864Loop divisor 128 dividendHi dividendLo 0

/-- The product of two words divided by a third, of which the code keeps the low word. -/
def mulDiv128 (multiplier multiplicand divisor : UInt64) : UInt64 :=
  let (lo, hi) := mul128 multiplier multiplicand
  (div12864 hi lo divisor).lo

/-- One digit of a division by a half word, and the new remainder. -/
def divWithReminder (dividend : UInt64) (divisor remainder : UInt32) : UInt64 × UInt32 :=
  let dividend := dividend ||| remainder.toUInt64 <<< 32
  (dividend / divisor.toUInt64, (dividend % divisor.toUInt64).toUInt32)

/-- The quotient of a number of two words, the high one first. -/
def div12832 (dividendHi dividendLo : UInt64) (divisor : UInt32) : UInt64 × UInt64 :=
  let q3 := divWithReminder (hiDword dividendHi) divisor 0
  let q2 := divWithReminder (loDword dividendHi) divisor q3.2
  let q1 := divWithReminder (hiDword dividendLo) divisor q2.2
  let q0 := divWithReminder (loDword dividendLo) divisor q1.2
  (q3.1 <<< 32 ||| q2.1, q1.1 <<< 32 ||| q0.1)

/-! ## Products -/

theorem toNat_hiDword (val : UInt64) : (hiDword val).toNat = val.toNat / 2 ^ 32 := by
  unfold hiDword
  rw [UInt64.toNat_shiftRight, Nat.shiftRight_eq_div_pow]
  rfl

theorem toNat_loDword (val : UInt64) : (loDword val).toNat = val.toNat % 2 ^ 32 := by
  unfold loDword
  rw [UInt64.toNat_and]
  exact Nat.and_two_pow_sub_one_eq_mod _ 32

theorem toNat_carry (a b : UInt64) :
    (if a + b < a then 1 else 0 : UInt64).toNat = (a.toNat + b.toNat) / 2 ^ 64 := by
  have ha := a.toNat_lt
  have hb := b.toNat_lt
  have hcarry := carryOut_eq a b
  unfold carryOut base at hcarry
  rw [decide_eq_decide] at hcarry
  simp only [hcarry]
  split
  · rw [UInt64.toNat_one]
    omega
  · rw [UInt64.toNat_zero]
    omega

theorem halves (x : UInt64) : x.toNat = 2 ^ 32 * (hiDword x).toNat + (loDword x).toNat ∧
    (hiDword x).toNat <= 2 ^ 32 - 1 ∧ (loDword x).toNat <= 2 ^ 32 - 1 := by
  have hx := x.toNat_lt
  rw [toNat_hiDword, toNat_loDword]
  omega

theorem toNat_mul_halves {x y : UInt64} (hx : x.toNat <= 2 ^ 32 - 1) (hy : y.toNat <= 2 ^ 32 - 1) :
    (x * y).toNat = x.toNat * y.toNat ∧ x.toNat * y.toNat <= (2 ^ 32 - 1) * (2 ^ 32 - 1) := by
  have hle := Nat.mul_le_mul hx hy
  rw [UInt64.toNat_mul, Nat.mod_eq_of_lt (by omega)]
  exact ⟨rfl, hle⟩

theorem mul128_value (a b : UInt64) :
    (mul128 a b).1.toNat + base * (mul128 a b).2.toNat = a.toNat * b.toNat := by
  have hproduct : a.toNat * b.toNat < 2 ^ 64 * 2 ^ 64 :=
    Nat.mul_lt_mul'' a.toNat_lt b.toNat_lt
  rcases halves a with ⟨ha, hahi, halo⟩
  rcases halves b with ⟨hb, hbhi, hblo⟩
  rcases toNat_mul_halves hahi hbhi with ⟨hac, _⟩
  rcases toNat_mul_halves hahi hblo with ⟨had, _⟩
  rcases toNat_mul_halves halo hbhi with ⟨hbc, _⟩
  rcases toNat_mul_halves halo hblo with ⟨hbd, _⟩
  have hsum : a.toNat * b.toNat = 2 ^ 64 * ((hiDword a).toNat * (hiDword b).toNat) +
      2 ^ 32 * ((hiDword a).toNat * (loDword b).toNat + (loDword a).toNat * (hiDword b).toNat) +
      (loDword a).toNat * (loDword b).toNat := by
    rw [ha, hb]
    ring
  rw [hsum] at hproduct ⊢
  unfold mul128 base
  simp only [UInt64.toNat_add, toNat_carry, UInt64.toNat_shiftLeft, UInt64.toNat_shiftRight, hac,
    had, hbc, hbd, Nat.shiftLeft_eq, Nat.shiftRight_eq_div_pow, UInt64.toNat_ofNat,
    Nat.reducePow, Nat.reduceMod]
  omega

/-! ## Quotients -/

theorem toNat_shiftLeft_one (x : UInt64) : (x <<< 1).toNat = x.toNat * 2 % 2 ^ 64 := by
  rw [UInt64.toNat_shiftLeft, Nat.shiftLeft_eq]
  rfl

theorem toNat_shiftRight_63 (x : UInt64) : (x >>> 63).toNat = x.toNat / 2 ^ 63 := by
  rw [UInt64.toNat_shiftRight, Nat.shiftRight_eq_div_pow]
  rfl

theorem toNat_or_one {x : UInt64} (h : x.toNat % 2 = 0) : (x ||| 1).toNat = x.toNat + 1 := by
  have hshift := @Nat.shiftLeft_add_eq_or_of_lt 1 1 (by decide) (x.toNat / 2)
  rw [Nat.shiftLeft_eq, Nat.pow_one, Nat.div_mul_cancel (Nat.dvd_of_mod_eq_zero h)] at hshift
  rw [UInt64.toNat_or, hshift]
  rfl

theorem topBit_eq (x : UInt64) : (x >>> 63 != 0) = decide (2 ^ 63 <= x.toNat) := by
  have hx := x.toNat_lt
  have hzero : x >>> 63 = 0 <-> x.toNat / 2 ^ 63 = 0 := by
    rw [<- UInt64.toNat_inj, toNat_shiftRight_63]
    rfl
  rw [bne, beq_eq_decide, <- decide_not, decide_eq_decide, hzero]
  omega

/-- The remainder and the dividend as one number. -/
def Division.value (d : Division) : Nat :=
  d.remainder.toNat * 2 ^ 128 + d.hi.toNat * 2 ^ 64 + d.lo.toNat

/-- A round doubles the number and moves one bit of the quotient to its end. -/
theorem div12864Loop_succ {divisor hi lo r : UInt64} (h : r < divisor) (n : Nat) :
    exists (d : Division) (bit : Nat),
      div12864Loop divisor (n + 1) hi lo r = div12864Loop divisor n d.hi d.lo d.remainder ∧
      d.remainder < divisor ∧ bit <= 1 ∧
      d.value + bit * (divisor.toNat * 2 ^ 128) = 2 * (Division.mk hi lo r).value + bit := by
  have hr := r.toNat_lt
  have hhi := hi.toNat_lt
  have hlo := lo.toNat_lt
  have hdiv := divisor.toNat_lt
  rw [UInt64.lt_iff_toNat_lt] at h
  have hlow : (lo <<< 1 ||| 1).toNat = (lo <<< 1).toNat + 1 :=
    toNat_or_one (by rw [toNat_shiftLeft_one]; omega)
  have hrem : (if decide (2 ^ 63 <= hi.toNat) then r <<< 1 ||| 1 else r <<< 1).toNat =
      r.toNat * 2 % 2 ^ 64 + hi.toNat / 2 ^ 63 := by
    split
    next hbit =>
      rw [toNat_or_one (by rw [toNat_shiftLeft_one]; omega), toNat_shiftLeft_one]
      have := of_decide_eq_true hbit
      omega
    next hbit =>
      rw [toNat_shiftLeft_one]
      have := of_decide_eq_false (eq_false_of_ne_true hbit)
      omega
  simp only [div12864Loop, shl128, Division.value, topBit_eq]
  generalize (if decide (2 ^ 63 <= hi.toNat) then r <<< 1 ||| 1 else r <<< 1) = remainder
    at hrem ⊢
  simp only [Bool.or_eq_true, decide_eq_true_eq, UInt64.le_iff_toNat_le]
  split
  next htaken =>
    have hsub : (remainder - divisor).toNat =
        2 * r.toNat + hi.toNat / 2 ^ 63 - divisor.toNat := by
      rw [UInt64.toNat_sub]
      omega
    refine ⟨⟨_, _, _⟩, 1, rfl, ?_⟩
    simp only [UInt64.lt_iff_toNat_lt, hsub, hlow, UInt64.toNat_add, toNat_shiftLeft_one,
      toNat_shiftRight_63]
    omega
  next hleft =>
    refine ⟨⟨_, _, _⟩, 0, rfl, ?_⟩
    simp only [UInt64.lt_iff_toNat_lt, hrem, UInt64.toNat_add, toNat_shiftLeft_one,
      toNat_shiftRight_63]
    omega

variable {divisor : UInt64}

theorem value_div12864Loop (n : Nat) {hi lo r : UInt64} (h : r < divisor) :
    (div12864Loop divisor n hi lo r).remainder < divisor ∧ exists q, q < 2 ^ n ∧
      (div12864Loop divisor n hi lo r).value + q * (divisor.toNat * 2 ^ 128) =
        2 ^ n * (Division.mk hi lo r).value + q := by
  induction n generalizing hi lo r with
  | zero => exact ⟨h, 0, by decide, by simp [div12864Loop]⟩
  | succ n ih =>
    rcases div12864Loop_succ h n with ⟨d, bit, hloop, hrem, hbit, hround⟩
    rcases ih hrem with ⟨hrem', q, hq, hvalue⟩
    rw [hloop]
    refine ⟨hrem', 2 ^ n * bit + q, ?_, ?_⟩
    · have := Nat.mul_le_mul_left (2 ^ n) hbit
      omega
    · change _ = 2 ^ n * d.value + q at hvalue
      generalize divisor.toNat * 2 ^ 128 = step at hround hvalue ⊢
      have hscaled := congrArg (2 ^ n * ·) hround
      simp only [mul_add] at hscaled
      rw [add_mul, mul_assoc, pow_succ, mul_assoc]
      omega

/-- The long division gives the quotient in two words, and the remainder. -/
theorem div12864_value (hi lo : UInt64) (h : 0 < divisor) :
    let d := div12864 hi lo divisor
    d.lo.toNat + base * d.hi.toNat = (lo.toNat + base * hi.toNat) / divisor.toNat ∧
      d.remainder.toNat = (lo.toNat + base * hi.toNat) % divisor.toNat := by
  rcases @value_div12864Loop divisor 128 hi lo 0 h with ⟨hrem, q, hq, hvalue⟩
  change (div12864 hi lo divisor).remainder < divisor at hrem
  change (div12864 hi lo divisor).value + _ = _ at hvalue
  generalize div12864 hi lo divisor = d at hrem hvalue ⊢
  have hhi := d.hi.toNat_lt
  have hlo := d.lo.toNat_lt
  rw [UInt64.lt_iff_toNat_lt] at hrem
  have hsplit : lo.toNat + base * hi.toNat = d.remainder.toNat + divisor.toNat * q ∧
      d.lo.toNat + base * d.hi.toNat = q := by
    unfold Division.value at hvalue
    unfold base
    dsimp only at hvalue
    rw [<- mul_assoc, mul_comm q, UInt64.toNat_zero] at hvalue
    omega
  dsimp only
  rw [hsplit.2, hsplit.1, Nat.add_mul_div_left _ _ (Nat.zero_lt_of_lt hrem),
    Nat.div_eq_of_lt hrem, Nat.add_mul_mod_self_left, Nat.mod_eq_of_lt hrem, zero_add]
  exact ⟨rfl, rfl⟩

theorem mulDiv128_eq (a b : UInt64) (h : 0 < divisor) :
    mulDiv128 a b divisor = UInt64.ofNat (a.toNat * b.toNat / divisor.toNat) := by
  have hvalue := (div12864_value (mul128 a b).2 (mul128 a b).1 h).1
  rw [mul128_value] at hvalue
  rw [mulDiv128, <- hvalue, <- UInt64.toNat_inj, UInt64.toNat_ofNat', base,
    Nat.add_mul_mod_self_left, Nat.mod_eq_of_lt (UInt64.toNat_lt _)]

end Beldex.Common
