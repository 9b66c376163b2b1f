import Mathlib.Tactic.Ring
import Mathlib.Data.Nat.Bitwise

/-!
# Arithmetic on 64-bit limbs

Multi-word arithmetic on machine words: the carry out of an addition, and the value
of a row of limbs.  The lemmas state each operation as an equation on natural
numbers, so that an algorithm on limbs reduces to linear arithmetic.
-/

namespace Beldex.Foundation.Limbs

def base : Nat := 2 ^ 64

variable (a b : UInt64)

def carryOut : Bool :=
  decide (a + b < a)

def carryOutIn (c : Bool) : Bool :=
  decide (a + b < a) || (c && a + b == UInt64.ofNat (base - 1))

theorem toNat_lt : a.toNat < base :=
  a.toNat_lt

theorem carryOut_eq : carryOut a b = decide (base <= a.toNat + b.toNat) := by
  unfold carryOut base
  rw [decide_eq_decide, UInt64.lt_iff_toNat_lt, UInt64.toNat_add]
  have hb := b.toNat_lt
  omega

theorem carryOutIn_eq (c : Bool) :
    carryOutIn a b c = decide (base <= a.toNat + b.toNat + c.toNat) := by
  have hall : (a + b == UInt64.ofNat (base - 1)) =
      decide ((a.toNat + b.toNat) % 2 ^ 64 = 2 ^ 64 - 1) := by
    rw [beq_eq_decide, decide_eq_decide, <- UInt64.toNat_inj, UInt64.toNat_add]
    simp [base]
  have hsum := carryOut_eq a b
  unfold carryOut at hsum
  unfold carryOutIn
  rw [hall, hsum]
  unfold base at *
  cases c with
  | false =>
    simp
  | true =>
    rw [Bool.true_and, <- Bool.decide_or, decide_eq_decide, Bool.toNat_true]
    omega

theorem column_lt_iff {x r m : Nat} (hx : x < 2 * base) :
    x + base * r < base * m <-> r + (decide (base <= x)).toNat < m := by
  unfold base at *
  by_cases hcarry : 2 ^ 64 <= x
  · simp only [hcarry, decide_true, Bool.toNat_true]
    omega
  · simp only [hcarry, decide_false, Bool.toNat_false]
    omega

def value4 (a0 a1 a2 a3 : UInt64) : Nat :=
  a0.toNat + base * (a1.toNat + base * (a2.toNat + base * a3.toNat))

theorem value4_mul (a0 a1 a2 a3 d : UInt64) :
    value4 a0 a1 a2 a3 * d.toNat =
      a0.toNat * d.toNat + base * (a1.toNat * d.toNat +
        base * (a2.toNat * d.toNat + base * (a3.toNat * d.toNat))) := by
  unfold value4
  ring

theorem value4_extractLsb (w : BitVec 256) : value4 (UInt64.ofBitVec (w.extractLsb' 0 64))
      (UInt64.ofBitVec (w.extractLsb' 64 64))
      (UInt64.ofBitVec (w.extractLsb' 128 64))
      (UInt64.ofBitVec (w.extractLsb' 192 64)) = w.toNat := by
  unfold value4 base
  simp only [UInt64.toNat_ofBitVec, BitVec.extractLsb'_toNat, Nat.shiftRight_eq_div_pow]
  omega

end Beldex.Foundation.Limbs
