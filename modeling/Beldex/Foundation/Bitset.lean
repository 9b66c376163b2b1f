import Mathlib.Algebra.Group.Nat.Defs
import Mathlib.Data.Fin.Basic
import Mathlib.Data.List.FinRange

/-!
# Words as sets of positions

A machine word stands for the set of the positions of its one bits.  Code that
collects one value from each member of a group keeps such a word beside the
array of the values; `Records` says that the two agree.
-/

namespace Beldex.Foundation.Bitset

open List

/-- The word with the single bit `i`, which is zero beyond the width. -/
def bit (i : Nat) : UInt16 :=
  UInt16.ofNat (1 <<< i)

def has (s : UInt16) (i : Nat) : Bool :=
  s.toBitVec.getLsbD i

def count (s : UInt16) : Nat :=
  (range 16).countP (has s)

variable {s : UInt16} {i : Nat}

theorem has_of_le (h : 16 <= i) : has s i = false :=
  BitVec.getLsbD_of_ge s.toBitVec i h

@[simp]
theorem has_zero (i : Nat) : has 0 i = false := by
  simp [has]

theorem has_bit (i j : Nat) : has (bit i) j = (decide (j < 16) && decide (i = j)) := by
  unfold has bit
  rw [UInt16.toBitVec_ofNat', BitVec.getLsbD_ofNat, Nat.one_shiftLeft, Nat.testBit_two_pow]

@[simp]
theorem has_or (s t : UInt16) (i : Nat) : has (s ||| t) i = (has s i || has t i) := by
  simp [has]

@[simp]
theorem has_and (s t : UInt16) (i : Nat) : has (s &&& t) i = (has s i && has t i) := by
  simp [has]

theorem ext {t : UInt16} (h : forall i, has s i = has t i) : s = t := by
  apply UInt16.toBitVec_inj.mp
  apply BitVec.eq_of_getLsbD_eq
  intro i _
  exact h i

theorem bit_and_eq_zero : bit i &&& s = 0 <-> has s i = false := by
  constructor
  · intro h
    by_cases hi : i < 16
    · have hbit := congrArg (has · i) h
      simpa [has_bit, hi] using hbit
    · exact has_of_le (le_of_not_gt hi)
  · intro h
    apply ext
    intro j
    by_cases hij : i = j
    · subst hij
      simp [h]
    · simp [has_bit, hij]

variable {n : Nat}

/-- A word without positions from `n` on is below the power of two. -/
theorem toNat_lt (h : forall j, n <= j -> has s j = false) : s.toNat < 2 ^ n := by
  apply Nat.lt_pow_two_of_testBit
  intro j hj
  have hbit := h j hj
  rw [has, <- BitVec.testBit_toNat] at hbit
  exact hbit

/-! ## The positions that were heard from -/

/-- The word holds exactly the positions of an array at which a value is present. -/
def Records {n : Nat} (s : UInt16) (present : Fin n -> Bool) : Prop :=
  (forall i : Fin n, has s i = present i) ∧ forall j, n <= j -> has s j = false

variable {present : Fin n -> Bool}

theorem Records.none (h : forall i, present i = false) : Records 0 present := by
  constructor
  · intro i
    rw [has_zero, h]
  · intro j _
    exact has_zero j

theorem Records.insert (hn : n <= 16) {present' : Fin n -> Bool} (h : Records s present) (i : Fin n)
    (hpres : forall j, present' j = (present j || decide (i = j))) :
    Records (s ||| bit i) present' := by
  constructor
  · intro j
    have hj : j.val < 16 := lt_of_lt_of_le j.isLt hn
    rw [has_or, has_bit, h.1, hpres]
    simp [hj, Fin.ext_iff]
  · intro j hj
    have hne : i.val ≠ j := ne_of_lt (lt_of_lt_of_le i.isLt hj)
    rw [has_or, has_bit, h.2 j hj]
    simp [hne]

theorem Records.count_eq (hn : n <= 16) (h : Records s present) :
    count s = (finRange n).countP present := by
  have hsplit : range 16 = range n ++ (range (16 - n)).map (n + ·) := by
    rw [<- range_add, Nat.add_sub_cancel' hn]
  have hlow : (range n).countP (has s) = (finRange n).countP present := by
    rw [<- map_coe_finRange_eq_range, countP_map]
    apply countP_congr
    intro i _
    rw [Function.comp_apply, h.1 i]
  have hhigh : ((range (16 - n)).map (n + ·)).countP (has s) = 0 := by
    rw [countP_eq_zero]
    intro j hj
    rcases mem_map.mp hj with ⟨k, _, rfl⟩
    simp [h.2 (n + k) (Nat.le_add_right n k)]
  unfold count
  rw [hsplit, countP_append, hlow, hhigh, add_zero]

end Beldex.Foundation.Bitset
