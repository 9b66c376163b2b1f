import Mathlib.Data.ZMod.Basic
import Mathlib.Algebra.BigOperators.Group.List.Basic
import Mathlib.Algebra.Order.BigOperators.Group.List

/-!
# Sums of small residues

An equation between sums of residues says nothing about integers in general,
since sums wrap around.  When every residue has a small representative and there
are few of them, the sums cannot reach the modulus, and the equation holds for
the representatives too.
-/

namespace Beldex.Foundation.Residues

variable {n : Nat}

def total (xs : List (ZMod n)) : Nat :=
  (xs.map ZMod.val).sum

theorem total_le {xs : List (ZMod n)} {b : Nat} (h : forall x, x ∈ xs -> x.val <= b) :
    total xs <= xs.length * b := by
  unfold total
  have hsum := List.sum_le_card_nsmul (xs.map ZMod.val) b (by
    intro v hv
    rcases List.mem_map.mp hv with ⟨x, hx, rfl⟩
    exact h x hx)
  simpa using hsum

theorem cast_total [NeZero n] (xs : List (ZMod n)) : ((total xs : Nat) : ZMod n) = xs.sum := by
  unfold total
  induction xs with
  | nil => simp
  | cons x rest ih => simp [ih]

theorem intCast_eq_zero_iff {k : Int} (h : k.natAbs < n) : ((k : Int) : ZMod n) = 0 <-> k = 0 := by
  rw [ZMod.intCast_zmod_eq_zero_iff_dvd]
  constructor
  · intro hdvd
    exact Int.eq_zero_of_dvd_of_natAbs_lt_natAbs hdvd (by simpa using h)
  · rintro rfl
    exact dvd_zero _

theorem sum_sub_sum_eq_iff [NeZero n] {xs ys : List (ZMod n)} {k : Int} {b : Nat}
    (hx : forall x, x ∈ xs -> x.val <= b) (hy : forall y, y ∈ ys -> y.val <= b)
    (hsize : xs.length * b + ys.length * b + k.natAbs < n) :
    xs.sum - ys.sum = ((k : Int) : ZMod n) <-> (total xs : Int) - total ys = k := by
  have hxs := total_le hx
  have hys := total_le hy
  have hsmall : ((total xs : Int) - total ys - k).natAbs < n := by
    omega
  rw [<- cast_total xs, <- cast_total ys, <- sub_eq_zero, <- sub_eq_zero (b := k),
    <- intCast_eq_zero_iff hsmall]
  push_cast
  rfl

end Beldex.Foundation.Residues
