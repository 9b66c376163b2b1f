import Mathlib.Data.List.Nodup
import Mathlib.Data.List.Perm.Subperm

/-!
# Counting

Two ways of counting the same records, and by how much they differ.
-/

namespace Beldex.Foundation.Counting

open List

variable {α : Type}

theorem countP_add_countP_and_not (p q : α -> Bool) (l : List α) :
    l.countP p + l.countP (fun a => q a && !p a) =
      l.countP q + l.countP (fun a => p a && !q a) := by
  induction l with
  | nil => rfl
  | cons a rest ih =>
    have hhead : (if p a then 1 else 0) + (if q a && !p a then 1 else 0) =
        (if q a then 1 else 0) + (if p a && !q a then 1 else 0) := by
      cases p a <;> cases q a <;> rfl
    simp only [countP_cons]
    omega

theorem countP_eq_add_countP_and (p q : α -> Bool) (l : List α) :
    l.countP p = l.countP (fun a => p a && q a) + l.countP (fun a => p a && !q a) := by
  have h := countP_add_countP_and_not p (fun a => p a && q a) l
  have hnone : l.countP (fun a => p a && q a && !p a) = 0 := by
    rw [countP_eq_zero]
    intro a _
    cases p a <;> simp
  have hrest : l.countP (fun a => p a && !(p a && q a)) = l.countP (fun a => p a && !q a) := by
    apply countP_congr
    intro a _
    cases p a <;> simp
  rw [hnone, hrest, Nat.add_zero] at h
  exact h

theorem countP_le_add {p q r : α -> Bool} {l : List α}
    (h : forall a, p a = true -> q a = true ∨ r a = true) :
    l.countP p <= l.countP q + l.countP r := by
  induction l with
  | nil => exact Nat.le_refl 0
  | cons a rest ih =>
    have hhead : (if p a then 1 else 0) <= (if q a then 1 else 0) + if r a then 1 else 0 := by
      cases hp : p a with
      | false => simp
      | true =>
        rcases h a hp with hq | hr
        · simp [hq]
        · simp [hr]
    simp only [countP_cons]
    omega

theorem countP_any_le (key : α -> Nat) (p : α -> Bool) (good : Nat -> Bool) (l : List α)
    {keys : List Nat} (hkeys : keys.Nodup) :
    keys.countP (fun n => good n && l.any fun a => p a && key a == n) <= l.countP p := by
  rw [countP_eq_length_filter, countP_eq_length_filter, <- length_map (f := key)]
  refine (subperm_of_subset (hkeys.filter _) ?_).length_le
  intro n hn
  simp only [mem_filter, Bool.and_eq_true, any_eq_true, beq_iff_eq] at hn
  rcases hn with ⟨_, _, a, ha, hp, rfl⟩
  exact mem_map_of_mem (mem_filter.mpr ⟨ha, hp⟩)

end Beldex.Foundation.Counting
