import Mathlib.Algebra.Order.BigOperators.Group.List
import Mathlib.Algebra.Order.Monoid.Canonical.Defs
import Mathlib.Algebra.Order.Ring.Nat

/-!
# Sums over the records of a list

A total that is kept beside a list of records, and what replacing one of the
records does to it.
-/

namespace Beldex.Foundation.Sums

open List

variable {α : Type} (f : α -> Nat)

def total (l : List α) : Nat :=
  (l.map f).sum

theorem total_append (l l' : List α) : total f (l ++ l') = total f l + total f l' := by
  unfold total
  rw [map_append, sum_append]

@[simp] theorem total_cons (a : α) (l : List α) : total f (a :: l) = f a + total f l := by
  unfold total
  rw [map_cons, sum_cons]

@[simp] theorem total_nil : total f [] = 0 := rfl

theorem total_add (g : α -> Nat) (l : List α) :
    total (fun a => f a + g a) l = total f l + total g l :=
  sum_map_add

variable {l : List α} {a : α}

theorem le_total_of_mem (h : a ∈ l) : f a <= total f l :=
  le_sum_of_mem (mem_map_of_mem h)

theorem total_perm {l' : List α} (h : l.Perm l') : total f l = total f l' :=
  (h.map f).sum_eq

theorem total_set {i : Nat} (h : i < l.length) (a b : α) :
    total f (l.set i a) + f (l.getD i b) = total f l + f a := by
  induction l generalizing i with
  | nil => exact absurd h (Nat.not_lt_zero i)
  | cons c rest ih =>
    cases i with
    | zero =>
      simp only [set_cons_zero, getD_cons_zero, total_cons]
      omega
    | succ i =>
      have hrest := ih (Nat.lt_of_succ_lt_succ h)
      simp only [set_cons_succ, getD_cons_succ, total_cons]
      omega

theorem total_le_total (g : α -> Nat) (h : forall a, a ∈ l -> f a <= g a) :
    total f l <= total g l :=
  sum_le_sum h

theorem total_add_le_total_add (g : α -> Nat) (h : forall a, a ∈ l -> f a <= g a) (ha : a ∈ l) :
    total f l + g a <= total g l + f a := by
  induction l with
  | nil => exact absurd ha not_mem_nil
  | cons b rest ih =>
    have hb := h b mem_cons_self
    have hrest : forall c, c ∈ rest -> f c <= g c := fun c hc =>
      h c (mem_cons_of_mem b hc)
    simp only [total_cons]
    rcases mem_cons.mp ha with rfl | ha
    · have htotal := total_le_total f g hrest
      omega
    · have hgap := ih hrest ha
      omega

/-- The records with a property, counted: at most all of them, and all of them only when
every record has it. -/
theorem total_indicator_iff (p : α -> Prop) [DecidablePred p] (l : List α) :
    total (fun a => if p a then 1 else 0) l <= l.length ∧
      (total (fun a => if p a then 1 else 0) l = l.length <-> forall a, a ∈ l -> p a) := by
  induction l with
  | nil => simp
  | cons a rest ih =>
    rcases ih with ⟨hle, hall⟩
    rw [total_cons, length_cons, forall_mem_cons]
    by_cases ha : p a
    · rw [if_pos ha, <- hall]
      simp only [ha, true_and]
      omega
    · rw [if_neg ha]
      simp only [ha, false_and, iff_false]
      omega

/-! ## Rounded shares -/

theorem total_div_add_total_mod (s d : Nat) (l : List α) :
    d * total (fun a => s * f a / d) l + total (fun a => s * f a % d) l = s * total f l := by
  induction l with
  | nil => simp
  | cons a rest ih =>
    have hdiv := Nat.div_add_mod (s * f a) d
    simp only [total_cons, Nat.mul_add]
    omega

theorem total_eq_zero_iff (l : List α) : total f l = 0 <-> forall a, a ∈ l -> f a = 0 := by
  unfold total
  rw [sum_eq_zero_iff]
  simp

variable {d : Nat}

theorem total_div_le (s : Nat) (hd : 0 < d) (h : total f l <= d) :
    total (fun a => s * f a / d) l <= s := by
  have hsplit := total_div_add_total_mod f s d l
  have hle : s * total f l <= s * d := Nat.mul_le_mul_left s h
  refine Nat.le_of_mul_le_mul_left ?_ hd
  calc
    d * total (fun a => s * f a / d) l <= s * total f l := by omega
    _ <= s * d := hle
    _ = d * s := mul_comm s d

theorem total_div_eq_iff (s : Nat) (hd : 0 < d) (h : total f l = d) :
    total (fun a => s * f a / d) l = s <-> forall a, a ∈ l -> d ∣ s * f a := by
  have hsplit := total_div_add_total_mod f s d l
  rw [h, mul_comm s d] at hsplit
  have hmods : total (fun a => s * f a % d) l = 0 <-> forall a, a ∈ l -> d ∣ s * f a := by
    rw [total_eq_zero_iff]
    simp only [Nat.dvd_iff_mod_eq_zero]
  rw [<- hmods]
  constructor
  · intro hshares
    rw [hshares] at hsplit
    omega
  · intro hzero
    exact Nat.eq_of_mul_eq_mul_left hd (by omega)

theorem le_total_div_add_length (s : Nat) (hd : 0 < d) (h : total f l = d) :
    s <= total (fun a => s * f a / d) l + l.length := by
  have hsplit := total_div_add_total_mod f s d l
  have hmods : total (fun a => s * f a % d) l <= d * l.length := by
    have hle := total_le_total (fun a => s * f a % d) (fun _ => d) (l := l) fun a _ =>
      le_of_lt (Nat.mod_lt _ hd)
    have hconst : total (fun _ => d) l = d * l.length := by
      unfold total
      rw [map_const', sum_replicate, mul_comm]
      rfl
    rwa [hconst] at hle
  refine Nat.le_of_mul_le_mul_left ?_ hd
  rw [Nat.mul_add, mul_comm d s, <- h, <- hsplit, h]
  exact Nat.add_le_add_left hmods _

theorem total_unique {κ : Type} [DecidableEq κ] (key : α -> κ) {k : κ} (hdist : (l.map key).Nodup)
    (hmem : k ∈ l.map key) (n : Nat) : total (fun a => if key a = k then n else 0) l = n := by
  induction l with
  | nil => exact absurd hmem not_mem_nil
  | cons a rest ih =>
    rw [map_cons, nodup_cons] at hdist
    rw [total_cons]
    by_cases hkey : key a = k
    · have hothers : total (fun a => if key a = k then n else 0) rest = 0 := by
        rw [total_eq_zero_iff]
        intro b hb
        refine if_neg fun hb' => hdist.1 ?_
        rw [hkey, <- hb']
        exact mem_map_of_mem hb
      rw [if_pos hkey, hothers]
      omega
    · rw [map_cons] at hmem
      have hrest : k ∈ rest.map key :=
        (mem_cons.mp hmem).resolve_left fun h => hkey h.symm
      rw [if_neg hkey, ih hdist.2 hrest]
      omega

end Beldex.Foundation.Sums
