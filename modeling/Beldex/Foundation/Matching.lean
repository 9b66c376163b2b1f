import Mathlib.Algebra.BigOperators.Group.List.Basic
import Mathlib.Data.List.Forall2

/-!
# Matched lists

Two lists whose elements are related one by one.
-/

namespace Beldex.Foundation.Matching

open List

variable {α β M : Type} {R : α -> β -> Prop} {as : List α}

theorem exists_forall₂ (h : forall a, a ∈ as -> exists b, R a b) : exists bs, Forall₂ R as bs := by
  induction as with
  | nil => exact ⟨[], .nil⟩
  | cons a rest ih =>
    rcases h a mem_cons_self with ⟨b, hb⟩
    rcases ih fun a' ha' => h a' (mem_cons_of_mem a ha') with ⟨bs, hbs⟩
    exact ⟨b :: bs, .cons hb hbs⟩

variable {bs : List β}

theorem exists_right_of_mem (h : Forall₂ R as bs) {a : α} (ha : a ∈ as) :
    exists b, b ∈ bs ∧ R a b := by
  induction h with
  | nil => cases ha
  | cons hab _ ih =>
    rcases mem_cons.mp ha with rfl | ha
    · exact ⟨_, mem_cons_self, hab⟩
    · rcases ih ha with ⟨b, hb, hR⟩
      exact ⟨b, mem_cons_of_mem _ hb, hR⟩

theorem exists_left_of_getElem? (h : Forall₂ R as bs) {i : Nat} {b : β} (hb : bs[i]? = some b) :
    exists a, as[i]? = some a ∧ R a b := by
  induction h generalizing i with
  | nil => simp at hb
  | cons hab _ ih =>
    cases i with
    | zero =>
      rw [getElem?_cons_zero, Option.some.injEq] at hb
      subst hb
      exact ⟨_, rfl, hab⟩
    | succ i =>
      rw [getElem?_cons_succ] at hb
      exact ih hb

theorem sum_map_eq [AddMonoid M] (h : Forall₂ R as bs) {f : α -> M} {g : β -> M}
    (hfg : forall a b, R a b -> f a = g b) : (as.map f).sum = (bs.map g).sum := by
  induction h with
  | nil => rfl
  | cons hab _ ih => rw [map_cons, map_cons, sum_cons, sum_cons, hfg _ _ hab, ih]

theorem forall₂_filter_filterMap {f : α -> Option β} {p : α -> Bool} (l : List α)
    (h : forall a, a ∈ l -> (f a).isSome = p a) :
    List.Forall₂ (fun a b => f a = some b) (l.filter p) (l.filterMap f) := by
  induction l with
  | nil => exact .nil
  | cons a rest ih =>
    have hrest := ih fun b hb => h b (List.mem_cons_of_mem _ hb)
    have hhead := h a (List.mem_cons_self ..)
    cases hf : f a with
    | none =>
      rw [hf] at hhead
      rw [List.filter_cons_of_neg (by simp [<- hhead]), List.filterMap_cons_none hf]
      exact hrest
    | some b =>
      rw [hf] at hhead
      rw [List.filter_cons_of_pos (by simp [<- hhead]), List.filterMap_cons_some hf]
      exact .cons hf hrest

end Beldex.Foundation.Matching
