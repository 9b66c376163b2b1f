import Mathlib.Data.List.Basic

/-!
# Partial reads

A bulk read looks up the elements of a list in order and stops at the first one
that is missing, so its result belongs to an initial part of the list.  The
results of several such reads can be put together, and they stay right when the
lookup learns more.
-/

namespace Beldex.Foundation

variable {α β : Type} {f g : α -> Option β} {l : List α} {xs ys : List β}

/-- The values of a partial function along a list, up to the first missing one. -/
def mapWhile (f : α -> Option β) : List α -> List β
  | [] => []
  | a :: rest =>
    match f a with
    | some b => b :: mapWhile f rest
    | none => []

/-- The results are the values of `f` on the first elements of the list. -/
def Reads (f : α -> Option β) (l : List α) (results : List β) : Prop :=
  forall (i : Nat) (b : β), results[i]? = some b -> exists a, l[i]? = some a ∧ f a = some b

namespace Reads

theorem nil (f : α -> Option β) (l : List α) : Reads f l [] := by
  intro i b hb
  simp at hb

theorem mapWhile (f : α -> Option β) (l : List α) : Reads f l (mapWhile f l) := by
  induction l with
  | nil => exact nil f []
  | cons a rest ih =>
    unfold Foundation.mapWhile
    cases hf : f a with
    | none => exact nil f (a :: rest)
    | some b =>
      intro i c hc
      cases i with
      | zero =>
        rw [List.getElem?_cons_zero] at hc
        exact ⟨a, rfl, hf.trans hc⟩
      | succ i =>
        rw [List.getElem?_cons_succ] at hc
        exact ih i c hc

theorem mono (h : Reads f l xs) (hfg : forall a b, f a = some b -> g a = some b) :
    Reads g l xs := by
  intro i b hb
  rcases h i b hb with ⟨a, ha, hf⟩
  exact ⟨a, ha, hfg a b hf⟩

theorem append (h : Reads f l xs) (hdrop : Reads f (l.drop xs.length) ys) :
    Reads f l (xs ++ ys) := by
  intro i b hb
  by_cases hi : i < xs.length
  · rw [List.getElem?_append_left hi] at hb
    exact h i b hb
  · rw [List.getElem?_append_right (Nat.le_of_not_lt hi)] at hb
    rcases hdrop _ b hb with ⟨a, ha, hf⟩
    rw [List.getElem?_drop] at ha
    refine ⟨a, ?_, hf⟩
    rw [<- ha]
    congr 1
    omega

end Reads

end Beldex.Foundation
