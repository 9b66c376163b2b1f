import Mathlib.Data.List.Basic

/-!
# Bisection

Looking for the first item of a list that does not lie before a given place, by
halving the part of the list that is left.  On a list whose items before the place
come first, the search finds the boundary.
-/

namespace Beldex.Foundation.Bisection

open List

variable {α : Type}

/-- Search the given number of positions from the first one on; the fuel bounds the
rounds. -/
def bisect (before : α -> Bool) (items : List α) : Nat -> Nat -> Nat -> Nat
  | 0, first, _ => first
  | fuel + 1, first, count =>
    if count = 0 then
      first
    else
      let half := count / 2
      if (items[first + half]?).any before then
        bisect before items fuel (first + half + 1) (count - half - 1)
      else
        bisect before items fuel first half

def lowerBound (before : α -> Bool) (items : List α) : Nat :=
  bisect before items items.length 0 items.length

/-- A list that is split at the place: first the items before it, then the others. -/
structure SplitAt (before : α -> Bool) (low high : List α) : Prop where
  low : forall a, a ∈ low -> before a = true
  high : forall a, a ∈ high -> before a = false

variable {before : α -> Bool} {low high : List α}

theorem SplitAt.any_getElem? (h : SplitAt before low high) {i : Nat}
    (hi : i < (low ++ high).length) :
    ((low ++ high)[i]?).any before = decide (i < low.length) := by
  by_cases hlow : i < low.length
  · rw [getElem?_append_left hlow, getElem?_eq_getElem hlow, decide_eq_true hlow]
    exact h.low _ (getElem_mem hlow)
  · have hhigh : i - low.length < high.length := by
      rw [length_append] at hi
      omega
    rw [getElem?_append_right (Nat.not_lt.mp hlow), getElem?_eq_getElem hhigh, decide_eq_false hlow]
    exact h.high _ (getElem_mem hhigh)

theorem SplitAt.bisect_eq (h : SplitAt before low high) {fuel first count : Nat}
    (hfuel : count <= fuel) (hfirst : first <= low.length) (hlast : low.length <= first + count)
    (hend : first + count <= (low ++ high).length) :
    bisect before (low ++ high) fuel first count = low.length := by
  induction fuel generalizing first count with
  | zero =>
    unfold bisect
    omega
  | succ fuel ih =>
    unfold bisect
    split
    · omega
    · simp only
      rw [h.any_getElem? (by omega)]
      by_cases hmiddle : first + count / 2 < low.length
      · rw [if_pos (decide_eq_true hmiddle)]
        exact ih (by omega) (by omega) (by omega) (by omega)
      · rw [if_neg (by simpa using hmiddle)]
        exact ih (by omega) hfirst (by omega) (by omega)

theorem SplitAt.lowerBound_eq (h : SplitAt before low high) :
    lowerBound before (low ++ high) = low.length := by
  refine h.bisect_eq (Nat.le_refl _) (Nat.zero_le _) ?_ (Nat.le_of_eq (Nat.zero_add _))
  rw [length_append]
  omega

theorem getElem?_lowerBound {rank : α -> Nat} {items : List α}
    (hitems : items.Pairwise fun a b => rank a < rank b) {a : α} (ha : a ∈ items) :
    items[lowerBound (fun b => decide (rank b < rank a)) items]? = some a := by
  rcases append_of_mem ha with ⟨low, high, rfl⟩
  rw [pairwise_append, pairwise_cons] at hitems
  have hsplit : SplitAt (fun b => decide (rank b < rank a)) low (a :: high) := by
    refine ⟨?_, forall_mem_cons.mpr ⟨decide_eq_false (Nat.lt_irrefl _), ?_⟩⟩
    · intro b hb
      exact decide_eq_true (hitems.2.2 b hb a mem_cons_self)
    · intro b hb
      exact decide_eq_false (Nat.lt_asymm (hitems.2.1.1 b hb))
  rw [hsplit.lowerBound_eq, getElem?_append_right (Nat.le_refl _), Nat.sub_self]
  rfl

end Beldex.Foundation.Bisection
