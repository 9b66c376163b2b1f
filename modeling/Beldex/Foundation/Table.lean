import Mathlib.Data.List.Nodup
import Mathlib.Logic.Function.Basic

/-!
# Tables

Finite maps as lists of bindings in which no key occurs twice.  A new key goes
to the end and a known key keeps its place, so that the order of the bindings
is the order in which the keys were first bound.
-/

namespace Beldex.Foundation

open List

variable {κ υ β : Type} [DecidableEq κ]

structure Table (κ υ : Type) where
  entries : List (κ × υ)
  nodup : (entries.map Prod.fst).Nodup

namespace Table

/-! ## Lists of bindings -/

def find (k : κ) : List (κ × υ) -> Option υ
  | [] => none
  | entry :: rest => if entry.1 = k then some entry.2 else find k rest

def put (k : κ) (v : υ) : List (κ × υ) -> List (κ × υ)
  | [] => [(k, v)]
  | entry :: rest =>
    if entry.1 = k then (k, v) :: rest else entry :: put k v rest

theorem find_put (k k' : κ) (v : υ) (entries : List (κ × υ)) :
    find k' (put k v entries) = if k' = k then some v else find k' entries := by
  fun_induction put with
  | case1 => simp [find, eq_comm]
  | case2 entry rest hk =>
    unfold find
    rw [hk]
    simp only [eq_comm]
    split <;> rfl
  | case3 entry rest hk ih =>
    unfold find
    split
    next he =>
      rw [if_neg fun h => hk (he.trans h)]
    · exact ih

theorem mem_keys_put (k k' : κ) (v : υ) (entries : List (κ × υ)) :
    k' ∈ (put k v entries).map Prod.fst <-> k' = k ∨ k' ∈ entries.map Prod.fst := by
  fun_induction put with
  | case1 => simp
  | case2 entry rest hk => simp [hk]
  | case3 entry rest hk ih =>
    rw [map_cons, map_cons, mem_cons, mem_cons, ih]
    exact or_left_comm

theorem keys_put (k : κ) (v : υ) (entries : List (κ × υ)) :
    (put k v entries).map Prod.fst =
      if k ∈ entries.map Prod.fst then entries.map Prod.fst
      else entries.map Prod.fst ++ [k] := by
  fun_induction put with
  | case1 => rfl
  | case2 entry rest hk => rw [map_cons, map_cons, hk, if_pos mem_cons_self]
  | case3 entry rest hk ih =>
    have hmem : k ∈ (entry :: rest).map Prod.fst <-> k ∈ rest.map Prod.fst :=
      mem_cons.trans (or_iff_right (Ne.symm hk))
    rw [map_cons, ih]
    simp only [hmem]
    split <;> rfl

variable {entries : List (κ × υ)}

theorem nodup_put (k : κ) (v : υ) (h : (entries.map Prod.fst).Nodup) :
    ((put k v entries).map Prod.fst).Nodup := by
  fun_induction put with
  | case1 => simp
  | case2 entry rest hk => rwa [map_cons, <- hk]
  | case3 entry rest hk ih =>
    rw [map_cons, nodup_cons] at h ⊢
    rw [mem_keys_put]
    exact ⟨not_or.mpr ⟨hk, h.1⟩, ih h.2⟩

variable {k : κ} {v : υ}

theorem mem_of_find_eq_some (h : find k entries = some v) : (k, v) ∈ entries := by
  induction entries with
  | nil => cases h
  | cons entry rest ih =>
    unfold find at h
    split at h
    next hk =>
      cases h
      rw [<- hk]
      exact mem_cons_self
    · exact mem_cons_of_mem _ (ih h)

theorem find_filter (keep : κ -> Bool) (k : κ) (entries : List (κ × υ)) :
    find k (entries.filter fun entry => keep entry.1) =
      if keep k then find k entries else none := by
  induction entries with
  | nil => simp [find]
  | cons entry rest ih =>
    by_cases hkeep : keep entry.1 = true
    · rw [filter_cons, if_pos hkeep]
      unfold find
      rw [ih]
      split
      next hk =>
        rw [if_pos (hk ▸ hkeep)]
      · rfl
    · rw [filter_cons, if_neg hkeep, ih]
      by_cases hk : entry.1 = k
      · rw [if_neg (hk ▸ hkeep), if_neg (hk ▸ hkeep)]
      · simp [find, hk]

/-! ## The operations of a table -/

def empty : Table κ υ where
  entries := []
  nodup := nodup_nil

variable (t : Table κ υ)

def find? (k : κ) : Option υ :=
  find k t.entries

def set (k : κ) (v : υ) : Table κ υ where
  entries := put k v t.entries
  nodup := nodup_put k v t.nodup

@[simp] theorem find?_empty (k : κ) : (empty : Table κ υ).find? k = none := rfl

theorem keys_set (k : κ) (v : υ) :
    (t.set k v).entries.map Prod.fst =
      if k ∈ t.entries.map Prod.fst then t.entries.map Prod.fst
      else t.entries.map Prod.fst ++ [k] :=
  keys_put k v t.entries

theorem find?_set (k k' : κ) (v : υ) :
    (t.set k v).find? k' = if k' = k then some v else t.find? k' :=
  find_put k k' v t.entries

@[simp] theorem find?_set_self (k : κ) (v : υ) : (t.set k v).find? k = some v := by
  rw [find?_set, if_pos rfl]

theorem find?_set_of_ne {k' : κ} (v : υ) (h : k' ≠ k) : (t.set k v).find? k' = t.find? k' := by
  rw [find?_set, if_neg h]

theorem find?_set_cases {t : Table κ υ} {k' : κ} {w : υ} (h : (t.set k v).find? k' = some w) :
    (k' = k ∧ w = v) ∨ (k' ≠ k ∧ t.find? k' = some w) := by
  rw [find?_set] at h
  split at h
  next heq =>
    cases h
    exact Or.inl ⟨heq, rfl⟩
  next hne =>
    exact Or.inr ⟨hne, h⟩

def restrict (keep : κ -> Bool) : Table κ υ where
  entries := t.entries.filter fun entry => keep entry.1
  nodup := t.nodup.sublist (filter_sublist.map Prod.fst)

theorem find?_restrict (keep : κ -> Bool) (k : κ) :
    (t.restrict keep).find? k = if keep k then t.find? k else none :=
  find_filter keep k t.entries

theorem find?_restrict_eq_some {t : Table κ υ} {keep : κ -> Bool} :
    (t.restrict keep).find? k = some v <-> keep k = true ∧ t.find? k = some v := by
  rw [find?_restrict, Option.ite_none_right_eq_some]

theorem find?_restrict_eq_iff (keep : κ -> Bool) :
    (forall k, (t.restrict keep).find? k = t.find? k) <->
      forall k v, t.find? k = some v -> keep k = true := by
  constructor
  · intro h k v hfind
    have hk := h k
    rw [find?_restrict] at hk
    cases hkeep : keep k with
    | true => rfl
    | false => simp [hkeep, hfind] at hk
  · intro h k
    rw [find?_restrict]
    cases hfind : t.find? k with
    | none => simp
    | some v => rw [if_pos (h k v hfind)]

theorem find?_eq_some_of_mem {entry : κ × υ} (h : entry ∈ t.entries) :
    t.find? entry.1 = some entry.2 := by
  rcases t with ⟨entries, hnodup⟩
  unfold find?
  induction entries with
  | nil => cases h
  | cons first rest ih =>
    rw [map_cons, nodup_cons] at hnodup
    rcases mem_cons.mp h with rfl | hrest
    · simp [find]
    · have hne : first.1 ≠ entry.1 := by
        intro heq
        exact hnodup.1 (heq ▸ mem_map_of_mem hrest)
      simp only [find, if_neg hne]
      exact ih hnodup.2 hrest

theorem mem_of_find?_eq_some (h : t.find? k = some v) : (k, v) ∈ t.entries :=
  mem_of_find_eq_some h

def KeysIn (t' : Table κ υ) : Prop :=
  forall k, (t.find? k).isSome = true -> (t'.find? k).isSome = true

theorem KeysIn.refl : t.KeysIn t :=
  fun _ h => h

theorem KeysIn.trans {t t' t'' : Table κ υ} (h : t.KeysIn t') (h' : t'.KeysIn t'') : t.KeysIn t'' :=
  fun k hk => h' k (h k hk)

theorem keysIn_restrict (keep : κ -> Bool) : (t.restrict keep).KeysIn t := by
  intro k hk
  rw [find?_restrict] at hk
  cases hkeep : keep k with
  | true => simpa [hkeep] using hk
  | false => simp [hkeep] at hk

theorem keysIn_empty : (empty : Table κ υ).KeysIn t := by
  intro k hk
  cases hk

/-! ## Writing a table out -/

def writeAll (f : υ -> β) (g : κ -> Option β) : κ -> Option β :=
  t.entries.foldl (fun g entry => Function.update g entry.1 (some (f entry.2))) g

theorem foldl_update_of_not_mem (f : υ -> β) (g : κ -> Option β) (h : k ∉ entries.map Prod.fst) :
    (entries.foldl (fun (g : κ -> Option β) entry =>
      Function.update g entry.1 (some (f entry.2))) g) k = g k := by
  induction entries generalizing g with
  | nil => rfl
  | cons entry rest ih =>
    rw [map_cons, mem_cons, not_or] at h
    rw [foldl_cons, ih _ h.2, Function.update_of_ne h.1]

theorem writeAll_apply (f : υ -> β) (g : κ -> Option β) (k : κ) :
    t.writeAll f g k = match t.find? k with
      | some v => some (f v)
      | none => g k := by
  rcases t with ⟨entries, hnodup⟩
  unfold writeAll find?
  induction entries generalizing g with
  | nil => rfl
  | cons entry rest ih =>
    rw [map_cons, nodup_cons] at hnodup
    rw [foldl_cons]
    by_cases hk : entry.1 = k
    · subst hk
      rw [foldl_update_of_not_mem f _ hnodup.1, Function.update_self]
      simp [find]
    · rw [ih _ hnodup.2, Function.update_of_ne (Ne.symm hk)]
      simp [find, hk]

end Table

end Beldex.Foundation
