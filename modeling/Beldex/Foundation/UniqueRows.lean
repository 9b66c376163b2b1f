import Mathlib.Data.List.Nodup

/-!
# Rows under a unique index

A database table as the list of its rows in the order of their insertion, with
an index that refuses a second row of the same key.  Rows are added at the end
and deleted by a condition; `Grows` is what insertions alone do to a table, and
deleting by a condition that only the added rows meet takes them back.
-/

namespace Beldex.Foundation

open List

variable {ρ κ : Type} {key : ρ -> κ}

@[ext]
structure UniqueRows (key : ρ -> κ) where
  rows : List ρ
  nodup : (rows.map key).Nodup

namespace UniqueRows

def empty (key : ρ -> κ) : UniqueRows key where
  rows := []
  nodup := nodup_nil

def insert? [DecidableEq κ] (t : UniqueRows key) (row : ρ) : Option (UniqueRows key) :=
  if h : key row ∈ t.rows.map key then
    none
  else
    some
      { rows := t.rows ++ [row]
        nodup := by
          rw [map_append, nodup_append']
          refine ⟨t.nodup, nodup_singleton _, ?_⟩
          intro k hk hrow
          rw [map_singleton, mem_singleton] at hrow
          exact h (hrow ▸ hk) }

def deleteWhere (t : UniqueRows key) (condition : ρ -> Bool) : UniqueRows key where
  rows := t.rows.filter fun row => !condition row
  nodup := t.nodup.sublist (filter_sublist.map key)

variable {t' t : UniqueRows key} {row : ρ}

theorem rows_insert? [DecidableEq κ] (h : t.insert? row = some t') : t'.rows = t.rows ++ [row] := by
  unfold insert? at h
  split at h
  · cases h
  · cases h
    rfl

variable {condition : ρ -> Bool}

theorem mem_rows_deleteWhere :
    row ∈ (t.deleteWhere condition).rows <-> row ∈ t.rows ∧ condition row = false := by
  simp [deleteWhere]

/-! ## Tables that only grow -/

/-- The second table has the rows of the first and then others with a property. -/
def Grows (p : ρ -> Prop) (t t' : UniqueRows key) : Prop :=
  exists added, t'.rows = t.rows ++ added ∧ forall row, row ∈ added -> p row

theorem Grows.refl (p : ρ -> Prop) (t : UniqueRows key) : Grows p t t :=
  ⟨[], (append_nil t.rows).symm, fun _ h => absurd h not_mem_nil⟩

variable {p : ρ -> Prop}

theorem Grows.trans {t'' : UniqueRows key} (h : Grows p t t') (h' : Grows p t' t'') :
    Grows p t t'' := by
  rcases h with ⟨added, hrows, hadded⟩
  rcases h' with ⟨added', hrows', hadded'⟩
  refine ⟨added ++ added', ?_, ?_⟩
  · rw [hrows', hrows, append_assoc]
  · intro row hrow
    rcases mem_append.mp hrow with hfirst | hsecond
    · exact hadded row hfirst
    · exact hadded' row hsecond

theorem Grows.mono {q : ρ -> Prop} (hpq : forall row, p row -> q row) (h : Grows p t t') :
    Grows q t t' := by
  rcases h with ⟨added, hrows, hadded⟩
  exact ⟨added, hrows, fun row hrow => hpq row (hadded row hrow)⟩

theorem Grows.of_insert? [DecidableEq κ] (hrow : p row) (h : t.insert? row = some t') :
    Grows p t t' := by
  refine ⟨[row], rows_insert? h, ?_⟩
  intro r hr
  rw [mem_singleton] at hr
  exact hr ▸ hrow

theorem Grows.forall_rows {q : ρ -> Prop} (h : Grows p t t')
    (hold : forall row, row ∈ t.rows -> q row) (hpq : forall row, p row -> q row) :
    forall row, row ∈ t'.rows -> q row := by
  rcases h with ⟨added, hrows, hadded⟩
  intro row hrow
  rw [hrows, mem_append] at hrow
  rcases hrow with hfirst | hsecond
  · exact hold row hfirst
  · exact hpq row (hadded row hsecond)

/-- What was added is taken back by a condition that the added rows meet; of the old
rows the condition takes what it would have taken before. -/
theorem Grows.deleteWhere_eq (h : Grows (fun row => condition row = true) t t') :
    t'.deleteWhere condition = t.deleteWhere condition := by
  rcases h with ⟨added, hrows, hadded⟩
  have hnone : added.filter (fun row => !condition row) = [] := by
    apply filter_eq_nil_iff.mpr
    intro row hrow
    simp [hadded row hrow]
  apply UniqueRows.ext
  simp only [deleteWhere, hrows, filter_append, hnone, append_nil]

theorem deleteWhere_eq_self (h : forall row, row ∈ t.rows -> condition row = false) :
    t.deleteWhere condition = t := by
  apply UniqueRows.ext
  apply filter_eq_self.mpr
  intro row hrow
  rw [h row hrow, Bool.not_false]

end UniqueRows

end Beldex.Foundation
