import Mathlib.Data.List.Nodup
import Mathlib.Data.List.Perm.Subperm
import Mathlib.Data.List.Range
import Mathlib.Data.List.Sort

/-!
# Lists ordered by a rank

A list in which every entry has its own rank and the ranks ascend.  An entry is
inserted before the first entry that does not rank below it, unless that one has
the same rank.
-/

namespace Beldex.Foundation.Ranked

open List

variable {α : Type} {rank : α -> Nat}

def Ascending (rank : α -> Nat) (entries : List α) : Prop :=
  entries.Pairwise fun a b => rank a < rank b

variable {entries : List α}

theorem Ascending.nodup (h : Ascending rank entries) : (entries.map rank).Nodup := by
  rw [List.Nodup, pairwise_map]
  exact h.imp fun hlt => ne_of_lt hlt

theorem length_le_of_ranks_subset {β : Type} {rank' : β -> Nat} {others : List β}
    (h : (entries.map rank).Nodup)
    (hsubset : forall entry, entry ∈ entries -> rank entry ∈ others.map rank') :
    entries.length <= others.length := by
  have hranks : entries.map rank ⊆ others.map rank' := by
    intro r hr
    rcases mem_map.mp hr with ⟨entry, hent, rfl⟩
    exact hsubset entry hent
  have hlen := (subperm_of_subset h hranks).length_le
  rwa [length_map, length_map] at hlen

theorem length_le_of_rank_lt {bound : Nat} (h : (entries.map rank).Nodup)
    (hbound : forall entry, entry ∈ entries -> rank entry < bound) : entries.length <= bound := by
  have hranks : entries.map rank ⊆ range bound := by
    intro r hr
    rcases mem_map.mp hr with ⟨entry, hent, rfl⟩
    exact mem_range.mpr (hbound entry hent)
  have hlen := (subperm_of_subset h hranks).length_le
  rwa [length_map, length_range] at hlen

/-! ## Sorting -/

def sortByRank (rank : α -> Nat) (entries : List α) : List α :=
  entries.insertionSort fun a b => rank a <= rank b

theorem sortByRank_perm (entries : List α) : (sortByRank rank entries).Perm entries :=
  perm_insertionSort _ _

theorem pairwise_sortByRank (rank : α -> Nat) (entries : List α) :
    (sortByRank rank entries).Pairwise fun a b => rank a <= rank b := by
  exact pairwise_insertionSort _ _

theorem ascending_sortByRank (h : (entries.map rank).Nodup) :
    Ascending rank (sortByRank rank entries) := by
  have hsort := pairwise_sortByRank rank entries
  have hnodup : ((sortByRank rank entries).map rank).Nodup :=
    (((sortByRank_perm entries).map rank).nodup_iff).mpr h
  rw [List.Nodup, pairwise_map] at hnodup
  exact (hsort.and hnodup).imp fun ⟨hle, hne⟩ => Nat.lt_of_le_of_ne hle hne

theorem getLast?_sortByRank {top : α} (h : (sortByRank rank entries).getLast? = some top) :
    top ∈ entries ∧ forall entry, entry ∈ entries -> rank entry <= rank top := by
  have hsort := pairwise_sortByRank rank entries
  have hsplit := dropLast_append_getLast? top h
  have hmem : forall entry, entry ∈ entries <-> entry ∈ sortByRank rank entries :=
    fun entry => (sortByRank_perm entries).mem_iff.symm
  rw [<- hsplit, pairwise_append] at hsort
  constructor
  · exact (hmem top).mpr (mem_of_getLast? h)
  · intro entry hent
    have hin := (hmem entry).mp hent
    rw [<- hsplit, mem_append, mem_singleton] at hin
    rcases hin with hin | rfl
    · exact hsort.2.2 entry hin top (mem_singleton.mpr rfl)
    · exact le_refl _

theorem head?_sortByRank {bottom : α} (h : (sortByRank rank entries).head? = some bottom) :
    forall entry, entry ∈ entries -> rank bottom <= rank entry := by
  intro entry hent
  have hsort := pairwise_sortByRank rank entries
  have hin : entry ∈ sortByRank rank entries := (sortByRank_perm entries).mem_iff.mpr hent
  rcases head?_eq_some_iff.mp h with ⟨rest, hsplit⟩
  rw [hsplit] at hsort hin
  rcases mem_cons.mp hin with rfl | hrest
  · exact le_refl _
  · exact (pairwise_cons.mp hsort).1 entry hrest

/-- In a descending list with two entries of different ranks the second entry is not below
the lower one. -/
theorem exists_two_of_descending {lower upper : α}
    (h : entries.Pairwise fun a b => rank b <= rank a) (hlower : lower ∈ entries)
    (hupper : upper ∈ entries) (hlt : rank lower < rank upper) :
    exists first second rest, entries = first :: second :: rest ∧
      rank upper <= rank first ∧ rank lower <= rank second := by
  cases entries with
  | nil => cases hlower
  | cons first rest =>
    rcases pairwise_cons.mp h with ⟨hfirst, hrest⟩
    have hupperFirst : rank upper <= rank first := by
      rcases mem_cons.mp hupper with rfl | hin
      · exact le_refl _
      · exact hfirst upper hin
    rcases mem_cons.mp hlower with rfl | hin
    · omega
    · cases rest with
      | nil => cases hin
      | cons second others =>
        refine ⟨first, second, others, rfl, hupperFirst, ?_⟩
        rcases mem_cons.mp hin with rfl | hothers
        · exact le_refl _
        · exact (pairwise_cons.mp hrest).1 lower hothers

variable {entry : α}

/-- The position of an entry counts the entries that rank below it, and is counted by those
that do not rank above it. -/
theorem position_bounds (h : entries.Pairwise fun a b => rank a <= rank b) {i : Nat}
    (hent : entries[i]? = some entry) :
    entries.countP (fun a => rank a < rank entry) <= i ∧
      i < entries.countP fun a => rank a <= rank entry := by
  rcases List.getElem?_eq_some_iff.mp hent with ⟨hi, rfl⟩
  have hsplit := take_append_drop i entries
  rw [drop_eq_getElem_cons hi] at hsplit
  generalize entries[i] = entry at hsplit
  have hlen : (entries.take i).length = i := length_take_of_le (le_of_lt hi)
  rw [<- hsplit] at h ⊢
  rcases pairwise_append.mp h with ⟨_, hafter, hacross⟩
  have hbef : (entries.take i).countP (fun a => rank a <= rank entry) = i := by
    rw [countP_eq_length.mpr, hlen]
    intro a ha
    exact decide_eq_true (hacross a ha entry mem_cons_self)
  have habove : (entry :: entries.drop (i + 1)).countP (fun a => rank a < rank entry) = 0 := by
    rw [countP_eq_zero]
    intro a ha hlt
    have hlt := of_decide_eq_true hlt
    rcases mem_cons.mp ha with rfl | ha
    · exact lt_irrefl _ hlt
    · exact Nat.not_le_of_lt hlt ((pairwise_cons.mp hafter).1 a ha)
  rw [countP_append, countP_append, habove, hbef, countP_cons]
  have hle := (entries.take i).countP_le_length (p := fun a => decide (rank a < rank entry))
  have hself : decide (rank entry <= rank entry) = true := decide_eq_true (le_refl _)
  rw [if_pos hself]
  omega

/-! ## Insertion -/

def insertUnique (rank : α -> Nat) (entry : α) : List α -> Option (List α)
  | [] => some [entry]
  | first :: rest =>
    if rank first < rank entry then (insertUnique rank entry rest).map (first :: ·)
    else if rank first = rank entry then none
    else some (entry :: first :: rest)

theorem rank_mem_of_insertUnique_eq_none (h : insertUnique rank entry entries = none) :
    rank entry ∈ entries.map rank := by
  fun_induction insertUnique rank entry entries with
  | case1 => cases h
  | case2 first rest hbelow ih => exact mem_cons_of_mem _ (ih (Option.map_eq_none_iff.mp h))
  | case3 first rest hbelow hsame =>
    rw [<- hsame]
    exact mem_cons_self
  | case4 => cases h

theorem mem_insertUnique {inserted : List α} (h : insertUnique rank entry entries = some inserted)
    (other : α) : other ∈ inserted <-> other = entry ∨ other ∈ entries := by
  fun_induction insertUnique rank entry entries generalizing inserted with
  | case1 | case4 =>
    cases h
    exact mem_cons
  | case2 first rest hbelow ih =>
    rcases Option.map_eq_some_iff.mp h with ⟨tail, htail, rfl⟩
    rw [mem_cons, mem_cons, ih htail]
    exact or_left_comm
  | case3 => cases h

theorem Ascending.insertUnique {inserted : List α} (hascending : Ascending rank entries)
    (h : insertUnique rank entry entries = some inserted) : Ascending rank inserted := by
  fun_induction Ranked.insertUnique rank entry entries generalizing inserted with
  | case1 =>
    cases h
    exact pairwise_singleton _ _
  | case2 first rest hbelow ih =>
    rcases pairwise_cons.mp hascending with ⟨hfirst, hrest⟩
    rcases Option.map_eq_some_iff.mp h with ⟨tail, htail, rfl⟩
    refine pairwise_cons.mpr ⟨?_, ih hrest htail⟩
    intro other hother
    rcases (mem_insertUnique htail other).mp hother with rfl | hold
    · exact hbelow
    · exact hfirst other hold
  | case3 => cases h
  | case4 first rest hbelow hsame =>
    cases h
    have habove : rank entry < rank first := by omega
    refine pairwise_cons.mpr ⟨forall_mem_cons.mpr ⟨habove, ?_⟩, hascending⟩
    intro other hold
    exact lt_trans habove ((pairwise_cons.mp hascending).1 other hold)

/-! ## Merging -/

/-- Insert entries one after the other, skipping the ranks that are taken, and
say whether one was inserted. -/
def mergeUnique (rank : α -> Nat) (entries : List α) : List α -> List α × Bool
  | [] => (entries, false)
  | entry :: rest =>
    match insertUnique rank entry entries with
    | none => mergeUnique rank entries rest
    | some inserted => ((mergeUnique rank inserted rest).1, true)

structure Merged (rank : α -> Nat) (entries added merged : List α) : Prop where
  ascending : Ascending rank merged
  mem : forall entry, entry ∈ merged -> entry ∈ entries ∨ entry ∈ added
  old : forall entry, entry ∈ entries -> entry ∈ merged
  ranks : forall entry, entry ∈ added -> rank entry ∈ merged.map rank

theorem merged_mergeUnique (h : Ascending rank entries) (added : List α) :
    Merged rank entries added (mergeUnique rank entries added).1 := by
  induction added generalizing entries with
  | nil =>
    refine ⟨h, fun _ => .inl, fun _ => id, ?_⟩
    intro entry hent
    cases hent
  | cons first rest ih =>
    unfold mergeUnique
    cases hinsert : insertUnique rank first entries with
    | none =>
      have hrest := ih h
      refine ⟨hrest.ascending, ?_, hrest.old, forall_mem_cons.mpr ⟨?_, hrest.ranks⟩⟩
      · intro entry hent
        exact (hrest.mem entry hent).imp_right (mem_cons_of_mem _)
      · rcases mem_map.mp (rank_mem_of_insertUnique_eq_none hinsert) with
          ⟨taken, htaken, hrank⟩
        rw [<- hrank]
        exact mem_map_of_mem (hrest.old taken htaken)
    | some inserted =>
      have hrest := ih (h.insertUnique hinsert)
      have hold := fun entry hent => hrest.old entry ((mem_insertUnique hinsert entry).mpr hent)
      refine ⟨hrest.ascending, ?_, fun entry hent => hold entry (.inr hent),
        forall_mem_cons.mpr ⟨mem_map_of_mem (hold first (.inl rfl)), hrest.ranks⟩⟩
      · intro entry hent
        rcases hrest.mem entry hent with hold | hadded
        · rcases (mem_insertUnique hinsert entry).mp hold with rfl | hbef
          · exact .inr mem_cons_self
          · exact .inl hbef
        · exact .inr (mem_cons_of_mem _ hadded)

end Beldex.Foundation.Ranked
