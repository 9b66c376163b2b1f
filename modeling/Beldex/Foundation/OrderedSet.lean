import Mathlib.Data.List.Nodup
import Mathlib.Data.List.Perm.Basic

/-!
# Ordered sets

A collection that is kept in the order of a rank, with at most one item of each
rank.  A map is an ordered set of its bindings, ranked by their keys.  The order
is part of the data, so that walking over a set always meets the ranks from the
lowest to the highest.
-/

namespace Beldex
namespace Foundation

open List

structure OrderedSet (α : Type) (rank : α -> Nat) where
  items : List α
  sorted : items.Pairwise fun a b => rank a < rank b

namespace OrderedSet

variable {α : Type} {rank : α -> Nat} {s : OrderedSet α rank}

@[ext] theorem ext {t : OrderedSet α rank} (h : s.items = t.items) : s = t := by
  cases s
  cases t
  cases h
  rfl

/-! ## Looking up -/

def find? (s : OrderedSet α rank) (r : Nat) : Option α :=
  s.items.find? fun a => rank a == r

variable {r : Nat} {a : α}

theorem mem_of_find? (h : s.find? r = some a) : a ∈ s.items :=
  mem_of_find?_eq_some h

theorem rank_of_find? (h : s.find? r = some a) : rank a = r := by
  have hrank := find?_some h
  exact beq_iff_eq.mp hrank

theorem rank_ne_of_find? (h : s.find? r = none) (ha : a ∈ s.items) : rank a ≠ r := by
  intro heq
  exact find?_eq_none.mp h a ha (beq_iff_eq.mpr heq)

theorem split_of_find? (h : s.find? r = some a) :
    exists below above, s.items = below ++ a :: above ∧
      (forall b, b ∈ below -> rank b < r) ∧ forall b, b ∈ above -> r < rank b := by
  have hrank := rank_of_find? h
  rcases (find?_eq_some_iff_append.mp h).2 with ⟨below, above, hitems, _⟩
  have hsort := s.sorted
  rw [hitems, pairwise_append, pairwise_cons] at hsort
  rcases hsort with ⟨_, ⟨habove, _⟩, hcross⟩
  refine ⟨below, above, hitems, ?_, ?_⟩
  · intro b hb
    rw [<- hrank]
    exact hcross b hb a mem_cons_self
  · intro b hb
    rw [<- hrank]
    exact habove b hb

theorem find?_eq_some_of_mem (ha : a ∈ s.items) : s.find? (rank a) = some a := by
  cases hfind : s.find? (rank a) with
  | none => exact absurd rfl (rank_ne_of_find? hfind ha)
  | some b =>
    rcases split_of_find? hfind with ⟨below, above, hitems, hbelow, habove⟩
    rw [hitems] at ha
    rcases mem_append.mp ha with ha | ha
    · exact absurd (hbelow a ha) (Nat.lt_irrefl _)
    · rcases mem_cons.mp ha with rfl | ha
      · rfl
      · exact absurd (habove a ha) (Nat.lt_irrefl _)

/-! ## Taking away -/

def restrict (s : OrderedSet α rank) (keep : α -> Bool) : OrderedSet α rank where
  items := s.items.filter keep
  sorted := s.sorted.filter keep

def erase (s : OrderedSet α rank) (r : Nat) : OrderedSet α rank :=
  s.restrict fun a => rank a != r

theorem mem_erase : a ∈ (s.erase r).items <-> a ∈ s.items ∧ rank a ≠ r := by
  change a ∈ s.items.filter _ <-> _
  rw [mem_filter, bne_iff_ne]

theorem erase_of_find? (h : s.find? r = none) : s.erase r = s := by
  refine ext (filter_eq_self.mpr ?_)
  intro a ha
  exact bne_iff_ne.mpr (rank_ne_of_find? h ha)

theorem erase_items {below above : List α} (hitems : s.items = below ++ a :: above)
    (hrank : rank a = r) (hbelow : forall b, b ∈ below -> rank b < r)
    (habove : forall b, b ∈ above -> r < rank b) : (s.erase r).items = below ++ above := by
  have hkeepBelow : below.filter (fun b => rank b != r) = below := by
    refine filter_eq_self.mpr ?_
    intro b hb
    exact bne_iff_ne.mpr (Nat.ne_of_lt (hbelow b hb))
  have hkeepAbove : above.filter (fun b => rank b != r) = above := by
    refine filter_eq_self.mpr ?_
    intro b hb
    exact bne_iff_ne.mpr (Nat.ne_of_gt (habove b hb))
  have hdrop : (rank a != r) = false := by
    rw [bne_eq_false_iff_eq]
    exact hrank
  change s.items.filter _ = _
  rw [hitems, filter_append, filter_cons, hdrop, hkeepBelow, hkeepAbove]
  rfl

theorem erase_perm (h : s.find? r = some a) : s.items.Perm (a :: (s.erase r).items) := by
  rcases split_of_find? h with ⟨below, above, hitems, hbelow, habove⟩
  rw [erase_items hitems (rank_of_find? h) hbelow habove, hitems]
  exact perm_middle

/-! ## Replacing -/

def modify (s : OrderedSet α rank) (r : Nat) (f : α -> α) (hf : forall a, rank (f a) = rank a) :
    OrderedSet α rank where
  items := s.items.map fun a => if rank a = r then f a else a
  sorted := by
    refine pairwise_map.mpr (s.sorted.imp ?_)
    intro a b hlt
    have hrank : forall c, rank (if rank c = r then f c else c) = rank c := by
      intro c
      split
      · exact hf c
      · rfl
    rw [hrank, hrank]
    exact hlt

theorem modify_items {below above : List α} (f : α -> α) (hf : forall a, rank (f a) = rank a)
    (hitems : s.items = below ++ a :: above) (hrank : rank a = r)
    (hbelow : forall b, b ∈ below -> rank b < r) (habove : forall b, b ∈ above -> r < rank b) :
    (s.modify r f hf).items = below ++ f a :: above := by
  have hkeep : forall l : List α, (forall b, b ∈ l -> rank b ≠ r) ->
      l.map (fun b => if rank b = r then f b else b) = l := by
    intro l hl
    refine (map_congr_left ?_).trans (map_id l)
    intro b hb
    exact if_neg (hl b hb)
  change s.items.map _ = _
  rw [hitems, map_append, map_cons, if_pos hrank,
    hkeep below fun b hb => Nat.ne_of_lt (hbelow b hb),
    hkeep above fun b hb => Nat.ne_of_gt (habove b hb)]

theorem modify_perm (h : s.find? r = some a) (f : α -> α) (hf : forall a, rank (f a) = rank a) :
    (s.modify r f hf).items.Perm (f a :: (s.erase r).items) := by
  have hrank := rank_of_find? h
  rcases split_of_find? h with ⟨below, above, hitems, hbelow, habove⟩
  rw [modify_items f hf hitems hrank hbelow habove, erase_items hitems hrank hbelow habove]
  exact perm_middle

/-! ## Putting in -/

def place (s : OrderedSet α rank) (a : α) : OrderedSet α rank where
  items := s.items.filter (fun b => rank b < rank a) ++ a :: s.items.filter fun b => rank a < rank b
  sorted := by
    rw [pairwise_append, pairwise_cons]
    refine ⟨s.sorted.filter _, ⟨?_, s.sorted.filter _⟩, ?_⟩
    · intro b hb
      exact of_decide_eq_true (mem_filter.mp hb).2
    · intro b hb c hc
      have hlt : rank b < rank a := of_decide_eq_true (mem_filter.mp hb).2
      rcases mem_cons.mp hc with rfl | hc
      · exact hlt
      · exact Nat.lt_trans hlt (of_decide_eq_true (mem_filter.mp hc).2)

def emplace (s : OrderedSet α rank) (a : α) : OrderedSet α rank :=
  if (s.find? (rank a)).isSome then s else s.place a

theorem emplace_perm (h : s.find? (rank a) = none) : (s.emplace a).items.Perm (a :: s.items) := by
  have hrest : s.items.filter (fun b => rank a < rank b) =
      s.items.filter fun b => !decide (rank b < rank a) := by
    refine filter_congr ?_
    intro b hb
    have hne := rank_ne_of_find? h hb
    by_cases hlt : rank b < rank a
    · simp [hlt, Nat.not_lt.mpr (Nat.le_of_lt hlt)]
    · have hgt : rank a < rank b := by omega
      simp [hlt, hgt]
  unfold emplace
  rw [h]
  change (s.items.filter (fun b => rank b < rank a) ++
    a :: s.items.filter fun b => rank a < rank b).Perm _
  rw [hrest]
  exact perm_middle.trans ((filter_append_perm _ s.items).cons a)

theorem eq_of_perm {t : OrderedSet α rank} (h : s.items.Perm t.items) : s = t := by
  refine ext (h.eq_of_pairwise ?_ s.sorted t.sorted)
  intro a b _ _ hab hba
  exact absurd (Nat.lt_trans hab hba) (Nat.lt_irrefl _)

theorem find?_emplace (h : s.find? (rank a) = none) : (s.emplace a).find? (rank a) = some a :=
  find?_eq_some_of_mem ((emplace_perm h).mem_iff.mpr mem_cons_self)

theorem erase_emplace (h : s.find? (rank a) = none) : (s.emplace a).erase (rank a) = s := by
  have hboth := (erase_perm (find?_emplace h)).symm.trans (emplace_perm h)
  exact eq_of_perm hboth.cons_inv

end OrderedSet
end Foundation
end Beldex
