import Mathlib.Data.List.Chain

/-!
# Lists that are rewritten at their end

A list grows and shrinks at its end, but it does not shrink below a floor.  Then
everything below the floor stays, and so does every property that both kinds of
step keep.  Two lists in which every element names the one before it agree below
a common element.
-/

namespace Beldex.Foundation.Rewriting

open List

variable {α η : Type}

/-- The lists that a list turns into when elements are taken off its end, down to the
floor, and elements that may come next are put on. -/
inductive Rewrites (next : List α -> α -> Prop) (floor : Nat) (start : List α) :
    List α -> Prop where
  | refl : Rewrites next floor start start
  | pop {l : List α} {a : α} (h : Rewrites next floor start (l ++ [a]))
      (hfloor : floor <= l.length) : Rewrites next floor start l
  | push {l : List α} {a : α} (h : Rewrites next floor start l) (hnext : next l a) :
      Rewrites next floor start (l ++ [a])

section Rewrites

variable {next : List α -> α -> Prop} {floor : Nat} {l l' l'' : List α}

theorem Rewrites.trans (h : Rewrites next floor l l') (h' : Rewrites next floor l' l'') :
    Rewrites next floor l l'' := by
  induction h' with
  | refl => exact h
  | pop _ hfloor ih => exact .pop ih hfloor
  | push _ hnext ih => exact .push ih hnext

theorem Rewrites.of_eq_concat {a : α} (h : l = l' ++ [a]) (hfloor : floor <= l'.length) :
    Rewrites next floor l l' := by
  subst h
  exact .pop .refl hfloor

theorem Rewrites.take_prefix (h : Rewrites next floor l l') : l.take floor <+: l' := by
  induction h with
  | refl => exact List.take_prefix _ _
  | pop _ hfloor ih =>
    refine prefix_of_prefix_length_le ih (prefix_append _ _) ?_
    rw [length_take]
    omega
  | push _ _ ih => exact ih.trans (prefix_append _ _)

theorem Rewrites.preserves {I : List α -> Prop} (hpop : forall l a, I (l ++ [a]) -> I l)
    (hpush : forall l a, I l -> next l a -> I (l ++ [a]))
    (h : Rewrites next floor l l') (hl : I l) : I l' := by
  induction h with
  | refl => exact hl
  | pop _ _ ih => exact hpop _ _ ih
  | push _ hnext ih => exact hpush _ _ ih hnext

end Rewrites

/-! ## Elements that name the one before them -/

section

variable (name parent : α -> η)

def Linked (l : List α) : Prop :=
  l.IsChain fun below above => parent above = name below

variable {name parent}

theorem Linked.dropLast {l : List α} {a : α} (h : Linked name parent (l ++ [a])) :
    Linked name parent l :=
  (isChain_append.mp h).1

theorem Linked.concat {l : List α} {a : α} (h : Linked name parent l)
    (hpar : l.getLast?.map name = some (parent a)) : Linked name parent (l ++ [a]) := by
  refine isChain_append.mpr ⟨h, isChain_singleton a, ?_⟩
  intro below hbelow above habove
  rw [Option.mem_def] at hbelow habove
  cases habove
  rw [hbelow] at hpar
  exact (Option.some.inj hpar).symm

theorem Linked.below {l : List α} {n : Nat} {a : α} (h : Linked name parent l)
    (ha : l[n + 1]? = some a) : exists b, l[n]? = some b ∧ name b = parent a := by
  rcases List.getElem?_eq_some_iff.mp ha with ⟨hlt, rfl⟩
  exact ⟨l[n], getElem?_eq_getElem (by omega), (isChain_iff_getElem.mp h n hlt).symm⟩

/-- Two linked lists with the same element in one place agree below it, as far as names
tell their elements apart. -/
theorem Linked.take_eq {l l' : List α} (h : Linked name parent l) (h' : Linked name parent l')
    (hname : forall a, a ∈ l -> forall b, b ∈ l' -> name a = name b -> a = b) {n : Nat} {a b : α}
    (ha : l[n]? = some a) (hb : l'[n]? = some b) (hab : name a = name b) :
    l.take (n + 1) = l'.take (n + 1) := by
  -- the names of the elements below are the parents of two equal elements
  induction n generalizing a b with
  | zero =>
    have heq := hname a (mem_of_getElem? ha) b (mem_of_getElem? hb) hab
    rw [take_add_one, take_add_one, ha, hb, heq]
    rfl
  | succ n ih =>
    have heq := hname a (mem_of_getElem? ha) b (mem_of_getElem? hb) hab
    rcases h.below ha with ⟨a', ha', hpar⟩
    rcases h'.below hb with ⟨b', hb', hpar'⟩
    have hbelow : l.take (n + 1) = l'.take (n + 1) :=
      ih ha' hb' (by rw [hpar, hpar', heq])
    calc
      l.take (n + 1 + 1) = l.take (n + 1) ++ l[n + 1]?.toList := take_add_one
      _ = l'.take (n + 1) ++ l'[n + 1]?.toList := by rw [hbelow, ha, hb, heq]
      _ = l'.take (n + 1 + 1) := take_add_one.symm

end

end Beldex.Foundation.Rewriting
