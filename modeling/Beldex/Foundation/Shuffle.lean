import Mathlib

/-!
# Shuffles

A shuffle exchanges each entry of a list with a drawn entry before it.  Exchanges outside
of a list have no result, so that a result says that every position was in the list.
-/

namespace Beldex.Foundation

open List

/-- A random generator.  A draw is any number below the bound. -/
structure Draws (ρ : Type) where
  uniformDistributionPortable : ρ -> Nat -> Nat × ρ
  uniform_lt : forall rng n, 0 < n -> (uniformDistributionPortable rng n).1 < n

def Draws.draw {ρ : Type} (D : Draws ρ) (rng : ρ) (n : Nat) : Option (Nat × ρ) :=
  if n = 0 then none else some (D.uniformDistributionPortable rng n)

section Shuffle

variable {α β ι ρ : Type} {l : List α} {i j : Nat}

theorem Draws.draw_lt (D : Draws ρ) (rng : ρ) {n : Nat} (h : 0 < n) :
    exists k next, D.draw rng n = some (k, next) ∧ k < n :=
  ⟨_, _, if_neg (Nat.ne_of_gt h), D.uniform_lt rng n h⟩

def swap? (l : List α) (i j : Nat) : Option (List α) := do
  let a <- l[i]?
  let b <- l[j]?
  some ((l.set i b).set j a)

theorem swap?_spec (hi : i < l.length) (hj : j < l.length) :
    exists l', swap? l i j = some l' ∧ l'.Perm l ∧ forall t, l'[t]? = l[Equiv.swap i j t]? := by
  refine ⟨(l.set i l[j]).set j l[i], ?_, set_set_perm hi hj, fun t => ?_⟩
  · unfold swap?
    rw [getElem?_eq_getElem hi, getElem?_eq_getElem hj]
    rfl
  · simp only [getElem?_set, length_set, Equiv.swap_apply_def]
    grind

theorem foldlM_keeps {step : β -> ι -> Option β} {Inv : β -> Prop} {items : List ι}
    (hstep : forall b i, i ∈ items -> Inv b -> exists b', step b i = some b' ∧ Inv b') {b : β}
    (hb : Inv b) : exists b', items.foldlM step b = some b' ∧ Inv b' := by
  induction items generalizing b with
  | nil => exact ⟨b, rfl, hb⟩
  | cons i rest ih =>
    rcases hstep b i mem_cons_self hb with ⟨c, hc, hinv⟩
    rcases ih (fun b i hi => hstep b i (mem_cons_of_mem _ hi)) hinv with ⟨b', hb', hrest⟩
    refine ⟨b', ?_, hrest⟩
    rw [foldlM_cons, hc]
    exact hb'

/-- A step of a shuffle draws the partner of a position from those up to it. -/
def shuffleStep (D : Draws ρ) (s : List α × ρ) (i : Nat) : Option (List α × ρ) := do
  let (j, rng) <- D.draw s.2 (i + 1)
  some (<- swap? s.1 i j, rng)

def shufflePortable (D : Draws ρ) (l : List α) (rng : ρ) : Option (List α) :=
  ((range' 1 (l.length - 1)).foldlM (shuffleStep D) (l, rng)).map Prod.fst

theorem shufflePortable_perm (D : Draws ρ) (l : List α) (rng : ρ) :
    exists l', shufflePortable D l rng = some l' ∧ l'.Perm l := by
  have hstep : forall (s : List α × ρ) i, i ∈ range' 1 (l.length - 1) -> s.1.Perm l ->
      exists s', shuffleStep D s i = some s' ∧ s'.1.Perm l := by
    intro s i hi hs
    rcases D.draw_lt s.2 (Nat.succ_pos i) with ⟨j, rng', hj, hlt⟩
    have hmem := mem_range'_1.mp hi
    have hlen := hs.length_eq
    rcases swap?_spec (l := s.1) (i := i) (j := j) (by omega) (by omega) with ⟨l', hl', hperm, -⟩
    refine ⟨(l', rng'), ?_, hperm.trans hs⟩
    unfold shuffleStep
    rw [hj]
    simp [hl']
  rcases foldlM_keeps (b := (l, rng)) hstep (List.Perm.refl l) with ⟨s, hs, hperm⟩
  refine ⟨s.1, ?_, hperm⟩
  unfold shufflePortable
  rw [hs]
  rfl

theorem mapM_eq_some_iff {f : α -> Option β} {l' : List β} :
    l.mapM f = some l' <-> (forall a, a ∈ l -> (f a).isSome) ∧ l.filterMap f = l' := by
  induction l generalizing l' with
  | nil => simp
  | cons a rest ih =>
    rw [mapM_cons]
    cases hf : f a with
    | none => simp [hf]
    | some b =>
      simp only [Option.bind_eq_bind, Option.bind_some, Option.bind_eq_some_iff, ih,
        filterMap_cons, hf, forall_mem_cons, Option.isSome_some, true_and]
      constructor
      · rintro ⟨bs, ⟨hall, hbs⟩, heq⟩
        exact ⟨hall, by rw [hbs]; exact Option.some.inj heq⟩
      · rintro ⟨hall, heq⟩
        exact ⟨_, ⟨hall, rfl⟩, congrArg some heq⟩

/-! ## The permutation of a shuffle -/

variable {d e : Nat -> Nat} {k m : Nat}

/-- A generator that draws `d i` for the position `i`. -/
def scripted (d : Nat -> Nat) : Draws Unit where
  uniformDistributionPortable := fun _ n => (d (n - 1) % n, ())
  uniform_lt := fun _ _ hn => Nat.mod_lt _ hn

/-- The draws of a shuffle of `m` entries; none is made for the first one. -/
def drawsBelow (m : Nat) : Set (Nat -> Nat) :=
  {d | (forall i, d i <= i) ∧ forall i, m <= i -> d i = 0}

/-- The position that each entry of a shuffle of `m` entries comes from. -/
def exchanges (d : Nat -> Nat) : Nat -> Equiv.Perm Nat
  | 0 => 1
  | m + 1 => exchanges d m * Equiv.swap m (d m)

theorem exchanges_of_le (hd : forall i, d i <= i) (h : m <= i) : exchanges d m i = i := by
  induction m with
  | zero => rfl
  | succ m ih =>
    have hle := hd m
    rw [exchanges, Equiv.Perm.mul_apply, Equiv.swap_apply_of_ne_of_ne (by omega) (by omega),
      ih (by omega)]

theorem exchanges_draw (hd : forall i, d i <= i) : exchanges d (m + 1) (d m) = m := by
  rw [exchanges, Equiv.Perm.mul_apply, Equiv.swap_apply_right, exchanges_of_le hd le_rfl]

theorem exchanges_congr (h : forall i, i < m -> d i = e i) : exchanges d m = exchanges e m := by
  induction m with
  | zero => rfl
  | succ m ih =>
    rw [exchanges, exchanges, h m (Nat.lt_succ_self m), ih fun i hi => h i (Nat.lt_succ_of_lt hi)]

theorem draws_eq_of_exchanges (hd : forall i, d i <= i) (he : forall i, e i <= i)
    (h : exchanges d m = exchanges e m) (hi : i < m) : d i = e i := by
  induction m with
  | zero => cases hi
  | succ m ih =>
    have hlast : d m = e m := by
      apply (exchanges d (m + 1)).injective
      rw [exchanges_draw hd, h, exchanges_draw he]
    rcases Nat.lt_succ_iff_lt_or_eq.mp hi with hlt | rfl
    · rw [exchanges, exchanges, hlast] at h
      exact ih (mul_right_cancel h) hlt
    · exact hlast

theorem exists_draws {σ : Equiv.Perm Nat} (h : forall i, m <= i -> σ i = i) :
    exists d, d ∈ drawsBelow m ∧ exchanges d m = σ := by
  induction m generalizing σ with
  | zero =>
    refine ⟨fun _ => 0, ⟨fun _ => Nat.zero_le _, fun _ _ => rfl⟩, ?_⟩
    ext i
    exact (h i (Nat.zero_le i)).symm
  | succ m ih =>
    -- The last draw is the position of the entry `m`.
    have hj : σ.symm m <= m := by
      refine le_of_not_gt fun hlt => ?_
      have hfix := h _ hlt
      rw [Equiv.apply_symm_apply] at hfix
      omega
    have hfix : forall i, m <= i -> (σ * Equiv.swap m (σ.symm m)) i = i := by
      intro i hi
      rw [Equiv.Perm.mul_apply]
      rcases Nat.eq_or_lt_of_le hi with rfl | hlt
      · rw [Equiv.swap_apply_left, Equiv.apply_symm_apply]
      · rw [Equiv.swap_apply_of_ne_of_ne (by omega) (by omega), h i hlt]
    rcases ih hfix with ⟨d, ⟨hle, hzero⟩, hd⟩
    refine ⟨Function.update d m (σ.symm m), ⟨fun i => ?_, fun i hi => ?_⟩, ?_⟩
    · rcases eq_or_ne i m with rfl | hne
      · rwa [Function.update_self]
      · rw [Function.update_of_ne hne]
        exact hle i
    · rw [Function.update_of_ne (by omega), hzero i (by omega)]
    · rw [exchanges, Function.update_self,
        exchanges_congr fun i hi => Function.update_of_ne (by omega) _ _, hd, mul_assoc,
        Equiv.swap_mul_self, mul_one]

theorem shuffleSteps_spec (hd : forall i, d i <= i) (hk : k < l.length) :
    exists p, (range' 1 k).foldlM (shuffleStep (scripted d)) (l, ()) = some (p, ()) ∧
      p.length = l.length ∧ forall t, p[t]? = l[exchanges d (k + 1) t]? := by
  induction k with
  | zero =>
    refine ⟨l, rfl, rfl, fun t => ?_⟩
    rw [exchanges, Nat.le_zero.mp (hd 0), Equiv.swap_self]
    rfl
  | succ k ih =>
    rcases ih (Nat.lt_of_succ_lt hk) with ⟨p, hp, hlen, hent⟩
    have hmod : d (k + 1) % (k + 2) = d (k + 1) := Nat.mod_eq_of_lt (Nat.lt_succ_of_le (hd _))
    rcases swap?_spec (l := p) (i := k + 1) (j := d (k + 1)) (by omega)
      (by have := hd (k + 1); omega) with ⟨q, hq, hperm, hqentry⟩
    refine ⟨q, ?_, hperm.length_eq.trans hlen, fun t => ?_⟩
    · rw [range'_1_concat, foldlM_append, hp, add_comm 1 k]
      simp [shuffleStep, Draws.draw, scripted, hmod, hq]
    · rw [hqentry, hent]
      rfl

theorem shufflePortable_spec (hd : forall i, d i <= i) :
    exists p, shufflePortable (scripted d) l () = some p ∧ p.length = l.length ∧
      forall t, p[t]? = l[exchanges d l.length t]? := by
  cases l with
  | nil => exact ⟨[], rfl, rfl, fun t => rfl⟩
  | cons a rest =>
    rcases shuffleSteps_spec (l := a :: rest) hd (Nat.lt_succ_self _) with ⟨p, hp, hspec⟩
    exact ⟨p, congrArg (Option.map Prod.fst) hp, hspec⟩

end Shuffle

end Beldex.Foundation
