import Mathlib.Data.List.Basic

/-!
# Loops that return

Loops of the code whose number of rounds is not known in advance are given fuel
and return nothing when it runs out.  A computation returns when from some amount
of fuel on it gives one and the same result.  The rules below carry this through
sequences and loops; the rule for a loop asks for an invariant and for a measure
that every round makes smaller.
-/

namespace Beldex.Foundation.Loops

variable {α β σ ι : Type}

/-- With enough fuel there is a result, always the same, and it has the property. -/
def Returns (f : Nat -> Option α) (Q : α -> Prop) : Prop :=
  exists bound a, (forall fuel, bound <= fuel -> f fuel = some a) ∧ Q a

variable {Q : α -> Prop} {a : α}

theorem Returns.pure (h : Q a) : Returns (fun _ => some a) Q :=
  ⟨0, a, fun _ _ => rfl, h⟩

theorem Returns.of_eq {x : Option α} (hx : x = some a) (h : Q a) : Returns (fun _ => x) Q :=
  ⟨0, a, fun _ _ => hx, h⟩

def Yields (f : Nat -> Option α) (a : α) : Prop :=
  exists bound, forall fuel, bound <= fuel -> f fuel = some a

variable {f : Nat -> Option α}

theorem Yields.unique {b : α} (ha : Yields f a) (hb : Yields f b) : a = b := by
  rcases ha with ⟨bound, ha⟩
  rcases hb with ⟨bound', hb⟩
  have hboth := (ha (max bound bound') (Nat.le_max_left _ _)).symm.trans
    (hb _ (Nat.le_max_right _ _))
  exact Option.some.inj hboth

theorem Yields.exists_eq (h : Yields f a) : exists fuel, f fuel = some a := by
  rcases h with ⟨bound, h⟩
  exact ⟨bound, h bound (Nat.le_refl _)⟩

theorem Yields.bind {g : Nat -> α -> Option β} {b : β} (hf : Yields f a)
    (hg : Yields (fun fuel => g fuel a) b) : Yields (fun fuel => (f fuel).bind (g fuel)) b := by
  rcases hf with ⟨bound, hf⟩
  rcases hg with ⟨bound', hg⟩
  refine ⟨max bound bound', ?_⟩
  intro fuel hfuel
  change (f fuel).bind (g fuel) = some b
  rw [hf fuel (by omega)]
  exact hg fuel (by omega)

theorem returns_iff : Returns f Q <-> exists a, Yields f a ∧ Q a := by
  constructor
  · rintro ⟨bound, a, hf, hQ⟩
    exact ⟨a, ⟨bound, hf⟩, hQ⟩
  · rintro ⟨a, ⟨bound, hf⟩, hQ⟩
    exact ⟨bound, a, hf, hQ⟩

theorem Returns.mono {R : α -> Prop} (h : Returns f Q) (himp : forall a, Q a -> R a) :
    Returns f R := by
  rcases h with ⟨bound, a, hf, hQ⟩
  exact ⟨bound, a, hf, himp a hQ⟩

theorem Returns.bind {g : Nat -> α -> Option β} {R : β -> Prop} (hf : Returns f Q)
    (hg : forall a, Q a -> Returns (fun fuel => g fuel a) R) :
    Returns (fun fuel => (f fuel).bind (g fuel)) R := by
  rcases returns_iff.mp hf with ⟨a, hfirst, hQ⟩
  rcases returns_iff.mp (hg a hQ) with ⟨b, hrest, hR⟩
  exact returns_iff.mpr ⟨b, hfirst.bind hrest, hR⟩

theorem Returns.map {g : α -> β} {R : β -> Prop} (hf : Returns f Q)
    (hg : forall a, Q a -> R (g a)) :
    Returns (fun fuel => (f fuel).map g) R := by
  rcases hf with ⟨bound, a, hf, hQ⟩
  refine ⟨bound, g a, ?_, hg a hQ⟩
  intro fuel hfuel
  change (f fuel).map g = some (g a)
  rw [hf fuel hfuel]
  rfl

/-! ## While -/

def whileLoop (cond : σ -> Bool) (body : Nat -> σ -> Option σ) : Nat -> σ -> Option σ
  | 0, _ => none
  | fuel + 1, s => if cond s then (body fuel s).bind (whileLoop cond body fuel) else some s

@[simp] theorem whileLoop_zero (cond : σ -> Bool) (body : Nat -> σ -> Option σ) (s : σ) :
    whileLoop cond body 0 s = none :=
  rfl

variable {cond : σ -> Bool} {s : σ} {fuel : Nat}

theorem whileLoop_done (body : Nat -> σ -> Option σ) (h : cond s = false) (hfuel : 1 <= fuel) :
    whileLoop cond body fuel s = some s := by
  cases fuel with
  | zero => omega
  | succ fuel =>
    unfold whileLoop
    rw [h]
    rfl

variable {body : Nat -> σ -> Option σ} {t : σ}

theorem whileLoop_round {u : σ} (hcond : cond s = true)
    (hround : Yields (fun fuel => body fuel s) t)
    (hrest : Yields (fun fuel => whileLoop cond body fuel t) u) :
    Yields (fun fuel => whileLoop cond body fuel s) u := by
  rcases hround with ⟨bound, hround⟩
  rcases hrest with ⟨bound', hrest⟩
  refine ⟨max bound bound' + 1, ?_⟩
  intro fuel hfuel
  cases fuel with
  | zero => omega
  | succ fuel =>
    change (if cond s = true then
      (body fuel s).bind (whileLoop cond body fuel) else some s) = some u
    have hbody : body fuel s = some t := hround fuel (by omega)
    rw [if_pos hcond, hbody]
    exact hrest fuel (by omega)

theorem Returns.whileLoop (Inv : σ -> Prop) (measure : σ -> Nat)
    (hbody : forall s, Inv s -> cond s = true ->
      Returns (fun fuel => body fuel s) fun t => Inv t ∧ measure t < measure s) (h : Inv s) :
    Returns (fun fuel => Loops.whileLoop cond body fuel s) fun t =>
      Inv t ∧ cond t = false := by
  induction hm : measure s using Nat.strongRecOn generalizing s with
  | ind m ih =>
    cases hcond : cond s with
    | false =>
      exact ⟨1, s, fun fuel hfuel => whileLoop_done body hcond hfuel, h, hcond⟩
    | true =>
      rcases returns_iff.mp (hbody s h hcond) with ⟨t, hround, hinv, hlt⟩
      rcases returns_iff.mp (ih (measure t) (hm ▸ hlt) hinv rfl) with ⟨u, hrest, hdone⟩
      exact returns_iff.mpr ⟨u, whileLoop_round hcond hround hrest, hdone⟩

theorem whileLoop_over (h : whileLoop cond body fuel s = some t) : cond t = false := by
  induction fuel generalizing s with
  | zero => cases h
  | succ fuel ih =>
    unfold whileLoop at h
    split at h
    · rcases Option.bind_eq_some_iff.mp h with ⟨u, _, hrest⟩
      exact ih hrest
    next hcond =>
      rw [<- Option.some.inj h]
      exact Bool.eq_false_iff.mpr hcond

theorem whileLoop_relates {R : σ -> σ -> Prop} (hrefl : forall s, R s s)
    (htrans : forall s t u, R s t -> R t u -> R s u)
    (hbody : forall fuel s t, body fuel s = some t -> R s t)
    (h : whileLoop cond body fuel s = some t) : R s t := by
  induction fuel generalizing s with
  | zero => cases h
  | succ fuel ih =>
    unfold whileLoop at h
    split at h
    · rcases Option.bind_eq_some_iff.mp h with ⟨u, hround, hrest⟩
      exact htrans s u t (hbody fuel s u hround) (ih hrest)
    · rw [<- Option.some.inj h]
      exact hrefl s

/-! ## For each -/

def forEach (body : Nat -> σ -> ι -> Option σ) (fuel : Nat) : σ -> List ι -> Option σ
  | s, [] => some s
  | s, i :: rest => (body fuel s i).bind fun t => forEach body fuel t rest

@[simp] theorem forEach_nil (body : Nat -> σ -> ι -> Option σ) (fuel : Nat) (s : σ) :
    forEach body fuel s [] = some s :=
  rfl

theorem forEach_cons (body : Nat -> σ -> ι -> Option σ) (fuel : Nat) (s : σ) (i : ι)
    (rest : List ι) :
    forEach body fuel s (i :: rest) = (body fuel s i).bind fun t => forEach body fuel t rest :=
  rfl

theorem forEach_relates {body : Nat -> σ -> ι -> Option σ} {R : σ -> σ -> Prop}
    (hrefl : forall s, R s s) (htrans : forall s t u, R s t -> R t u -> R s u)
    (hbody : forall fuel s i t, body fuel s i = some t -> R s t) {items : List ι}
    (h : forEach body fuel s items = some t) : R s t := by
  induction items generalizing s with
  | nil =>
    rw [<- Option.some.inj h]
    exact hrefl s
  | cons i rest ih =>
    rcases Option.bind_eq_some_iff.mp h with ⟨u, hfirst, hrest⟩
    exact htrans s u t (hbody fuel s i u hfirst) (ih hrest)

theorem Returns.forEach {body : Nat -> σ -> ι -> Option σ} (Inv : List ι -> σ -> Prop)
    (hbody : forall i rest s, Inv (i :: rest) s ->
      Returns (fun fuel => body fuel s i) (Inv rest)) {items : List ι} (h : Inv items s) :
    Returns (fun fuel => Loops.forEach body fuel s items) (Inv []) := by
  induction items generalizing s with
  | nil => exact Returns.pure h
  | cons i rest ih => exact (hbody i rest s h).bind fun t ht => ih ht

end Beldex.Foundation.Loops
