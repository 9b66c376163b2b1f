import Mathlib.Data.List.Basic

/-!
# Fallible computations

Validation code is a sequence of checks, each of which may end the computation
with a reason, followed by an update.  This module keeps the rules for reading
such a computation backwards from its success, and for folding one over a list
of inputs.
-/

namespace Beldex.Foundation.Fallible

open List

variable {ε α β σ ι : Type}

def rejectIf (condition : Bool) (reason : ε) : Except ε Unit :=
  if condition then .error reason else .ok ()

variable {x : Except ε α} {f : α -> Except ε β} {b : β}

theorem bind_ok : (x >>= f) = .ok b <-> exists a, x = .ok a ∧ f a = .ok b := by
  cases x with
  | error e =>
    constructor
    · intro h
      cases h
    · rintro ⟨a, h, _⟩
      cases h
  | ok a =>
    constructor
    · intro h
      exact ⟨a, rfl, h⟩
    · rintro ⟨a', h, hf⟩
      cases h
      exact hf

variable {e : ε}

theorem bind_error :
    (x >>= f) = .error e <-> x = .error e ∨ exists a, x = .ok a ∧ f a = .error e := by
  cases x with
  | error e' =>
    constructor
    · intro h
      cases h
      exact Or.inl rfl
    · rintro (h | ⟨a, h, _⟩)
      · cases h
        rfl
      · cases h
  | ok a =>
    constructor
    · intro h
      exact Or.inr ⟨a, rfl, h⟩
    · rintro (h | ⟨a', h, hf⟩)
      · cases h
      · cases h
        exact hf

variable {condition : Bool} {reason : ε}

theorem rejectIf_bind_error {f : Unit -> Except ε β} :
    (rejectIf condition reason >>= f) = .error e <->
      condition = true ∧ reason = e ∨ condition = false ∧ f () = .error e := by
  cases condition with
  | _ => simp [rejectIf, bind, Except.bind]

theorem rejectIf_bind_ok {f : Unit -> Except ε β} :
    (rejectIf condition reason >>= f) = .ok b <-> condition = false ∧ f () = .ok b := by
  cases condition with
  | true =>
    constructor
    · intro h
      cases h
    · rintro ⟨h, _⟩
      cases h
  | false =>
    constructor
    · intro h
      exact ⟨rfl, h⟩
    · intro h
      exact h.2

theorem rejectIf_ok {u : Unit} : rejectIf condition reason = .ok u <-> condition = false := by
  cases condition with
  | _ => simp [rejectIf]

def orReject (x : Option α) (reason : ε) : Except ε α :=
  match x with
  | some a => .ok a
  | none => .error reason

theorem orReject_bind_ok {x : Option α} :
    (orReject x reason >>= f) = .ok b <-> exists a, x = some a ∧ f a = .ok b := by
  rw [bind_ok]
  cases x with
  | _ => simp [orReject]

variable {a : α}

theorem toOption_eq_some : x.toOption = some a <-> x = .ok a := by
  cases x with
  | _ => simp [Except.toOption]

def within (context : String) (x : Except String α) : Except String α :=
  match x with
  | .error reason => .error (context ++ reason)
  | .ok a => .ok a

variable {context : String}

theorem within_eq_ok {x : Except String α} : within context x = .ok a <-> x = .ok a := by
  cases x with
  | _ => simp [within]

theorem within_bind_ok {x : Except String α} {f : α -> Except String β} :
    (within context x >>= f) = .ok b <-> exists a, x = .ok a ∧ f a = .ok b := by
  rw [bind_ok]
  simp only [within_eq_ok]

/-! ## Running over a list -/

def checkAll (check : α -> Except ε Unit) : List α -> Except ε Unit
  | [] => .ok ()
  | a :: rest => do
      check a
      checkAll check rest

theorem checkAll_eq_ok {check : α -> Except ε Unit} {l : List α} :
    checkAll check l = .ok () <-> forall a, a ∈ l -> check a = .ok () := by
  induction l with
  | nil => simp [checkAll]
  | cons a rest ih =>
    unfold checkAll
    rw [bind_ok, forall_mem_cons, <- ih]
    constructor
    · rintro ⟨_, ha, hrest⟩
      exact ⟨ha, hrest⟩
    · rintro ⟨ha, hrest⟩
      exact ⟨(), ha, hrest⟩

def run (step : σ -> ι -> Except ε σ) (s : σ) (inputs : List ι) : Except ε σ :=
  inputs.foldlM step s

variable {step : σ -> ι -> Except ε σ} {s s' : σ}

theorem run_cons_ok {i : ι} {rest : List ι} :
    run step s (i :: rest) = .ok s' <-> exists t, step s i = .ok t ∧ run step t rest = .ok s' := by
  unfold run
  rw [foldlM_cons, bind_ok]

theorem run_append_eq_ok {xs ys : List ι} :
    run step s (xs ++ ys) = .ok s' <->
      exists t, run step s xs = .ok t ∧ run step t ys = .ok s' := by
  unfold run
  rw [foldlM_append, bind_ok]

theorem run_error_preserves {step : σ -> ι -> Except ε σ} {Inv : σ -> Prop} {Bad : ε -> Prop}
    (hstep : forall {s t : σ} {i : ι}, step s i = .ok t -> Inv s -> Inv t)
    (hfail : forall {s : σ} {i : ι} {e : ε}, step s i = .error e -> Inv s -> Bad e) {s : σ}
    {inputs : List ι} {e : ε} (hrun : run step s inputs = .error e) (h : Inv s) : Bad e := by
  induction inputs generalizing s with
  | nil => cases hrun
  | cons i rest ih =>
    unfold run at hrun
    rw [foldlM_cons] at hrun
    rcases bind_error.mp hrun with hi | ⟨t, hi, hrest⟩
    · exact hfail hi h
    · exact ih hrest (hstep hi h)

theorem run_preserves {step : σ -> ι -> Except ε σ} {Inv : σ -> Prop}
    (hstep : forall {s t : σ} {i : ι}, step s i = .ok t -> Inv s -> Inv t) {s s' : σ}
    {inputs : List ι} (hrun : run step s inputs = .ok s') (h : Inv s) : Inv s' := by
  induction inputs generalizing s with
  | nil =>
    cases hrun
    exact h
  | cons i rest ih =>
    rcases run_cons_ok.mp hrun with ⟨t, hi, hrest⟩
    exact ih hrest (hstep hi h)

theorem run_flatMap {κ : Type} (f : κ -> List ι) (xs : List κ) :
    run step s (xs.flatMap f) = run (fun s x => run step s (f x)) s xs := by
  induction xs generalizing s with
  | nil => rfl
  | cons x rest ih =>
    unfold run at *
    rw [flatMap_cons, foldlM_append, foldlM_cons]
    exact congrArg _ (funext fun _ => ih)

theorem run_simulates {τ : Type} {step' : τ -> ι -> Except ε τ} {R : σ -> τ -> Prop}
    (hstep : forall {s t i u}, step s i = .ok t -> R s u ->
      exists v, step' u i = .ok v ∧ R t v) {inputs : List ι} {u : τ}
    (hrun : run step s inputs = .ok s') (h : R s u) :
    exists v, run step' u inputs = .ok v ∧ R s' v := by
  induction inputs generalizing s u with
  | nil =>
    cases hrun
    exact ⟨u, rfl, h⟩
  | cons i rest ih =>
    rcases run_cons_ok.mp hrun with ⟨t, hi, hrest⟩
    rcases hstep hi h with ⟨v, hv, hrel⟩
    rcases ih hrest hrel with ⟨w, hw, hend⟩
    exact ⟨w, run_cons_ok.mpr ⟨v, hv, hw⟩, hend⟩

end Beldex.Foundation.Fallible
