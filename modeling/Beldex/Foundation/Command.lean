import Mathlib.Logic.Basic

/-!
# Commands that may fail

A command reads and writes a state and may stop on the way; what it wrote until
then stays written, and it is up to the caller to take that back.  `Meets` is
the rule for the case that a command goes through.
-/

namespace Beldex.Foundation

variable {σ α β : Type}

/-- A command gives a value unless it fails, and in both cases a new state. -/
def Command (σ α : Type) : Type :=
  σ -> Option α × σ

namespace Command

instance : Monad (Command σ) where
  pure a := fun s => (some a, s)
  bind m f := fun s =>
    match m s with
    | (some a, t) => f a t
    | (none, t) => (none, t)

theorem bind_apply (m : Command σ α) (f : α -> Command σ β) (s : σ) :
    (m >>= f) s =
      match m s with
      | (some a, t) => f a t
      | (none, t) => (none, t) := rfl

def fail : Command σ α :=
  fun s => (none, s)

def inspect (f : σ -> α) : Command σ α :=
  fun s => (some (f s), s)

def ofOption (x : Option α) : Command σ α :=
  fun s => (x, s)

def modify? (f : σ -> Option (α × σ)) : Command σ α :=
  fun s =>
    match f s with
    | some (a, t) => (some a, t)
    | none => (none, s)

/-- From a state with `P` the command, where it goes through, gives a value and a state
with `Q`. -/
def Meets (P : σ -> Prop) (m : Command σ α) (Q : α -> σ -> Prop) : Prop :=
  forall s a t, P s -> m s = (some a, t) -> Q a t

variable {P : σ -> Prop} {Q : α -> σ -> Prop}

theorem Meets.pure {a : α} (h : forall s, P s -> Q a s) : Meets P (Pure.pure a) Q := by
  intro s b t hs hrun
  cases hrun
  exact h s hs

theorem Meets.fail : Meets P Command.fail Q := by
  intro s b t hs hrun
  cases hrun

theorem Meets.inspect {f : σ -> α} (h : forall s, P s -> Q (f s) s) :
    Meets P (Command.inspect f) Q := by
  intro s b t hs hrun
  cases hrun
  exact h s hs

theorem Meets.ofOption {x : Option α} (h : forall s a, P s -> x = some a -> Q a s) :
    Meets P (Command.ofOption x) Q := by
  intro s b t hs hrun
  cases hrun
  exact h s b hs rfl

theorem Meets.modify? {f : σ -> Option (α × σ)}
    (h : forall s a t, P s -> f s = some (a, t) -> Q a t) : Meets P (Command.modify? f) Q := by
  intro s b t hs hrun
  unfold Command.modify? at hrun
  split at hrun
  next hf =>
    cases hrun
    exact h s _ _ hs hf
  · cases hrun

theorem Meets.bind {m : Command σ α} {f : α -> Command σ β} {R : β -> σ -> Prop} (hm : Meets P m Q)
    (hf : forall a, Meets (Q a) (f a) R) : Meets P (m >>= f) R := by
  intro s b t hs hrun
  rw [bind_apply] at hrun
  split at hrun
  · next hfirst => exact hf _ _ _ _ (hm _ _ _ hs hfirst) hrun
  · cases hrun

end Command

end Beldex.Foundation
