import Mathlib.Algebra.BigOperators.Finsupp.Basic
import Mathlib.Data.Finsupp.SMul
import Mathlib.Algebra.Module.Basic
import Mathlib.GroupTheory.GroupAction.Ring

/-!
# Commitments as formal sums

A commitment to an amount of a token is a combination of generators between
which nobody knows a relation: one generator per token and the generators `G`,
`X` and `H`.  Formal sums make the independence literal, and the amount of a
token is then a coefficient, which no blinding changes.
-/

namespace Beldex.Foundation.Pedersen

variable {τ R : Type} [CommRing R]

/-- The generators: one for each token, two for blinding, one for plain amounts. -/
inductive Generator (τ : Type) where
  | token (t : τ)
  | g
  | x
  | h
deriving DecidableEq

abbrev Point (τ R : Type) [CommRing R] := Generator τ →₀ R

noncomputable def base (i : Generator τ) : Point τ R :=
  Finsupp.single i 1

variable (t : τ)

def coeff (c : Point τ R) : R :=
  c (.token t)

@[simp] theorem coeff_zero : coeff t (0 : Point τ R) = 0 := rfl

@[simp] theorem coeff_add (c d : Point τ R) : coeff t (c + d) = coeff t c + coeff t d := rfl

@[simp] theorem coeff_sub (c d : Point τ R) : coeff t (c - d) = coeff t c - coeff t d := rfl

@[simp] theorem coeff_smul (a : R) (c : Point τ R) : coeff t (a • c) = a * coeff t c := rfl

@[simp] theorem coeff_nsmul (n : Nat) (c : Point τ R) : coeff t (n • c) = n * coeff t c := by
  unfold coeff
  rw [Finsupp.smul_apply, nsmul_eq_mul]

theorem coeff_base_token [DecidableEq τ] (s t : τ) :
    coeff s (base (.token t) : Point τ R) = if s = t then 1 else 0 := by
  unfold coeff base
  rw [Finsupp.single_apply]
  simp [eq_comm]

@[simp] theorem coeff_base_g : coeff t (base .g : Point τ R) = 0 := by
  simp [coeff, base]

@[simp] theorem coeff_base_x : coeff t (base .x : Point τ R) = 0 := by
  simp [coeff, base]

@[simp] theorem coeff_base_h : coeff t (base .h : Point τ R) = 0 := by
  simp [coeff, base]

theorem coeff_sum (cs : List (Point τ R)) : coeff t cs.sum = (cs.map (coeff t)).sum := by
  induction cs with
  | nil => rfl
  | cons c rest ih => simp [ih]

/-! ## Tags and openings -/

def IsTag (tag : Point τ R) : Prop :=
  exists r : R, tag = base (.token t) + r • base .x

def Opens (tag c : Point τ R) (a : R) : Prop :=
  exists m : R, c = a • tag + m • base .g

theorem IsTag.add_smul_x {t : τ} {tag : Point τ R} (h : IsTag t tag) (r : R) :
    IsTag t (tag + r • base .x) := by
  rcases h with ⟨r', rfl⟩
  exact ⟨r' + r, by rw [add_smul, add_assoc]⟩

theorem coeff_of_opens [DecidableEq τ] {s t : τ} {tag c : Point τ R} {a : R}
    (htag : IsTag t tag) (hc : Opens tag c a) : coeff s c = if s = t then a else 0 := by
  rcases htag with ⟨r, rfl⟩
  rcases hc with ⟨m, rfl⟩
  by_cases h : s = t
  · simp [coeff_base_token, h]
  · simp [coeff_base_token, h]

theorem amount_unique {a b y z : R}
    (h : (a • base .h + y • base .g : Point τ R) = b • base .h + z • base .g) : a = b := by
  have happly := congrArg (fun c : Point τ R => c .h) h
  simpa [base] using happly

end Beldex.Foundation.Pedersen
