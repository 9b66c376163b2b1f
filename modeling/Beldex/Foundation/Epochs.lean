import Mathlib.Data.List.Basic

/-!
# Epochs that do not come back

A run passes through epochs, of which it is shown a sequence of readings.  When
an epoch that was left is never read again, whatever was recorded in it stays
apart from what is recorded later, and a rank that grows within each epoch orders
the records of the same epoch.
-/

namespace Beldex.Foundation.Epochs

open List

variable {ε κ : Type}

def NeverReturns [DecidableEq ε] (key : ε -> κ) : List ε -> Prop
  | [] => True
  | reading :: rest =>
    (forall later, later ∈ rest.dropWhile (fun next => decide (next = reading)) ->
      key later ≠ key reading) ∧ NeverReturns key rest

def decidableNeverReturns [DecidableEq ε] [DecidableEq κ] (key : ε -> κ) :
    forall readings : List ε, Decidable (NeverReturns key readings)
  | [] => .isTrue trivial
  | _ :: rest => @instDecidableAnd _ _ _ (decidableNeverReturns key rest)

instance [DecidableEq ε] [DecidableEq κ] (key : ε -> κ) (readings : List ε) :
    Decidable (NeverReturns key readings) :=
  decidableNeverReturns key readings

variable {b c e : ε} {before after : List ε}

theorem mem_dropWhile_of_ne [DecidableEq ε] (hne : b ≠ e) (hc : c ∈ b :: after) :
    c ∈ (before ++ b :: after).dropWhile (fun next => decide (next = e)) := by
  induction before with
  | nil =>
    rw [nil_append, dropWhile_cons_of_neg (by simp [hne])]
    exact hc
  | cons first rest ih =>
    rw [cons_append]
    by_cases hfirst : first = e
    · rw [dropWhile_cons_of_pos (by simp [hfirst])]
      exact ih
    · rw [dropWhile_cons_of_neg (by simp [hfirst])]
      exact mem_cons_of_mem _ (mem_append_right _ hc)

variable {key : ε -> κ}

theorem NeverReturns.key_ne [DecidableEq ε] {between : List ε}
    (h : NeverReturns key (before ++ e :: (between ++ b :: after))) (hne : b ≠ e)
    (hc : c ∈ b :: after) : key c ≠ key e := by
  induction before with
  | nil => exact h.1 c (mem_dropWhile_of_ne hne hc)
  | cons first rest ih => exact ih h.2

theorem NeverReturns.cons_of_fresh [DecidableEq ε] {readings : List ε}
    (h : NeverReturns key readings) (hfresh : forall r, r ∈ readings -> key r ≠ key e) :
    NeverReturns key (e :: readings) := by
  constructor
  · intro later hlater
    exact hfresh later ((dropWhile_sublist _).mem hlater)
  · exact h

theorem NeverReturns.of_append [DecidableEq ε] (h : NeverReturns key (before ++ after)) :
    NeverReturns key before := by
  induction before with
  | nil => trivial
  | cons first rest ih =>
    constructor
    · intro later hlater
      apply h.1 later
      change later ∈ (rest ++ after).dropWhile _
      rw [dropWhile_append]
      by_cases hempty : (rest.dropWhile fun next => decide (next = first)).isEmpty = true
      · rw [isEmpty_iff.mp hempty] at hlater
        cases hlater
      · rw [if_neg hempty]
        exact mem_append_left _ hlater
    · exact ih h.2

/-! ## Records -/

/-- A record of an epoch at a level: the run is still in the epoch, at the level
or above, or it has read another epoch since. -/
def Behind (past : List ε) (epoch : ε) (level : Nat) (now : ε) (rank : Nat) : Prop :=
  epoch = now ∧ level <= rank ∨
    epoch ≠ now ∧ exists before after, past = before ++ after ∧ epoch ∈ before ∧ now ∈ after

theorem Behind.now {past : List ε} {now : ε} {level rank : Nat} (h : level <= rank) :
    Behind past now level now rank :=
  .inl ⟨rfl, h⟩

variable {past : List ε} {epoch now : ε} {level rank rank' : Nat}

section

variable (h : Behind past epoch level now rank)
include h

theorem Behind.stay (hrank : rank <= rank') (more : List ε) :
    Behind (past ++ more) epoch level now rank' := by
  rcases h with ⟨heq, hlevel⟩ | ⟨hne, before, after, hpast, hepoch, hnow⟩
  · exact .inl ⟨heq, Nat.le_trans hlevel hrank⟩
  · refine .inr ⟨hne, before, after ++ more, ?_, hepoch, mem_append_left _ hnow⟩
    rw [hpast, append_assoc]

theorem Behind.move [DecidableEq ε] {next : ε}
    (hread : now ∈ past) (hnext : next ≠ now) (hret : NeverReturns key (past ++ [next])) :
    Behind (past ++ [next]) epoch level next rank' := by
  rcases h with ⟨heq, _⟩ | ⟨hne, before, after, hpast, hepoch, hnow⟩
  · rw [heq]
    exact .inr ⟨Ne.symm hnext, past, [next], rfl, hread, mem_singleton_self next⟩
  · rcases append_of_mem hepoch with ⟨left, right, hbef⟩
    rcases append_of_mem hnow with ⟨left', right', hafter⟩
    have hsplit : past ++ [next] =
        left ++ epoch :: ((right ++ left') ++ now :: (right' ++ [next])) := by
      rw [hpast, hbef, hafter]
      simp
    rw [hsplit] at hret
    have hkey : key next ≠ key epoch := hret.key_ne (Ne.symm hne) (by simp)
    refine .inr ⟨?_, before, after ++ [next], ?_, hepoch, mem_append_right _ (by simp)⟩
    · intro heq
      exact hkey (congrArg key heq.symm)
    · rw [hpast, append_assoc]

theorem Behind.level_le [DecidableEq ε]
    (hret : NeverReturns key past) (hkey : key epoch = key now) : level <= rank := by
  rcases h with ⟨_, hlevel⟩ | ⟨hne, before, after, hpast, hepoch, hnow⟩
  · exact hlevel
  · rcases append_of_mem hepoch with ⟨left, right, hbef⟩
    rcases append_of_mem hnow with ⟨left', right', hafter⟩
    have hsplit : past = left ++ epoch :: ((right ++ left') ++ now :: right') := by
      rw [hpast, hbef, hafter]
      simp
    rw [hsplit] at hret
    exact absurd hkey.symm (hret.key_ne (Ne.symm hne) mem_cons_self)

end

end Beldex.Foundation.Epochs
