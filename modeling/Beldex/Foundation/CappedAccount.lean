import Mathlib.Algebra.BigOperators.Group.List.Basic
import Mathlib.Tactic.Ring

/-!
# Capped accounts

A balance that may move up and down between zero and a fixed cap.  The bound is
a field of the account, so every account that can be built respects it, and the
balance after any list of postings is the opening balance plus the sum of the
movements, in unbounded integers.
-/

namespace Beldex.Foundation.CappedAccount

structure Account where
  cap : Nat
  balance : Nat
  within : balance <= cap

inductive Posting where
  | credit (amount : Nat)
  | debit (amount : Nat)
  | note

def Posting.delta : Posting -> Int
  | .credit amount => amount
  | .debit amount => -(amount : Int)
  | .note => 0

/-- Apply a posting, unless it would leave the range of the account. -/
def Account.post (a : Account) : Posting -> Option Account
  | .credit amount =>
    if h : a.balance + amount <= a.cap then
      some { cap := a.cap, balance := a.balance + amount, within := h }
    else
      none
  | .debit amount =>
    if amount <= a.balance then
      some
        { cap := a.cap
          balance := a.balance - amount
          within := le_trans (Nat.sub_le _ _) a.within }
    else
      none
  | .note => some a

theorem post_credit {a : Account} {amount : Nat} (h : a.balance + amount <= a.cap) :
    a.post (.credit amount) = some { cap := a.cap, balance := a.balance + amount, within := h } :=
  dif_pos h

theorem post_debit {a : Account} {amount : Nat} (h : amount <= a.balance) :
    a.post (.debit amount) = some
        { cap := a.cap
          balance := a.balance - amount
          within := le_trans (Nat.sub_le _ _) a.within } :=
  if_pos h

theorem post_spec {a b : Account} {p : Posting} (h : a.post p = some b) :
    b.cap = a.cap ∧ (b.balance : Int) = a.balance + p.delta := by
  cases p with
  | credit amount =>
    by_cases hle : a.balance + amount <= a.cap
    · rw [post_credit hle] at h
      cases h
      exact ⟨rfl, Nat.cast_add _ _⟩
    · simp [Account.post, hle] at h
  | debit amount =>
    by_cases hle : amount <= a.balance
    · rw [post_debit hle] at h
      cases h
      refine ⟨rfl, ?_⟩
      change ((a.balance - amount : Nat) : Int) = a.balance + -(amount : Int)
      rw [Nat.cast_sub hle]
      ring
    · simp [Account.post, hle] at h
  | note =>
    cases h
    exact ⟨rfl, (Int.add_zero _).symm⟩

def Account.postAll (a : Account) : List Posting -> Option Account
  | [] => some a
  | p :: rest => (a.post p).bind fun b => b.postAll rest

theorem postAll_cons {a b c : Account} {p : Posting} {rest : List Posting} (hp : a.post p = some b)
    (hrest : b.postAll rest = some c) : a.postAll (p :: rest) = some c := by
  unfold Account.postAll
  rw [hp]
  exact hrest

theorem postAll_spec {a b : Account} {ps : List Posting} (h : a.postAll ps = some b) :
    b.cap = a.cap ∧ (b.balance : Int) = a.balance + (ps.map Posting.delta).sum := by
  induction ps generalizing a with
  | nil =>
    cases h
    simp
  | cons p rest ih =>
    rcases Option.bind_eq_some_iff.mp h with ⟨c, hp, hrest⟩
    rcases post_spec hp with ⟨hcap, hbal⟩
    rcases ih hrest with ⟨hcaps, hbalances⟩
    refine ⟨hcaps.trans hcap, ?_⟩
    rw [hbalances, hbal, List.map_cons, List.sum_cons]
    ring

end Beldex.Foundation.CappedAccount
