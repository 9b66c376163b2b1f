import Beldex.Foundation.Bytes
import Mathlib.Data.PEquiv
import Mathlib.Data.Vector.Basic

/-!
# Codecs

A codec writes values as bytes and reads them back from the front of a string.
Both directions are partial, and they agree: what is read is exactly what the
writer produces for the value, so a value has one spelling and a spelling one
value.  Codecs are put together from single bytes and numbers by sequencing,
repetition, gates and partial bijections, and every combination is again a
codec.
-/

namespace Beldex
namespace Foundation

open List Option

structure Codec (α : Type) where
  write : α -> Option (List UInt8)
  read : List UInt8 -> Option (α × List UInt8)
  read_iff : forall a input rest,
    read input = some (a, rest) <-> exists bytes, write a = some bytes ∧ input = bytes ++ rest

namespace Codec

variable {α β γ : Type} {a : α} {bytes : List UInt8}

theorem read_append (c : Codec α) (h : c.write a = some bytes) (rest : List UInt8) :
    c.read (bytes ++ rest) = some (a, rest) :=
  (c.read_iff a (bytes ++ rest) rest).mpr ⟨bytes, h, rfl⟩

theorem exists_write (c : Codec α) {input rest : List UInt8} (h : c.read input = some (a, rest)) :
    exists bytes, c.write a = some bytes ∧ input = bytes ++ rest :=
  (c.read_iff a input rest).mp h

theorem append_inj (c : Codec α) {b : α} {x y s t : List UInt8} (ha : c.write a = some x)
    (hb : c.write b = some y) (h : x ++ s = y ++ t) : a = b ∧ x = y ∧ s = t := by
  have hread := c.read_append ha s
  rw [h, c.read_append hb t] at hread
  cases hread
  exact ⟨rfl, append_cancel_right h, rfl⟩

theorem write_inj (c : Codec α) {b : α} {x : List UInt8} (ha : c.write a = some x)
    (hb : c.write b = some x) : a = b := by
  have happend : x ++ [] = x ++ [] := rfl
  exact (c.append_inj ha hb happend).1

/-! ## Primitive codecs -/

def byte : Codec UInt8 where
  write := fun b => some [b]
  read := fun input =>
    match input with
    | [] => none
    | b :: rest => some (b, rest)
  read_iff := by
    intro b input rest
    cases input with
    | nil => simp
    | cons head tail =>
      simp only [some.injEq, Prod.mk.injEq, exists_eq_left', cons_append, nil_append, cons.injEq]

/-- Numbers of a fixed count of bytes, least significant first. -/
def fixed (count : Nat) : Codec Nat where
  write := fun n => if n < 256 ^ count then some (Bytes.toBytes count n) else none
  read := fun input =>
    if count <= input.length then
      some (Bytes.ofBytes (input.take count), input.drop count)
    else
      none
  read_iff := by
    intro n input rest
    constructor
    · intro h
      split at h
      next hlen =>
        cases h
        have htake : (input.take count).length = count := length_take_of_le hlen
        have hlt := Bytes.ofBytes_lt (input.take count)
        have hbytes := Bytes.toBytes_ofBytes (input.take count)
        rw [htake] at hlt hbytes
        refine ⟨input.take count, ?_, (take_append_drop count input).symm⟩
        rw [if_pos hlt, hbytes]
      · cases h
    · rintro ⟨bytes, hwrite, rfl⟩
      split at hwrite
      next hlt =>
        cases hwrite
        have hlen : count <= (Bytes.toBytes count n ++ rest).length := by simp
        rw [if_pos hlen]
        simp [Bytes.ofBytes_toBytes hlt]
      · cases hwrite

/-! ## Combinations -/

/-- A value and after it another one, whose codec may depend on the first. -/
def andThen (c : Codec α) (d : α -> Codec β) : Codec (α × β) where
  write := fun p => (c.write p.1).bind fun x => ((d p.1).write p.2).map fun y => x ++ y
  read := fun input => (c.read input).bind fun p =>
    ((d p.1).read p.2).map fun q => ((p.1, q.1), q.2)
  read_iff := by
    rintro ⟨a, b⟩ input rest
    simp only [bind_eq_some_iff, map_eq_some_iff]
    constructor
    · rintro ⟨⟨a', middle⟩, hfirst, ⟨b', rest'⟩, hsecond, heq⟩
      rw [Prod.mk.injEq, Prod.mk.injEq] at heq
      rcases heq with ⟨⟨rfl, rfl⟩, rfl⟩
      rcases c.exists_write hfirst with ⟨x, hx, rfl⟩
      rcases (d a').exists_write hsecond with ⟨y, hy, hmiddle⟩
      subst hmiddle
      exact ⟨x ++ y, ⟨x, hx, y, hy, rfl⟩, (append_assoc x y rest').symm⟩
    · rintro ⟨bytes, ⟨x, hx, y, hy, rfl⟩, rfl⟩
      refine ⟨(a, y ++ rest), ?_, (b, rest), (d a).read_append hy rest, rfl⟩
      rw [append_assoc]
      exact c.read_append hx (y ++ rest)

def pair (c : Codec α) (d : Codec β) : Codec (α × β) :=
  c.andThen fun _ => d

/-- The values of another type that correspond to values of a codec. -/
def along (c : Codec α) (e : α ≃. β) : Codec β where
  write := fun b => (e.symm b).bind c.write
  read := fun input => (c.read input).bind fun p => (e p.1).map fun b => (b, p.2)
  read_iff := by
    intro b input rest
    simp only [bind_eq_some_iff, map_eq_some_iff]
    constructor
    · rintro ⟨⟨a, rest'⟩, hread, b', he, heq⟩
      cases heq
      rcases c.exists_write hread with ⟨bytes, hwrite, rfl⟩
      exact ⟨bytes, ⟨a, e.eq_some_iff.mpr he, hwrite⟩, rfl⟩
    · rintro ⟨bytes, ⟨a, he, hwrite⟩, rfl⟩
      exact ⟨(a, rest), c.read_append hwrite rest, b, e.eq_some_iff.mp he, rfl⟩

def iso (c : Codec α) (f : α -> β) (g : β -> α) (hgf : forall a, g (f a) = a)
    (hfg : forall b, f (g b) = b) : Codec β :=
  c.along (Equiv.toPEquiv ⟨f, g, hgf, hfg⟩)

/-- Values with a property; others are neither written nor read. -/
def guard (c : Codec α) (p : α -> Bool) : Codec α :=
  c.along (PEquiv.ofSet { a | p a = true })

def alternative (c : Codec α) (inject : α -> β) (project : β -> Option α)
    (h : forall a b, project b = some a <-> inject a = b) : Codec β :=
  c.along
    { toFun := fun a => some (inject a)
      invFun := project
      inv := fun a b => (h a b).trans some_inj.symm }

variable {c : Codec α}

theorem andThen_write_eq_some {d : α -> Codec β} {b : β} :
    (c.andThen d).write (a, b) = some bytes <->
      exists x y, c.write a = some x ∧ (d a).write b = some y ∧ bytes = x ++ y := by
  change ((c.write a).bind fun x => ((d a).write b).map fun y => x ++ y) = some bytes <-> _
  simp only [bind_eq_some_iff, map_eq_some_iff]
  constructor
  · rintro ⟨x, hx, y, hy, rfl⟩
    exact ⟨x, y, hx, hy, rfl⟩
  · rintro ⟨x, y, hx, hy, rfl⟩
    exact ⟨x, hx, y, hy, rfl⟩

theorem pair_write_eq_some {d : Codec β} {b : β} :
    (c.pair d).write (a, b) = some bytes <->
      exists x y, c.write a = some x ∧ d.write b = some y ∧ bytes = x ++ y :=
  andThen_write_eq_some

theorem iso_write (c : Codec α) (f : α -> β) (g : β -> α) (hgf : forall a, g (f a) = a)
    (hfg : forall b, f (g b) = b) (b : β) : (c.iso f g hgf hfg).write b = c.write (g b) :=
  rfl

theorem guard_write_eq_some {p : α -> Bool} :
    (c.guard p).write a = some bytes <-> p a = true ∧ c.write a = some bytes := by
  change ((PEquiv.ofSet { a | p a = true }).symm a).bind c.write = some bytes <-> _
  rw [PEquiv.ofSet_symm]
  by_cases h : p a = true
  · have hsome : PEquiv.ofSet { a | p a = true } a = some a := if_pos h
    rw [hsome]
    simp [h]
  · have hnone : PEquiv.ofSet { a | p a = true } a = none := if_neg h
    rw [hnone]
    simp [h]

def never : Codec β where
  write := fun _ => none
  read := fun _ => none
  read_iff := by
    intro b input rest
    simp

def tagged (tag : β -> UInt8) (alternatives : UInt8 -> Codec β) : Codec β :=
  (byte.andThen alternatives).along
    { toFun := fun p => if tag p.2 = p.1 then some p.2 else none
      invFun := fun b => some (tag b, b)
      inv := by
        rintro ⟨t, b⟩ b'
        simp only [some.injEq, Prod.mk.injEq]
        constructor
        · rintro ⟨rfl, rfl⟩
          rw [if_pos rfl]
        · intro h
          split at h
          next htag =>
            cases h
            exact ⟨htag, rfl⟩
          · cases h }

def optional (present : Bool) (c : Codec α) : Codec (Option α) where
  write := fun o =>
    match present, o with
    | true, some a => c.write a
    | false, none => some []
    | _, _ => none
  read := fun input =>
    if present then (c.read input).map fun p => (some p.1, p.2) else some (none, input)
  read_iff := by
    intro o input rest
    cases present with
    | false =>
      cases o with
      | none => simp [eq_comm]
      | some a => simp
    | true =>
      simp only [if_true, map_eq_some_iff]
      cases o with
      | none => simp
      | some a =>
        simp only [Prod.mk.injEq, some.injEq]
        constructor
        · rintro ⟨⟨a', rest'⟩, hread, rfl, rfl⟩
          exact c.exists_write hread
        · intro h
          exact ⟨(a, rest), (c.read_iff a input rest).mpr h, rfl, rfl⟩

theorem isSome_of_optional {present : Bool} {o : Option α}
    (h : (optional present c).write o = some bytes) : o.isSome = present := by
  cases present with
  | false =>
    cases o with
    | none => rfl
    | some a => cases h
  | true =>
    cases o with
    | none => cases h
    | some a => rfl

def onlyIf (present : Bool) (a : α) : Option α :=
  if present then some a else none

@[simp]
theorem onlyIf_true (a : α) : onlyIf true a = some a :=
  rfl

@[simp]
theorem onlyIf_false (a : α) : onlyIf false a = none :=
  rfl

theorem onlyIf_getD {present : Bool} {o : Option α} (h : o.isSome = present) (a : α) :
    onlyIf present (o.getD a) = o := by
  cases o with
  | _ =>
    subst h
    rfl

/-! ## Lists -/

def writeAll (c : Codec α) : List α -> Option (List UInt8)
  | [] => some []
  | a :: l => (c.write a).bind fun x => (c.writeAll l).map fun y => x ++ y

def readMany (c : Codec α) : Nat -> List UInt8 -> Option (List α × List UInt8)
  | 0, input => some ([], input)
  | n + 1, input => (c.read input).bind fun p =>
    (c.readMany n p.2).map fun q => (p.1 :: q.1, q.2)

theorem readMany_iff (c : Codec α) (n : Nat) (l : List α) (input rest : List UInt8) :
    c.readMany n input = some (l, rest) <->
      l.length = n ∧ exists bytes, c.writeAll l = some bytes ∧ input = bytes ++ rest := by
  induction n generalizing l input with
  | zero =>
    cases l with
    | nil => simp [readMany, writeAll, eq_comm]
    | cons a l => simp [readMany]
  | succ n ih =>
    cases l with
    | nil => simp [readMany, bind_eq_some_iff]
    | cons a l =>
      simp only [readMany, writeAll, bind_eq_some_iff, map_eq_some_iff,
        length_cons, Nat.add_right_cancel_iff]
      constructor
      · rintro ⟨⟨a', middle⟩, hread, ⟨l', rest'⟩, hmany, heq⟩
        rw [Prod.mk.injEq, cons.injEq] at heq
        rcases heq with ⟨⟨rfl, rfl⟩, rfl⟩
        rcases c.exists_write hread with ⟨x, hx, rfl⟩
        rcases (ih l' middle).mp hmany with ⟨hlen, y, hy, hmiddle⟩
        subst hmiddle
        exact ⟨hlen, x ++ y, ⟨x, hx, y, hy, rfl⟩, (append_assoc x y rest').symm⟩
      · rintro ⟨hlen, bytes, ⟨x, hx, y, hy, rfl⟩, rfl⟩
        refine ⟨(a, y ++ rest), ?_, (l, rest), ?_, rfl⟩
        · rw [append_assoc]
          exact c.read_append hx (y ++ rest)
        · exact (ih l (y ++ rest)).mpr ⟨hlen, y, hy, rfl⟩

def array (n : Nat) (c : Codec α) : Codec (List α) where
  write := fun l => if l.length = n then c.writeAll l else none
  read := c.readMany n
  read_iff := by
    intro l input rest
    rw [c.readMany_iff n l input rest]
    split
    next hlen =>
      simp [hlen]
    next hlen =>
      simp [hlen]

theorem length_of_array {n : Nat} {l : List α} (h : (c.array n).write l = some bytes) :
    l.length = n := by
  have h : (if l.length = n then c.writeAll l else none) = some bytes := h
  split at h
  · assumption
  · cases h

def vector (n : Nat) (c : Codec α) : Codec (List.Vector α n) :=
  (c.array n).along
    { toFun := fun l => if h : l.length = n then some ⟨l, h⟩ else none
      invFun := fun v => some v.1
      inv := by
        rintro l ⟨l', h⟩
        simp only [some.injEq]
        constructor
        · rintro rfl
          rw [dif_pos h]
        · intro heq
          split at heq
          · cases heq
            rfl
          · cases heq }

def counted (count : Codec Nat) (c : Codec α) : Codec (List α) :=
  (count.andThen fun n => c.array n).along
    { toFun := fun p => if p.2.length = p.1 then some p.2 else none
      invFun := fun l => some (l.length, l)
      inv := by
        rintro ⟨n, l⟩ l'
        simp only [some.injEq, Prod.mk.injEq]
        constructor
        · rintro ⟨rfl, rfl⟩
          rw [if_pos rfl]
        · intro h
          split at h
          next hlen =>
            cases h
            exact ⟨hlen, rfl⟩
          · cases h }

end Codec
end Foundation
end Beldex
