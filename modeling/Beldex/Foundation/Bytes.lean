import Mathlib.Data.List.Basic
import Mathlib.Tactic.Ring

/-!
# Numbers as bytes

The bytes of a number of a fixed width, least significant first, and the number
that a row of bytes spells.  Each direction undoes the other, so that values
which are written with a fixed width can be cut off the front of a string and
compared there.
-/

namespace Beldex.Foundation.Bytes

def toBytes : Nat -> Nat -> List UInt8
  | 0, _ => []
  | count + 1, value => UInt8.ofNat value :: toBytes count (value / 256)

def ofBytes : List UInt8 -> Nat
  | [] => 0
  | byte :: rest => byte.toNat + 256 * ofBytes rest

@[simp]
theorem length_toBytes (count value : Nat) : (toBytes count value).length = count := by
  induction count generalizing value with
  | zero => rfl
  | succ count ih => rw [toBytes, List.length_cons, ih]

theorem ofBytes_lt (bytes : List UInt8) : ofBytes bytes < 256 ^ bytes.length := by
  induction bytes with
  | nil => exact Nat.one_pos
  | cons byte rest ih =>
    have hbyte : byte.toNat < 256 := byte.toNat_lt
    rw [ofBytes, List.length_cons, Nat.pow_succ]
    omega

theorem ofBytes_toBytes {count value : Nat} (h : value < 256 ^ count) :
    ofBytes (toBytes count value) = value := by
  induction count generalizing value with
  | zero =>
    rw [Nat.pow_zero, Nat.lt_one_iff] at h
    exact h.symm
  | succ count ih =>
    have hrest : value / 256 < 256 ^ count := by
      rw [Nat.pow_succ] at h
      exact Nat.div_lt_of_lt_mul (Nat.mul_comm _ _ ▸ h)
    rw [toBytes, ofBytes, ih hrest, UInt8.toNat_ofNat']
    exact Nat.mod_add_div value 256

theorem toBytes_ofBytes (bytes : List UInt8) : toBytes bytes.length (ofBytes bytes) = bytes := by
  induction bytes with
  | nil => rfl
  | cons byte rest ih =>
    have hbyte : byte.toNat < 256 := byte.toNat_lt
    have hhead : UInt8.ofNat (byte.toNat + 256 * ofBytes rest) = byte := by
      apply UInt8.toNat_inj.mp
      rw [UInt8.toNat_ofNat']
      omega
    have htail : (byte.toNat + 256 * ofBytes rest) / 256 = ofBytes rest := by omega
    rw [List.length_cons, ofBytes, toBytes, hhead, htail, ih]

/-! ## Words -/

def ofBits {w : Nat} (x : BitVec w) : List UInt8 :=
  toBytes (w / 8) x.toNat

@[simp]
theorem length_ofBits {w : Nat} (x : BitVec w) : (ofBits x).length = w / 8 :=
  length_toBytes (w / 8) x.toNat

theorem ofBits_inj {w : Nat} (hw : 8 * (w / 8) = w) {x y : BitVec w} :
    ofBits x = ofBits y <-> x = y := by
  constructor
  · intro h
    have hwidth : 2 ^ w = 256 ^ (w / 8) := by
      rw [show (256 : Nat) = 2 ^ 8 from rfl, <- Nat.pow_mul, hw]
    have hx : x.toNat < 256 ^ (w / 8) := hwidth ▸ x.isLt
    have hy : y.toNat < 256 ^ (w / 8) := hwidth ▸ y.isLt
    have hvalue := congrArg ofBytes h
    unfold ofBits at hvalue
    rw [ofBytes_toBytes hx, ofBytes_toBytes hy] at hvalue
    exact BitVec.eq_of_toNat_eq hvalue
  · intro h
    rw [h]

end Beldex.Foundation.Bytes
