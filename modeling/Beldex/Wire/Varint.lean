import Beldex.Foundation.Codec

/-!
# Variable-length integers

Seven bits of a number go into each byte, the lowest first, and the eighth bit
says that more bytes follow.  The reader refuses a last byte without
significant bits and numbers that do not fit, so that a number has one
spelling.
-/

namespace Beldex.Wire

open Foundation

def varintMaxLength (bits : Nat) : Nat :=
  (bits + 6) / 7

/-- The loop of `write_varint`, which runs less often than the longest number is long. -/
def writeVarintLoop : Nat -> Nat -> List UInt8
  | 0, i => [UInt8.ofNat i]
  | count + 1, i =>
    if 0x7f < i then
      UInt8.ofNat (i % 128 + 128) :: writeVarintLoop count (i / 128)
    else
      [UInt8.ofNat i]

def writeVarint (bits i : Nat) : List UInt8 :=
  writeVarintLoop (varintMaxLength bits - 1) i

/-- The loop of `read_varint`.  The bits of a byte do not meet those that are already
in `write`, so that or-ing them is adding them. -/
def readVarintLoop (bits shift write : Nat) : List UInt8 -> Option (Nat × List UInt8)
  | [] => none
  | byte :: rest =>
    if byte = 0 ∧ shift ≠ 0 then
      none
    else if bits - shift <= 7 ∧ 2 ^ (bits - shift) <= byte.toNat then
      none
    else if 128 <= byte.toNat then
      readVarintLoop bits (shift + 7) (write + byte.toNat % 128 * 2 ^ shift) rest
    else
      some (write + byte.toNat % 128 * 2 ^ shift, rest)

def readVarint (bits : Nat) (input : List UInt8) : Option (Nat × List UInt8) :=
  readVarintLoop bits 0 0 input

/-! ## The two loops -/

theorem toNat_ofNat_of_lt {n : Nat} (h : n < 256) : (UInt8.ofNat n).toNat = n := by
  rw [UInt8.toNat_ofNat']
  exact Nat.mod_eq_of_lt h

theorem readVarintLoop_last {bits shift i : Nat} (hi : i < 128) (hfits : i < 2 ^ (bits - shift))
    (hnew : shift ≠ 0 -> 0 < i) (write : Nat) (rest : List UInt8) :
    readVarintLoop bits shift write (UInt8.ofNat i :: rest) =
      some (write + i * 2 ^ shift, rest) := by
  have hbyte : (UInt8.ofNat i).toNat = i := toNat_ofNat_of_lt (by omega)
  have hsignif : ¬ (UInt8.ofNat i = 0 ∧ shift ≠ 0) := by
    rintro ⟨hzero, hshift⟩
    have hi := hnew hshift
    have hnat : (UInt8.ofNat i).toNat = 0 := by rw [hzero]; rfl
    omega
  have hsmall : ¬ (bits - shift <= 7 ∧ 2 ^ (bits - shift) <= (UInt8.ofNat i).toNat) := by
    rw [hbyte]
    exact fun h => Nat.not_lt_of_le h.2 hfits
  rw [readVarintLoop, if_neg hsignif, if_neg hsmall, hbyte, if_neg (Nat.not_le_of_lt hi),
    Nat.mod_eq_of_lt hi]

theorem seven_lt_of_fits {avail i : Nat} (hi : 128 <= i) (hfits : i < 2 ^ avail) : 7 < avail := by
  by_contra h
  have hpow : 2 ^ avail <= 2 ^ 7 := Nat.pow_le_pow_right (by decide) (le_of_not_gt h)
  omega

theorem two_pow_sub_seven {bits shift : Nat} (h : 7 < bits - shift) :
    2 ^ (bits - shift) = 128 * 2 ^ (bits - (shift + 7)) := by
  have hsplit : bits - shift = 7 + (bits - (shift + 7)) := by omega
  rw [hsplit, Nat.pow_add]

theorem readVarintLoop_more {bits shift : Nat} (havail : 7 < bits - shift) {byte : UInt8}
    (hbyte : 128 <= byte.toNat) (write : Nat) (rest : List UInt8) :
    readVarintLoop bits shift write (byte :: rest) =
      readVarintLoop bits (shift + 7) (write + byte.toNat % 128 * 2 ^ shift) rest := by
  have hnonzero : ¬ (byte = 0 ∧ shift ≠ 0) := by
    rintro ⟨rfl, _⟩
    exact absurd hbyte (by decide)
  have hroom : ¬ (bits - shift <= 7 ∧ 2 ^ (bits - shift) <= byte.toNat) :=
    fun h => Nat.not_lt_of_le h.1 havail
  rw [readVarintLoop, if_neg hnonzero, if_neg hroom, if_pos hbyte]

theorem add_low_high (write i shift : Nat) :
    write + i % 128 * 2 ^ shift + i / 128 * 2 ^ (shift + 7) = write + i * 2 ^ shift := by
  calc
    write + i % 128 * 2 ^ shift + i / 128 * 2 ^ (shift + 7)
        = write + (i % 128 + 128 * (i / 128)) * 2 ^ shift := by ring
    _ = write + i * 2 ^ shift := by rw [Nat.mod_add_div]

theorem readVarintLoop_append {bits shift write count i : Nat} (hfits : i < 2 ^ (bits - shift))
    (hcount : i < 128 ^ (count + 1)) (hnew : shift ≠ 0 -> 0 < i) (rest : List UInt8) :
    readVarintLoop bits shift write (writeVarintLoop count i ++ rest) =
      some (write + i * 2 ^ shift, rest) := by
  induction count generalizing shift write i with
  | zero =>
    have hi : i < 128 := by simpa using hcount
    exact readVarintLoop_last hi hfits hnew write rest
  | succ count ih =>
    by_cases hi : 0x7f < i
    · have havail := seven_lt_of_fits hi hfits
      have hbyte : (UInt8.ofNat (i % 128 + 128)).toNat = i % 128 + 128 :=
        toNat_ofNat_of_lt (by omega)
      have hlow : (i % 128 + 128) % 128 = i % 128 := by omega
      have hmore : 128 <= (UInt8.ofNat (i % 128 + 128)).toNat := by omega
      rw [writeVarintLoop, if_pos hi, List.cons_append,
        readVarintLoop_more havail hmore, hbyte, hlow]
      rw [two_pow_sub_seven havail] at hfits
      have hcount' : i / 128 < 128 ^ (count + 1) := by
        rw [Nat.pow_succ] at hcount
        exact Nat.div_lt_of_lt_mul (Nat.mul_comm _ _ ▸ hcount)
      rw [ih (Nat.div_lt_of_lt_mul hfits) hcount' (fun _ => Nat.div_pos hi (by decide)),
        add_low_high]
    · rw [writeVarintLoop, if_neg hi]
      exact readVarintLoop_last (lt_of_not_ge hi) hfits hnew write rest

theorem readVarintLoop_eq_some {bits shift write v : Nat} {input rest : List UInt8}
    (h : readVarintLoop bits shift write input = some (v, rest)) :
    exists i, v = write + i * 2 ^ shift ∧ i < 2 ^ (bits - shift) ∧ (shift ≠ 0 -> 0 < i) ∧
      forall count, i < 128 ^ (count + 1) -> input = writeVarintLoop count i ++ rest := by
  induction input generalizing shift write with
  | nil => cases h
  | cons byte tail ih =>
    unfold readVarintLoop at h
    split at h
    · cases h
    next hsignif =>
    split at h
    · cases h
    next hroom =>
    have hlt : byte.toNat < 256 := byte.toNat_lt
    split at h
    next hmore =>
      have havail : 7 < bits - shift := by
        by_contra hnot
        have hpow : 2 ^ (bits - shift) <= 2 ^ 7 :=
          Nat.pow_le_pow_right (by decide) (le_of_not_gt hnot)
        exact hroom ⟨le_of_not_gt hnot, by omega⟩
      rcases ih h with ⟨i, hv, hfits, hnew, hinput⟩
      -- The number has the seven bits of this byte below those of the others.
      have hlow : (byte.toNat % 128 + 128 * i) % 128 = byte.toNat % 128 := by omega
      have hhigh : (byte.toNat % 128 + 128 * i) / 128 = i := by omega
      have hbyte : UInt8.ofNat (byte.toNat % 128 + 128) = byte := by
        apply UInt8.toNat_inj.mp
        rw [toNat_ofNat_of_lt (by omega)]
        omega
      refine ⟨byte.toNat % 128 + 128 * i, ?_, ?_, fun _ => by omega, ?_⟩
      · rw [hv]
        ring
      · rw [two_pow_sub_seven havail]
        omega
      · intro count hcount
        cases count with
        | zero => omega
        | succ count =>
          rw [Nat.pow_succ] at hcount
          rw [writeVarintLoop, if_pos (by omega), hlow, hhigh, hbyte, List.cons_append,
            <- hinput count (by omega)]
    next hlast =>
      cases h
      have hmod : byte.toNat % 128 = byte.toNat := Nat.mod_eq_of_lt (by omega)
      rw [hmod]
      refine ⟨byte.toNat, rfl, ?_, ?_, ?_⟩
      · by_cases havail : bits - shift <= 7
        · exact lt_of_not_ge fun hle => hroom ⟨havail, hle⟩
        · have hpow : 2 ^ 7 <= 2 ^ (bits - shift) :=
            Nat.pow_le_pow_right (by decide) (Nat.le_of_not_le havail)
          omega
      · intro hshift
        apply Nat.pos_of_ne_zero
        intro hzero
        exact hsignif ⟨UInt8.toNat_inj.mp hzero, hshift⟩
      · intro count _
        have hsingle : writeVarintLoop count byte.toNat = [byte] := by
          cases count with
          | zero => rw [writeVarintLoop, UInt8.ofNat_toNat]
          | succ count => rw [writeVarintLoop, if_neg (by omega), UInt8.ofNat_toNat]
        rw [hsingle]
        rfl

theorem lt_pow_varintMaxLength {bits i : Nat} (hbits : 0 < bits) (h : i < 2 ^ bits) :
    i < 128 ^ (varintMaxLength bits - 1 + 1) := by
  have hpow : 2 ^ bits <= 2 ^ (7 * (varintMaxLength bits - 1 + 1)) := by
    apply Nat.pow_le_pow_right (by decide)
    unfold varintMaxLength
    omega
  rw [Nat.pow_mul] at hpow
  exact lt_of_lt_of_le h hpow

def varint (bits : Nat) (hbits : 0 < bits) : Codec Nat where
  write := fun i => if i < 2 ^ bits then some (writeVarint bits i) else none
  read := readVarint bits
  read_iff := by
    intro i input rest
    constructor
    · intro h
      rcases readVarintLoop_eq_some h with ⟨j, hi, hfits, _, hinput⟩
      rw [Nat.pow_zero, Nat.mul_one, zero_add] at hi
      subst hi
      rw [Nat.sub_zero] at hfits
      refine ⟨writeVarint bits i, if_pos hfits, ?_⟩
      exact hinput _ (lt_pow_varintMaxLength hbits hfits)
    · rintro ⟨bytes, hwrite, rfl⟩
      split at hwrite
      next hfits =>
        cases hwrite
        have hread : readVarintLoop bits 0 0 (writeVarint bits i ++ rest) =
            some (0 + i * 2 ^ 0, rest) :=
          readVarintLoop_append hfits (lt_pow_varintMaxLength hbits hfits)
            (fun h => absurd rfl h) rest
        rw [Nat.pow_zero, Nat.mul_one, zero_add] at hread
        exact hread
      · cases hwrite

end Beldex.Wire
