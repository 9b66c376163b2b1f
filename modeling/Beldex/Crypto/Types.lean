import Mathlib.Data.BitVec
import Mathlib.Data.UInt

/-!
# Fixed-width crypto types

The crypto layer of the node passes hashes, keys and identifiers around as raw
blocks of 32 bytes.  Each of them is modelled as one number of 256 bits in the
little-endian order in which the code reads the bytes back, under its own type
name, so that a key cannot be used where a hash is expected.
-/

namespace Beldex.Crypto

structure Hash where
  bits : BitVec 256
deriving DecidableEq

structure PublicKey where
  bits : BitVec 256
deriving DecidableEq

structure TokenId where
  bits : BitVec 256
deriving DecidableEq

/-- The key image that marks an output as spent. -/
structure KeyImage where
  bits : BitVec 256
deriving DecidableEq

/-- A ring-signature key: a scalar or an encoded point inside a proof. -/
structure Key where
  bits : BitVec 256
deriving DecidableEq

structure Signature where
  c : Key
  r : Key
deriving DecidableEq

def nullHash : Hash := ⟨0⟩

def nullPkey : PublicKey := ⟨0⟩

def nullTid : TokenId := ⟨0⟩

def zeroKey : Key := ⟨0⟩

def nullSignature : Signature := ⟨zeroKey, zeroKey⟩

/-- The little-endian 64-bit word number `i` of a hash. -/
def Hash.word (h : Hash) (i : Nat) : UInt64 :=
  UInt64.ofBitVec (h.bits.extractLsb' (64 * i) 64)

def Hash.toNat (h : Hash) : Nat :=
  h.bits.toNat

end Beldex.Crypto
