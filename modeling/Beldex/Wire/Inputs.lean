import Beldex.Basic.Transaction
import Beldex.Wire.Varint

/-!
# Inputs and outputs on the wire

The members of inputs and outputs in the order in which the archive writes
them.  Keys and hashes are raw blocks of 32 bytes, integers of 64 bits have
variable length, vectors stand behind their length and alternatives behind a
tag.
-/

namespace Beldex.Wire

open Basic (TxInToKey TxInZyInput TxOutZyphora)
open Crypto Foundation Codec

/-! ## Numbers and blocks -/

def varint64 : Codec UInt64 :=
  (varint 64 (by decide)).along
    { toFun := fun n => if n < 2 ^ 64 then some (UInt64.ofNat n) else none
      invFun := fun x => some x.toNat
      inv := by
        intro n x
        simp only [Option.some.injEq]
        constructor
        · rintro rfl
          rw [if_pos x.toNat_lt, UInt64.ofNat_toNat]
        · intro h
          split at h
          next hn =>
            cases h
            rw [UInt64.toNat_ofNat', Nat.mod_eq_of_lt hn]
          · cases h }

def vectorSize : Codec Nat :=
  varint 64 (by decide)

def vectorOf {α : Type} (c : Codec α) : Codec (List α) :=
  counted vectorSize c

def block (w : Nat) : Codec (BitVec w) :=
  (fixed (w / 8)).along
    { toFun := fun n => if n < 2 ^ w then some (BitVec.ofNat w n) else none
      invFun := fun x => some x.toNat
      inv := by
        intro n x
        simp only [Option.some.injEq]
        constructor
        · rintro rfl
          rw [if_pos x.isLt, BitVec.ofNat_toNat, BitVec.setWidth_eq]
        · intro h
          split at h
          next hn =>
            cases h
            exact BitVec.toNat_ofNat n w ▸ Nat.mod_eq_of_lt hn
          · cases h }

def hashBlock : Codec Hash :=
  (block 256).iso Hash.mk Hash.bits (fun _ => rfl) (fun _ => rfl)

def publicKeyBlock : Codec PublicKey :=
  (block 256).iso PublicKey.mk PublicKey.bits (fun _ => rfl) (fun _ => rfl)

def keyImageBlock : Codec KeyImage :=
  (block 256).iso KeyImage.mk KeyImage.bits (fun _ => rfl) (fun _ => rfl)

def keyBlock : Codec Key :=
  (block 256).iso Key.mk Key.bits (fun _ => rfl) (fun _ => rfl)

def signatureBlock : Codec Signature :=
  (keyBlock.pair keyBlock).iso (fun p => ⟨p.1, p.2⟩) (fun s => (s.c, s.r)) (fun _ => rfl)
    (fun _ => rfl)

/-! ## Outputs -/

structure TxOutToScript where
  keys : List PublicKey
  script : List UInt8
deriving DecidableEq

def txOutToScript : Codec TxOutToScript :=
  ((vectorOf publicKeyBlock).pair (vectorOf byte)).iso (fun p => ⟨p.1, p.2⟩)
    (fun t => (t.keys, t.script)) (fun _ => rfl) (fun _ => rfl)

def txOutZyphora : Codec (TxOutZyphora Key) :=
  (publicKeyBlock.pair (keyBlock.pair (keyBlock.pair (varint64.pair (byte.pair byte))))).iso
    (fun p => ⟨p.1, p.2.1, p.2.2.1, p.2.2.2.1, p.2.2.2.2.1, p.2.2.2.2.2⟩)
    (fun t => (t.stealthAddress, t.amountCommitment, t.blindedTokenId, t.encryptedAmount,
      t.mixAttr, t.version))
    (fun _ => rfl) (fun _ => rfl)

inductive TxOutTargetV where
  | toScript (target : TxOutToScript)
  | toScripthash (hash : Hash)
  | toKey (key : PublicKey)
  | zyphora (zout : TxOutZyphora Key)
deriving DecidableEq

namespace TxOutTargetV

def variantTag : TxOutTargetV -> UInt8
  | .toScript _ => 0x0
  | .toScripthash _ => 0x1
  | .toKey _ => 0x2
  | .zyphora _ => 0x3

def toScript? : TxOutTargetV -> Option TxOutToScript
  | .toScript target => some target
  | _ => none

def toScripthash? : TxOutTargetV -> Option Hash
  | .toScripthash hash => some hash
  | _ => none

def toKey? : TxOutTargetV -> Option PublicKey
  | .toKey key => some key
  | _ => none

def zyphora? : TxOutTargetV -> Option (TxOutZyphora Key)
  | .zyphora zout => some zout
  | _ => none

def members (tag : UInt8) : Codec TxOutTargetV :=
  if tag = 0x0 then
    txOutToScript.alternative .toScript toScript? fun _ b => by
      cases b <;> simp [toScript?, eq_comm]
  else if tag = 0x1 then
    hashBlock.alternative .toScripthash toScripthash? fun _ b => by
      cases b <;> simp [toScripthash?, eq_comm]
  else if tag = 0x2 then
    publicKeyBlock.alternative .toKey toKey? fun _ b => by cases b <;> simp [toKey?, eq_comm]
  else if tag = 0x3 then
    txOutZyphora.alternative .zyphora zyphora? fun _ b => by cases b <;> simp [zyphora?, eq_comm]
  else
    never

end TxOutTargetV

def txOutTargetV : Codec TxOutTargetV :=
  tagged TxOutTargetV.variantTag TxOutTargetV.members

structure TxOut where
  amount : UInt64
  target : TxOutTargetV
deriving DecidableEq

def txOut : Codec TxOut :=
  (varint64.pair txOutTargetV).iso (fun p => ⟨p.1, p.2⟩) (fun t => (t.amount, t.target))
    (fun _ => rfl) (fun _ => rfl)

def TxOut.isZyphora (out : TxOut) : Bool :=
  out.target.zyphora?.isSome

/-! ## Inputs -/

structure TxInToScript where
  prev : Hash
  prevout : UInt64
  sigset : List UInt8
deriving DecidableEq

def txInToScript : Codec TxInToScript :=
  (hashBlock.pair (varint64.pair (vectorOf byte))).iso (fun p => ⟨p.1, p.2.1, p.2.2⟩)
    (fun t => (t.prev, t.prevout, t.sigset)) (fun _ => rfl) (fun _ => rfl)

structure TxInToScripthash where
  prev : Hash
  prevout : UInt64
  script : TxOutToScript
  sigset : List UInt8
deriving DecidableEq

def txInToScripthash : Codec TxInToScripthash :=
  (hashBlock.pair (varint64.pair (txOutToScript.pair (vectorOf byte)))).iso
    (fun p => ⟨p.1, p.2.1, p.2.2.1, p.2.2.2⟩)
    (fun t => (t.prev, t.prevout, t.script, t.sigset)) (fun _ => rfl) (fun _ => rfl)

def txInToKey : Codec TxInToKey :=
  (varint64.pair ((vectorOf varint64).pair keyImageBlock)).iso (fun p => ⟨p.1, p.2.1, p.2.2⟩)
    (fun t => (t.amount, t.keyOffsets, t.kImage)) (fun _ => rfl) (fun _ => rfl)

def txInZyInput : Codec TxInZyInput :=
  ((vectorOf varint64).pair keyImageBlock).iso (fun p => ⟨p.1, p.2⟩)
    (fun t => (t.keyOffsets, t.kImage)) (fun _ => rfl) (fun _ => rfl)

inductive TxInV where
  | gen (height : UInt64)
  | toScript (txin : TxInToScript)
  | toScripthash (txin : TxInToScripthash)
  | toKey (txin : TxInToKey)
  | zyInput (txin : TxInZyInput)
deriving DecidableEq

namespace TxInV

def variantTag : TxInV -> UInt8
  | .gen _ => 0xff
  | .toScript _ => 0x0
  | .toScripthash _ => 0x1
  | .toKey _ => 0x2
  | .zyInput _ => 0x3

def gen? : TxInV -> Option UInt64
  | .gen height => some height
  | _ => none

def toScript? : TxInV -> Option TxInToScript
  | .toScript txin => some txin
  | _ => none

def toScripthash? : TxInV -> Option TxInToScripthash
  | .toScripthash txin => some txin
  | _ => none

def toKey? : TxInV -> Option TxInToKey
  | .toKey txin => some txin
  | _ => none

def zyInput? : TxInV -> Option TxInZyInput
  | .zyInput txin => some txin
  | _ => none

def members (tag : UInt8) : Codec TxInV :=
  if tag = 0xff then
    varint64.alternative .gen gen? fun _ b => by cases b <;> simp [gen?, eq_comm]
  else if tag = 0x0 then
    txInToScript.alternative .toScript toScript? fun _ b => by cases b <;> simp [toScript?, eq_comm]
  else if tag = 0x1 then
    txInToScripthash.alternative .toScripthash toScripthash? fun _ b => by
      cases b <;> simp [toScripthash?, eq_comm]
  else if tag = 0x2 then
    txInToKey.alternative .toKey toKey? fun _ b => by cases b <;> simp [toKey?, eq_comm]
  else if tag = 0x3 then
    txInZyInput.alternative .zyInput zyInput? fun _ b => by cases b <;> simp [zyInput?, eq_comm]
  else
    never

def getSignatureSize : TxInV -> Nat
  | .toKey txin => txin.keyOffsets.length
  | .zyInput txin => txin.keyOffsets.length
  | _ => 0

end TxInV

def txInV : Codec TxInV :=
  tagged TxInV.variantTag TxInV.members

end Beldex.Wire
