import Beldex.Wire.Ringct

/-!
# Transactions on the wire

The archive of a transaction: the prefix, the signatures of the first version or
the base part of the ring signature, its prunable part, the signatures of token
inputs and the token proofs.  What is there depends on members that have been
written or read before, and on some that an object has kept from its previous
use.

Positions in a blob and lengths of blobs are natural numbers; the code keeps
them in 32 bits.
-/

namespace Beldex
namespace Wire

open Basic (RctType TxType TxVersion)
open Crypto Foundation Codec

/-! ## Versions and types -/

def txVersionOfNat : Nat -> Option TxVersion
  | 1 => some .v1
  | 2 => some .v2Ringct
  | 3 => some .v3PerOutputUnlockTimes
  | 4 => some .v4TxTypes
  | _ => none

/-- The version; the one below the first is never read. -/
def txVersion : Codec TxVersion :=
  (varint 16 (by decide)).along
    { toFun := txVersionOfNat
      invFun := fun version => onlyIf (version != .v0) version.toNat
      inv := by
        intro n version
        constructor
        · intro h
          cases version <;> cases h <;> rfl
        · intro h
          unfold txVersionOfNat at h
          split at h <;> cases h <;> rfl }

def txTypeOfNat : Nat -> Option TxType
  | 0 => some .standard
  | 1 => some .stateChange
  | 2 => some .keyImageUnlock
  | 3 => some .stake
  | 4 => some .beldexNameSystem
  | 5 => some .coinBurn
  | 6 => some .registerPrivacyToken
  | 7 => some .mintToken
  | 8 => some .updateToken
  | 9 => some .burnToken
  | _ => none

def txType : Codec TxType :=
  (varint 16 (by decide)).along
    { toFun := txTypeOfNat
      invFun := fun type => some type.toNat
      inv := by
        intro n type
        constructor
        · intro h
          cases h
          cases type <;> rfl
        · intro h
          unfold txTypeOfNat at h
          split at h <;> cases h <;> rfl }

/-- From the third version on every output has its own unlock time. -/
def hasUnlockTimes (version : TxVersion) : Bool :=
  decide (TxVersion.v3PerOutputUnlockTimes.toNat <= version.toNat)

/-- From the fourth version on the type is serialised. -/
def hasTxType (version : TxVersion) : Bool :=
  decide (TxVersion.v4TxTypes.toNat <= version.toNat)

/-! ## The prefix -/

structure TransactionPrefix where
  version : TxVersion
  type : TxType
  unlockTime : UInt64
  vin : List TxInV
  vout : List TxOut
  extra : List UInt8
  outputUnlockTimes : List UInt64
deriving DecidableEq

/-- What of a prefix goes over the wire.  The flag of the third version is the byte that
stands for it. -/
structure PrefixContent where
  version : TxVersion
  outputUnlockTimes : Option (List UInt64)
  isStateChange : Option UInt8
  unlockTime : UInt64
  vin : List TxInV
  vout : List TxOut
  extra : List UInt8
  type : Option TxType

/-- From the third version on there is an unlock time for every output. -/
def PrefixContent.hasCorrectUnlockTimes (content : PrefixContent) : Bool :=
  match content.outputUnlockTimes with
  | some times => content.vout.length == times.length
  | none => true

def prefixFields (version : TxVersion) :
    Codec (Option (List UInt64) × Option UInt8 × UInt64 × List TxInV × List TxOut × List UInt8 ×
      Option TxType) :=
  (optional (hasUnlockTimes version) (vectorOf varint64)).pair
    ((optional (version == .v3PerOutputUnlockTimes) byte).pair
      (varint64.pair ((vectorOf txInV).pair ((vectorOf txOut).pair
        ((vectorOf byte).pair (optional (hasTxType version) txType))))))

def prefixArchive : Codec PrefixContent :=
  ((txVersion.andThen prefixFields).iso
    (fun p => (⟨p.1, p.2.1, p.2.2.1, p.2.2.2.1, p.2.2.2.2.1, p.2.2.2.2.2.1, p.2.2.2.2.2.2.1,
      p.2.2.2.2.2.2.2⟩ : PrefixContent))
    (fun t => (t.version, t.outputUnlockTimes, t.isStateChange, t.unlockTime, t.vin, t.vout,
      t.extra, t.type))
    (fun _ => rfl) (fun _ => rfl)).guard PrefixContent.hasCorrectUnlockTimes

def TransactionPrefix.content (tx : TransactionPrefix) : PrefixContent where
  version := tx.version
  outputUnlockTimes := onlyIf (hasUnlockTimes tx.version) tx.outputUnlockTimes
  isStateChange :=
    onlyIf (tx.version == .v3PerOutputUnlockTimes) (if tx.type = .stateChange then 1 else 0)
  unlockTime := tx.unlockTime
  vin := tx.vin
  vout := tx.vout
  extra := tx.extra
  type := onlyIf (hasTxType tx.version) tx.type

/-- The type after content has been read: the serialised one, the one for the flag of the
third version, or the one the object had.  A flag is set if its byte is not zero. -/
def PrefixContent.typeInto (content : PrefixContent) (target : TxType) : TxType :=
  match content.type, content.isStateChange with
  | some type, _ => type
  | none, some flag => if flag = 0 then .standard else .stateChange
  | none, none => target

/-- A prefix after content has been read into it.  The writer assigns the type as the
reader does. -/
def PrefixContent.into (content : PrefixContent) (target : TransactionPrefix) :
    TransactionPrefix where
  version := content.version
  type := content.typeInto target.type
  unlockTime := content.unlockTime
  vin := content.vin
  vout := content.vout
  extra := content.extra
  outputUnlockTimes := content.outputUnlockTimes.getD target.outputUnlockTimes

def TransactionPrefix.isTransfer (tx : TransactionPrefix) : Bool :=
  tx.type == .standard || tx.type == .stake || tx.type == .beldexNameSystem ||
    tx.type == .coinBurn || tx.type == .registerPrivacyToken || tx.type == .mintToken ||
    tx.type == .updateToken || tx.type == .burnToken

/-! ## The transaction -/

structure Transaction extends TransactionPrefix where
  signatures : List (List Signature)
  rctSignatures : RctSig
  zySig : List ZySig
  tokenProofs : List TokenProofV
  pruned : Bool
  unprunableSize : Nat
  prefixSize : Nat
deriving DecidableEq

def RctSig.setNull : RctSig where
  type := .null
  pseudoOuts := []
  ecdhInfo := []
  outPk := []
  txnFee := 0
  p :=
    { rangeSigs := [], bulletproofs := [], bulletproofsPlus := [], mgs := [], clsags := []
      pseudoOuts := [] }

namespace Transaction

def setNull : Transaction where
  version := .v1
  type := .standard
  unlockTime := 0
  vin := []
  vout := []
  extra := []
  outputUnlockTimes := []
  signatures := []
  rctSignatures := RctSig.setNull
  zySig := []
  tokenProofs := []
  pruned := false
  unprunableSize := 0
  prefixSize := 0

def hasZyphoraOutputs (tx : Transaction) : Bool :=
  tx.vout.any TxOut.isZyphora

def hasZyphoraInputs (tx : Transaction) : Bool :=
  tx.vin.any fun txin => txin.zyInput?.isSome

def nativeOutputs (tx : Transaction) : Nat :=
  (tx.vout.filter fun out => !out.isZyphora).length

def nativeInputs (tx : Transaction) : Nat :=
  (tx.vin.filter fun txin => txin.toKey?.isSome).length

/-- One more than `mixin`, which the code takes from the first input. -/
def ringSize (tx : Transaction) : Nat :=
  match tx.vin with
  | .toKey txin :: _ => txin.keyOffsets.length
  | .zyInput txin :: _ => txin.keyOffsets.length
  | _ => 1

def hasTokenProofs (tx : Transaction) : Bool :=
  !tx.tokenProofs.isEmpty || tx.hasZyphoraOutputs || tx.type == .updateToken ||
    tx.type == .burnToken

def hasPrunable (tx : Transaction) : Bool :=
  !tx.pruned && tx.rctSignatures.type != .null

end Transaction

structure ProofsContent where
  prunable : Option RctPrunableContent
  zySig : Option (List ZySig)
  tokenProofs : Option (List TokenProofV)

namespace Transaction

/-- The archive of the sections after the base part, as the object selects them. -/
def proofsArchive (tx : Transaction) : Codec ProofsContent :=
  ((optional tx.hasPrunable
      (rctsigPrunable tx.rctSignatures.type tx.nativeInputs tx.nativeOutputs tx.ringSize)).pair
    ((optional tx.hasZyphoraInputs (vectorOf signatureV)).pair
      (optional tx.hasTokenProofs (vectorOf tokenProofV)))).iso
    (fun p => ⟨p.1, p.2.1, p.2.2⟩) (fun t => (t.prunable, t.zySig, t.tokenProofs))
    (fun _ => rfl) (fun _ => rfl)

def proofsContent (tx : Transaction) : ProofsContent where
  prunable := onlyIf tx.hasPrunable (tx.rctSignatures.p.content tx.rctSignatures.type)
  zySig := onlyIf tx.hasZyphoraInputs tx.zySig
  tokenProofs := onlyIf tx.hasTokenProofs tx.tokenProofs

def baseArchive (tx : Transaction) : Codec RctBaseContent :=
  rctsigBase tx.vin.length tx.nativeOutputs

end Transaction

def ProofsContent.into (content : ProofsContent) (target : Transaction) : Transaction :=
  { target with
    rctSignatures :=
      { target.rctSignatures with
        p :=
          match content.prunable with
          | some prunable => prunable.into target.rctSignatures.p
          | none => target.rctSignatures.p }
    zySig := content.zySig.getD target.zySig
    tokenProofs := content.tokenProofs.getD target.tokenProofs }

def Transaction.withBase (tx : Transaction) (content : RctBaseContent) : Transaction :=
  { tx with
    rctSignatures :=
      { tx.rctSignatures with toRctSigBase := content.into tx.rctSignatures.toRctSigBase } }

def Transaction.withPrefix (tx : Transaction) (content : PrefixContent) : Transaction :=
  { tx with toTransactionPrefix := content.into tx.toTransactionPrefix }

namespace Transaction

/-! ## Signatures of the first version -/

def writeRings : List TxInV -> List (List Signature) -> Option (List UInt8)
  | txin :: vin, ring :: signatures =>
    if ring.length = txin.getSignatureSize then do
      let x <- (vectorOf signatureBlock).write ring
      let y <- writeRings vin signatures
      some (x ++ y)
    else
      none
  | _, _ => some []

def writeSignatures (tx : Transaction) : Option (List UInt8) :=
  if tx.signatures.isEmpty then
    if !tx.pruned && tx.vin.any (fun txin => txin.getSignatureSize != 0) then none else some []
  else if tx.vin.length ≠ tx.signatures.length then
    none
  else if tx.pruned then
    some []
  else
    writeRings tx.vin tx.signatures

def readSignatures (tx : Transaction) (input : List UInt8) : Option (Transaction × List UInt8) :=
  if tx.pruned then
    some ({ tx with signatures := resize tx.signatures tx.vin.length [] }, input)
  else
    ((vectorOf signatureBlock).readMany tx.vin.length input).map fun p =>
      ({ tx with signatures := p.1 }, p.2)

/-! ## Writing and reading -/

/-- The archive writes a transaction and notes the sizes of its parts in the object. -/
def write (tx : Transaction) : Option (List UInt8 × Transaction) := do
  let head <- prefixArchive.write tx.toTransactionPrefix.content
  let tx : Transaction :=
    { tx.withPrefix tx.toTransactionPrefix.content with prefixSize := head.length }
  if tx.version = .v1 then
    let body <- tx.writeSignatures
    some (head ++ body, { tx with unprunableSize := head.length })
  else if tx.vin.isEmpty then
    some (head, tx)
  else
    let base <- tx.baseArchive.write tx.rctSignatures.content
    let tx : Transaction := { tx with unprunableSize := head.length + base.length }
    let proofs <- tx.proofsArchive.write tx.proofsContent
    some (head ++ base ++ proofs, tx)

def read (target : Transaction) (input : List UInt8) : Option (Transaction × List UInt8) := do
  let (content, afterHead) <- prefixArchive.read input
  let headSize := input.length - afterHead.length
  let tx : Transaction := { target.withPrefix content with prefixSize := headSize }
  if tx.version = .v1 then
    let (tx, rest) <- readSignatures { tx with unprunableSize := headSize } afterHead
    some ({ tx with pruned := false }, rest)
  else if tx.vin.isEmpty then
    some ({ tx with pruned := false }, afterHead)
  else
    let (base, afterBase) <- tx.baseArchive.read afterHead
    let tx : Transaction :=
      { tx.withBase base with unprunableSize := input.length - afterBase.length }
    let (proofs, rest) <- tx.proofsArchive.read afterBase
    some ({ proofs.into tx with pruned := false }, rest)

def serializeBase (target : Transaction) (input : List UInt8) :
    Option (Transaction × List UInt8) := do
  let (content, afterHead) <- prefixArchive.read input
  let tx := target.withPrefix content
  if tx.version == .v1 || tx.vin.isEmpty then
    some ({ tx with pruned := true }, afterHead)
  else
    let (base, rest) <- tx.baseArchive.read afterHead
    some ({ tx.withBase base with pruned := true }, rest)

/-! ## Parsing -/

def isCoinbase (tx : Transaction) : Bool :=
  match tx.vin with
  | [.gen _] => true
  | _ => false

/-- The checks of `expand_transaction_1`; what it restores is not serialised. -/
def expandTransaction1 (tx : Transaction) (baseOnly : Bool) : Bool :=
  let rv := tx.rctSignatures
  if tx.version.toNat < TxVersion.v2Ringct.toNat || tx.isCoinbase || rv.type == .null then
    true
  else
    decide (rv.outPk.length = tx.nativeOutputs) &&
      tx.vout.all (fun out => out.isZyphora || out.target.toKey?.isSome) && (baseOnly ||
        if isRctBulletproofPlus rv.type then
          match rv.p.bulletproofsPlus with
          | [proof] =>
            decide (6 <= proof.l.length) &&
              decide (tx.nativeOutputs <= bulletproofPlusMaxAmounts proof)
          | _ => false
        else if isRctBulletproof rv.type then
          match rv.p.bulletproofs with
          | [proof] =>
            decide (6 <= proof.L.length) && decide (tx.nativeOutputs <= 1 <<< (proof.L.length - 6))
          | _ => false
        else
          true)

def parseAndValidateTxFromBlob (target : Transaction) (blob : List UInt8) : Option Transaction :=
  match target.read blob with
  | some (tx, []) => if tx.expandTransaction1 false then some tx else none
  | _ => none

def parseAndValidateTxBaseFromBlob (target : Transaction) (blob : List UInt8) :
    Option Transaction :=
  match target.serializeBase blob with
  | some (tx, _) => if tx.expandTransaction1 true then some tx else none
  | none => none

def txToBlob (tx : Transaction) : Option (List UInt8) :=
  tx.write.map Prod.fst

end Transaction
end Wire
end Beldex
