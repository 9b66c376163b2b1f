import Beldex.Basic.Config

/-!
# Transactions and blocks

The data that consensus validation reads: inputs and outputs of a transaction,
the fields of its extra section, the privacy-token proofs it carries, and the
block around it.

Points of the curve that the code adds and subtracts (amount commitments and
blinded token identifiers) have the type parameter `P`, so that the same model
can be read over encoded points and over formal sums of generators.  Everything
else inside a proof is read by a verifier only and stays a row of keys.
-/

namespace Beldex.Basic

open Crypto

/-! ## Inputs and outputs -/

structure TxInToKey where
  amount : UInt64
  keyOffsets : List UInt64
  kImage : KeyImage
deriving DecidableEq

structure TxInZyInput where
  keyOffsets : List UInt64
  kImage : KeyImage
deriving DecidableEq

/-- The alternatives of an input; script inputs are never accepted. -/
inductive TxIn where
  | gen (height : UInt64)
  | toScript
  | toScripthash
  | toKey (txin : TxInToKey)
  | zyInput (txin : TxInZyInput)
deriving DecidableEq

structure TxOutZyphora (P : Type) where
  stealthAddress : PublicKey
  amountCommitment : P
  blindedTokenId : P
  encryptedAmount : UInt64
  mixAttr : UInt8
  version : UInt8
deriving DecidableEq

inductive TxOutTarget (P : Type) where
  | toScript
  | toScripthash
  | toKey (key : PublicKey)
  | zyphora (zout : TxOutZyphora P)
deriving DecidableEq

structure TxOut (P : Type) where
  amount : UInt64
  target : TxOutTarget P
deriving DecidableEq

def TxIn.zyInput? : TxIn -> Option TxInZyInput
  | .zyInput txin => some txin
  | _ => none

def TxOut.zyphora? {P : Type} (out : TxOut P) : Option (TxOutZyphora P) :=
  match out.target with
  | .zyphora zout => some zout
  | _ => none

/-! ## Token operations in the extra section -/

inductive TokenDescriptorOperationType where
  | undefined
  | registerToken
  | mintToken
  | updateToken
  | burnToken
deriving DecidableEq

structure TokenDescriptorBase where
  version : UInt8 := 1
  totalMaxSupply : UInt64 := 0
  currentSupply : UInt64 := 0
  decimalPoint : UInt8 := 0
  ticker : List UInt8 := []
  fullName : List UInt8 := []
  metaInfo : List UInt8 := []
  owner : PublicKey := nullPkey
deriving DecidableEq

def tokenFieldAmountCommitment : UInt8 := 1

def tokenFieldTokenId : UInt8 := 2

def tokenFieldDescriptor : UInt8 := 4

def tokenFieldAmount : UInt8 := 8

def tokenFieldTokenIdSalt : UInt8 := 16

/-- A token operation; the bits of `fields` say which members are present. -/
structure TokenDescriptorOperation (P : Type) where
  version : UInt8 := 1
  operationType : TokenDescriptorOperationType := .undefined
  fields : UInt8 := 0
  amountCommitment : P
  tokenId : TokenId := nullTid
  descriptor : TokenDescriptorBase := {}
  amount : UInt64 := 0
  tokenIdSalt : UInt32 := 0
deriving DecidableEq

def TokenDescriptorOperation.fieldIsSet {P : Type}
    (op : TokenDescriptorOperation P) (field : UInt8) : Bool :=
  op.fields &&& field != 0

structure CollateralLock where
  amount : UInt64
  mask : Key
  outputIndex : UInt8
deriving DecidableEq

/-- The fields of the extra section that the modelled rules look up. -/
inductive TxExtraField (P : Type) where
  | pubKey (key : PublicKey)
  | burn (amount : UInt64)
  | tokenDescriptorOperation (op : TokenDescriptorOperation P)
  | collateralLock (lock : CollateralLock)
  | masterNodeWinner (key : PublicKey)
  | other
deriving DecidableEq

/-! ## Privacy-token proofs -/

structure SchnorrSig where
  y : Key
  c : Key
deriving DecidableEq

structure LinearCompositionProof where
  y0 : Key
  y1 : Key
  c : Key
deriving DecidableEq

structure DoubleSchnorrSig where
  y0 : Key
  y1 : Key
  c : Key
deriving DecidableEq

structure BgeProof where
  a : Key
  b : Key
  pk : List Key
  f : List Key
  y : Key
  z : Key
deriving DecidableEq

structure BulletproofPlus where
  a : Key
  a1 : Key
  b : Key
  r1 : Key
  s1 : Key
  d1 : Key
  l : List Key
  r : List Key
deriving DecidableEq

structure VectorUgAggregationProof (P : Type) where
  amountCommitmentsForRpAggregation : List P
  y0s : List Key
  y1s : List Key
  c : Key
deriving DecidableEq

structure ZyBalanceProof (P : Type) where
  p : P
  dss : DoubleSchnorrSig
deriving DecidableEq

structure TokenOperationProof where
  flags : UInt8
  compositionProof : LinearCompositionProof
deriving DecidableEq

def TokenOperationProof.hasCompositionProof (proof : TokenOperationProof) : Bool :=
  proof.flags &&& 1 != 0

structure ZyOutsRangeProof (P : Type) where
  bpp : BulletproofPlus
  aggregationProof : VectorUgAggregationProof P
deriving DecidableEq

inductive TokenProof (P : Type) where
  | surjection (bgeProofs : List BgeProof)
  | balance (proof : ZyBalanceProof P)
  | tokenOperation (proof : TokenOperationProof)
  | ownership (sig : SchnorrSig)
  | outsRange (proof : ZyOutsRangeProof P)
deriving DecidableEq

structure ClsagGgx where
  sG : List Key
  sX : List Key
  c1 : Key
  keyImage : KeyImage
  d : Key
  e : Key
deriving DecidableEq

/-- The ring signature that spends one privacy-token input. -/
structure ZySig (P : Type) where
  clsagSig : ClsagGgx
  pseudoOutAmountCommitment : P
  pseudoOutBlindedTokenId : P
deriving DecidableEq

/-! ## Ring confidential transactions -/

inductive RctType where
  | null
  | full
  | simple
  | bulletproof
  | bulletproof2
  | clsag
  | bulletproofPlus
deriving DecidableEq

/-- A ring member: its one-time key and its amount commitment. -/
structure Ctkey (P : Type) where
  dest : PublicKey
  mask : P
deriving DecidableEq

structure Clsag where
  s : List Key
  c1 : Key
  keyImage : KeyImage
  d : Key
deriving DecidableEq

structure RctSig (P : Type) where
  type : RctType
  txnFee : UInt64
  outPk : List (Ctkey P)
  clsags : List Clsag
  pseudoOuts : List P
deriving DecidableEq

/-! ## Transactions -/

/-- A transaction; `extra` is `none` when the extra section does not parse. -/
structure Transaction (P : Type) where
  version : TxVersion
  type : TxType
  unlockTime : UInt64
  vin : List TxIn
  vout : List (TxOut P)
  extra : Option (List (TxExtraField P))
  outputUnlockTimes : List UInt64
  rctSignatures : RctSig P
  zySig : List (ZySig P)
  tokenProofs : List (TokenProof P)
deriving DecidableEq

def Transaction.setNull (P : Type) : Transaction P where
  version := .v1
  type := .standard
  unlockTime := 0
  vin := []
  vout := []
  extra := some []
  outputUnlockTimes := []
  rctSignatures :=
    { type := .null, txnFee := 0, outPk := [], clsags := [], pseudoOuts := [] }
  zySig := []
  tokenProofs := []

def Transaction.tokenOperations {P : Type} (tx : Transaction P) :
    List (TokenDescriptorOperation P) :=
  (tx.extra.getD []).filterMap fun field =>
    match field with
    | .tokenDescriptorOperation op => some op
    | _ => none

def getTokenDescriptorOperationFromTxExtra {P : Type}
    (tx : Transaction P) (skip : Nat) : Option (TokenDescriptorOperation P) :=
  tx.tokenOperations[skip]?

/-- The first transaction public key of the extra section, or the null key. -/
def getTxPubKeyFromExtra {P : Type} (tx : Transaction P) : PublicKey :=
  let keys := (tx.extra.getD []).filterMap fun field =>
    match field with
    | .pubKey key => some key
    | _ => none
  keys.headD nullPkey

/-- The block leader that a coinbase names, or the null key. -/
def getMasterNodeWinnerFromTxExtra {P : Type} (tx : Transaction P) : PublicKey :=
  let keys := (tx.extra.getD []).filterMap fun field =>
    match field with
    | .masterNodeWinner key => some key
    | _ => none
  keys.headD nullPkey

def Transaction.zyOutputs {P : Type} (tx : Transaction P) : List (TxOutZyphora P) :=
  tx.vout.filterMap TxOut.zyphora?

def Transaction.zyInputs {P : Type} (tx : Transaction P) : List TxInZyInput :=
  tx.vin.filterMap TxIn.zyInput?

/-- The image of a list under a partial function, with the original positions. -/
def filterMapIdx {α β : Type} (f : α -> Option β) : Nat -> List α -> List (β × Nat)
  | _, [] => []
  | i, a :: rest =>
    match f a with
    | some b => (b, i) :: filterMapIdx f (i + 1) rest
    | none => filterMapIdx f (i + 1) rest

theorem map_fst_filterMapIdx {α β : Type} (f : α -> Option β) (i : Nat) (l : List α) :
    (filterMapIdx f i l).map Prod.fst = l.filterMap f := by
  induction l generalizing i with
  | nil => rfl
  | cons a rest ih =>
    unfold filterMapIdx
    cases hf : f a with
    | _ => simp [hf, ih]

/-! ## Blocks -/

structure QuorumSignature where
  voterIndex : UInt16
  signature : Signature
deriving DecidableEq

structure PosRandomValue where
  data : BitVec 128
deriving DecidableEq

structure PosHeader where
  randomValue : PosRandomValue
  round : UInt8
  validatorBitset : UInt16
deriving DecidableEq

structure Block (P : Type) where
  majorVersion : Hf
  minorVersion : UInt8
  timestamp : UInt64
  prevId : Hash
  nonce : UInt32
  pos : PosHeader
  minerTx : Transaction P
  txHashes : List Hash
  signatures : List QuorumSignature
deriving DecidableEq

def emptyBlock (P : Type) : Block P where
  majorVersion := .hf7
  minorVersion := 0
  timestamp := 0
  prevId := nullHash
  nonce := 0
  pos := { randomValue := ⟨0⟩, round := 0, validatorBitset := 0 }
  minerTx := Transaction.setNull P
  txHashes := []
  signatures := []

/-- The height in the coinbase input, or zero for a malformed coinbase. -/
def getBlockHeight {P : Type} (blk : Block P) : UInt64 :=
  match blk.minerTx.vin with
  | [.gen height] => height
  | _ => 0

def blockHeaderHasPosComponents {P : Type} (blk : Block P) : Bool :=
  decide (Hf.hf17POS <= blk.majorVersion) &&
    (decide (0 < blk.pos.validatorBitset) || blk.pos.randomValue != ⟨0⟩)

def blockHasPosComponents {P : Type} (blk : Block P) : Bool :=
  (decide (Hf.hf17POS <= blk.majorVersion) && !blk.signatures.isEmpty) ||
    blockHeaderHasPosComponents blk

end Beldex.Basic
