import Beldex.Outputs.Scan
import Beldex.Token.Proofs

/-!
# Checking the inputs of a transaction

`checkTxInputs` resolves the ring of every input, in order, and then verifies
the signatures and proofs over the rings it found.  The ring of an input is made
of whatever rows have its offsets: nothing on the way compares the kind of a row
with the kind of the input.
-/

namespace Beldex.Outputs

open Basic Crypto Foundation.Fallible Token

variable {H P Blob : Type} [DecidableEq H]

/-! ## Rejections -/

inductive TvcFlag where
  | invalidVersion
  | invalidType
  | invalidInput
  | tooFewOutputs
  | lowMixin
  | verificationFailed
  | doubleSpend
  | keyImageBlacklisted
  | keyImageLockedByMnode

structure Rejection where
  reason : String
  flags : List TvcFlag := []
  verboseError : String := ""

def reject {α : Type} (x : Except String α) (flags : List TvcFlag) (verbose : Bool) :
    Except Rejection α :=
  match x with
  | .ok a => .ok a
  | .error reason => .error ⟨reason, flags, if verbose then reason else ""⟩

theorem reject_bind_ok {α β : Type} {x : Except String α} {flags : List TvcFlag}
    {verbose : Bool} {f : α -> Except Rejection β} {b : β} :
    (reject x flags verbose >>= f) = .ok b <-> exists a, x = .ok a ∧ f a = .ok b := by
  rw [bind_ok]
  cases x with
  | _ => simp [reject]

/-! ## What the check reads -/

structure InputContext where
  hfVersion : Hf
  nettype : NetworkType
  currentTime : UInt64
  bnsValidationHeight : UInt64
  blacklistedKeyImages : List KeyImage
  lockedKeyImage : KeyImage -> Option UInt64

structure InputOracles (H P : Type) where
  prefixHash : Transaction P -> H
  formatTransactionHash : Transaction P -> String
  formatKeyImage : KeyImage -> String
  verRctNonSemanticsSimple : H -> RctSig P -> List (List (Ctkey P)) -> Bool -> Bool
  /-- Expansion and checks of the signature types before CLSAG. -/
  verMlsag : H -> Transaction P -> List (List (Ctkey P)) -> Bool -> Bool
  hasMultiOutputBulletproof : Transaction P -> Bool
  validateBnsTx : Hf -> UInt64 -> Transaction P -> Except String Unit
  commit : UInt64 -> Key -> P
  /-- State changes and key image unlocks, which have no inputs. -/
  checkStateTx : Transaction P -> Except Rejection Unit

variable (ctx : InputContext)

def isOutputUnlocked (height unlockTime : UInt64) : Bool :=
  if unlockTime < maxBlockNumber then
    decide (unlockTime <= height - 1 + 1)
  else
    decide (unlockTime <= ctx.currentTime + (if Hf.hf17POS <= ctx.hfVersion then 30 else 120))

/-! ## The ring of one input -/

variable (K : OutputConstants P) (st : ChainState H P)

def checkTxInput (unlocked : UInt64 -> Bool) (txPrefixHash : H) (ref : RingRef) :
    Except String (List (OutputData P)) := do
  let ring <- within ("Failed to get output keys for tx with amount = " ++
      toString ref.amount ++ " and count indexes " ++ toString ref.keyOffsets.length ++ ": ")
    (scanOutputkeysForIndexes K st unlocked txPrefixHash ref)
  rejectIf (ref.keyOffsets.length != ring.length)
    ("Output keys for tx with amount = " ++ toString ref.amount ++ " and count indexes " ++
      toString ref.keyOffsets.length ++ " returned wrong keys count " ++ toString ring.length)
  .ok ring

def checkTxInputZy (unlocked : UInt64 -> Bool) (ref : RingRef) :
    Except String (List (OutputData P)) := do
  let ring <- within ("Failed to get output keys for zyphora input, count indexes " ++
      toString ref.keyOffsets.length ++ ": ")
    (scanOutputkeysForIndexesZy K st unlocked ref)
  rejectIf (ref.keyOffsets.length != ring.length)
    ("Output keys for zyphora input with count indexes " ++ toString ref.keyOffsets.length ++
      " returned wrong keys count " ++ toString ring.length)
  .ok ring

def isZyInput (txin : TxIn) : Bool :=
  txin.zyInput?.isSome

def resolveRing (unlocked : UInt64 -> Bool) (txPrefixHash : H) (txin : TxIn) :
    Except String (List (OutputData P)) :=
  match ringRef? txin with
  | none => .error "wrong type id in tx input at Blockchain::check_tx_inputs"
  | some ref =>
    if isZyInput txin then checkTxInputZy K st unlocked ref
    else checkTxInput K st unlocked txPrefixHash ref

/-! ## The loop over the inputs -/

structure InputScan (P : Type) where
  lastKeyImage : Option KeyImage := none
  maxUsedBlockHeight : UInt64 := 0
  keyImageConflicts : List KeyImage := []
  pubkeys : List (List (Ctkey P)) := []
  tokenIdRings : List (List P) := []

/-- A key image read in the order in which `memcmp` compares its bytes. -/
def keyImageRank (kImage : KeyImage) : Nat :=
  (List.range 32).foldl (fun n i => 256 * n + (kImage.bits.extractLsb' (8 * i) 8).toNat) 0

variable (tx : Transaction P)

def wrongRingSize (txin : TxIn) (size : Nat) : Bool :=
  (decide (Hf.hf8 < ctx.hfVersion) && size - 1 != txOutputDecoys) || (!isZyInput txin &&
      ((decide (ctx.hfVersion <= Hf.hf7) && decide (size - 1 < 6) && tx.version == .v2Ringct) ||
        (ctx.hfVersion == Hf.hf8 && decide (size - 1 < 7))))

def orderKeyImage (scan : InputScan P) (kImage : KeyImage) : Except Rejection (InputScan P) := do
  rejectIf (scan.lastKeyImage.any fun last => keyImageRank last <= keyImageRank kImage)
    { reason := "transaction has unsorted inputs", flags := [.verificationFailed] }
  .ok { scan with lastKeyImage := some kImage }

variable (O : InputOracles H P)

/-- A spent key image is a conflict to report, or ends the check. -/
def noteSpent (db : OutputDb P) (collectConflicts : Bool) (scan : InputScan P) (kImage : KeyImage) :
    Except Rejection (InputScan P) := do
  let spent := hasKeyImage db kImage
  rejectIf (spent && !collectConflicts)
    { reason := "Key image already spent in blockchain: " ++ O.formatKeyImage kImage
      flags := [.doubleSpend] }
  .ok { scan with
    keyImageConflicts :=
      if spent then scan.keyImageConflicts ++ [kImage] else scan.keyImageConflicts }

/-- Stakes that are locked or blacklisted; token inputs cannot be stakes. -/
def checkMasterNodeStake (ctx : InputContext) (txin : TxIn) (kImage : KeyImage) :
    Except Rejection Unit := do
  let applies := decide (Hf.hf11InfiniteStaking <= ctx.hfVersion) && !isZyInput txin
  rejectIf (applies && ctx.blacklistedKeyImages.contains kImage)
    { reason := "Key image: " ++ O.formatKeyImage kImage ++
        " is blacklisted by the master node network"
      flags := [.keyImageBlacklisted] }
  rejectIf (applies && (ctx.lockedKeyImage kImage).isSome)
    { reason := "Key image: " ++ O.formatKeyImage kImage ++
        " is locked in a stake until height: " ++ toString ((ctx.lockedKeyImage kImage).getD 0)
      flags := [.keyImageLockedByMnode] }

def OutputData.ctkey (data : OutputData P) : Ctkey P where
  dest := data.pubkey
  mask := data.commitment

def InputScan.push (scan : InputScan P) (txin : TxIn) (ring : List (OutputData P)) : InputScan P :=
  { scan with
    maxUsedBlockHeight :=
      match ring.getLast? with
      | some data =>
        if scan.maxUsedBlockHeight < data.height then data.height
        else scan.maxUsedBlockHeight
      | none => scan.maxUsedBlockHeight
    pubkeys := scan.pubkeys ++ [ring.map OutputData.ctkey]
    tokenIdRings :=
      scan.tokenIdRings ++ [if isZyInput txin then ring.map OutputData.blindedTokenId else []] }

/-- One input: its shape, its place in the order, its ring and its stake. -/
def checkInput (K : OutputConstants P) (ctx : InputContext) (st : ChainState H P)
    (collectConflicts : Bool) (tx : Transaction P) (scan : InputScan P) (txin : TxIn) :
    Except Rejection (InputScan P) := do
  let ref <- orReject (ringRef? txin)
    { reason := "wrong type id in tx input at Blockchain::check_tx_inputs" }
  rejectIf ref.keyOffsets.isEmpty
    { reason := "empty key_offsets in transaction with id " ++ O.formatTransactionHash tx }
  rejectIf (wrongRingSize ctx tx txin ref.keyOffsets.length)
    { reason := "Tx " ++ O.formatTransactionHash tx ++ " has incorrect ring size (" ++
        toString (ref.keyOffsets.length - 1) ++ ", expected (" ++ toString txOutputDecoys ++ ")"
      flags := [.lowMixin] }
  let scan <- orderKeyImage scan ref.kImage
  let scan <- noteSpent O st.db collectConflicts scan ref.kImage
  let ring <- reject
    (resolveRing K st (isOutputUnlocked ctx st.db.height) (O.prefixHash tx) txin) [] false
  checkMasterNodeStake O ctx txin ref.kImage
  .ok (scan.push txin ring)

/-! ## Checks before and after the loop -/

def isTransfer (type : TxType) : Bool :=
  type == .standard || type == .stake || type == .beldexNameSystem || type == .coinBurn ||
    isTokenTxType type

def hasZyphoraInputs : Bool :=
  !tx.zyInputs.isEmpty

def hasZyphoraOutputs : Bool :=
  !tx.zyOutputs.isEmpty

def hasPtContent : Bool :=
  !tx.tokenProofs.isEmpty || !tx.zySig.isEmpty || hasZyphoraInputs tx ||
    hasZyphoraOutputs tx || isTokenTxType tx.type

def txHasPrivacyTokenContent : Bool :=
  hasPtContent tx || !tx.tokenOperations.isEmpty || (getCollateralLockFromTxExtra tx).isSome

def checkVersionAndType : Except Rejection Unit := do
  let minVersion := (getMinVersionForHf ctx.hfVersion).toNat
  let maxVersion := (getMaxVersionForHf ctx.hfVersion).toNat
  let maxType := (getMaxTypeForHf ctx.hfVersion).toNat
  let invalidType := decide (maxType < tx.type.toNat)
  rejectIf (decide (tx.version.toNat < minVersion) || decide (maxVersion < tx.version.toNat))
    { reason := "TX Invalid version: " ++ toString tx.version.toNat ++ " for hardfork: " ++
        toString ctx.hfVersion.toNat ++ " min/max version:  " ++ toString minVersion ++ "/" ++
        toString maxVersion
      flags := if invalidType then [.invalidVersion, .invalidType] else [.invalidVersion] }
  rejectIf invalidType
    { reason := "TX Invalid type: " ++ toString tx.type.toNat ++ " for hardfork: " ++
        toString ctx.hfVersion.toNat ++ " max type: " ++ toString maxType
      flags := [.invalidType] }

def checkTokenContent (ctx : InputContext) (tx : Transaction P) : Except Rejection Unit := do
  rejectIf (decide (ctx.hfVersion < featurePrivacyTokens) && txHasPrivacyTokenContent tx)
    { reason := "Privacy-token content present before hard-fork activation in tx " ++
        O.formatTransactionHash tx
      flags := [.invalidInput]
      verboseError := "privacy-token content before HF activation" }
  rejectIf (tx.zyInputs.length != tx.zySig.length)
    { reason := "Tx " ++ O.formatTransactionHash tx ++ " has " ++
        toString tx.zyInputs.length ++ " zyphora inputs but " ++ toString tx.zySig.length ++
        " ZY signatures"
      flags := [.invalidInput] }

def checkOutputCount (ctx : InputContext) (tx : Transaction P) : Except Rejection Unit :=
  rejectIf (tx.type != .beldexNameSystem && tx.type != .coinBurn &&
      decide (Hf.hf17POS <= ctx.hfVersion) && decide (tx.vout.length < 2))
    { reason := "Tx " ++ O.formatTransactionHash tx ++
        " has fewer than two outputs, which is not allowed as of hardfork " ++
        toString Hf.hf17POS.toNat
      flags := [.tooFewOutputs] }

def defaultTxSpendableAgeV17 : UInt64 := 2

def checkSpendableAge (db : OutputDb P) (scan : InputScan P) : Except Rejection Unit :=
  rejectIf (decide (Hf.hf17POS <= ctx.hfVersion) &&
      decide (db.height < scan.maxUsedBlockHeight + defaultTxSpendableAgeV17))
    { reason := "Transaction spends at least one output which is too young" }

/-! ## Signatures and proofs -/

/-- A transaction with its key images filled in, and the rings of its signatures. -/
structure ExpandedTx (P : Type) where
  tx : Transaction P
  mixRing : List (List (Ctkey P))

def expandTransaction2 (pubkeys : List (List (Ctkey P))) : Except String (ExpandedTx P) := do
  let natives := (tx.vin.zip pubkeys).filter fun entry => !isZyInput entry.1
  let mixRing := natives.map Prod.snd
  rejectIf (mixRing.head?.any List.isEmpty) "empty pubkeys"
  rejectIf (tx.rctSignatures.clsags.length != natives.length) "Bad CLSAGs size"
  let clsags := List.zipWith
    (fun (clsag : Clsag) ref => { clsag with keyImage := ref.kImage })
    tx.rctSignatures.clsags (natives.filterMap fun entry => ringRef? entry.1)
  let zySig := List.zipWith
    (fun (sig : ZySig P) (txin : TxInZyInput) =>
      { sig with clsagSig := { sig.clsagSig with keyImage := txin.kImage } })
    tx.zySig tx.zyInputs
  .ok
    { tx := { tx with rctSignatures := { tx.rctSignatures with clsags := clsags }, zySig := zySig }
      mixRing := mixRing }

def isClsagType (type : RctType) : Bool :=
  type == .clsag || type == .bulletproofPlus

/-- The ring signatures of the native inputs; the result has its key images. -/
def checkRctSignatures (ctx : InputContext) (tx : Transaction P) (pubkeys : List (List (Ctkey P))) :
    Except Rejection (Transaction P) :=
  let tokens := decide (featurePrivacyTokens <= ctx.hfVersion)
  if isClsagType tx.rctSignatures.type then do
    let expanded <- orReject (expandTransaction2 tx pubkeys).toOption
      { reason := "Failed to expand rct signatures!"
        verboseError := "failed to expand rct signatures" }
    -- The rings and key images that are compared next were copied by the expansion.
    rejectIf (!O.verRctNonSemanticsSimple (O.prefixHash tx) expanded.tx.rctSignatures
        expanded.mixRing tokens)
      { reason := "Failed to check ringct signatures!"
        verboseError := "ringct non-semantics verification failed" }
    .ok expanded.tx
  else do
    rejectIf (tx.rctSignatures.type == .null)
      { reason := "Failed to expand rct signatures!"
        verboseError := "failed to expand rct signatures" }
    rejectIf (!O.verMlsag (O.prefixHash tx) tx pubkeys tokens)
      { reason := "Failed to check ringct signatures!" }
    .ok tx

def checkTokenProofs [AddCommGroup P] [DecidableEq P] (T : TokenOracles P)
    (codec : TokenCodec P Blob) (ctx : InputContext) (tx : Transaction P)
    (scan : InputScan P) : Except Rejection Unit :=
  if featurePrivacyTokens <= ctx.hfVersion ∧ hasPtContent tx then
    reject (within "Failed to verify token proofs: "
      (verTokenProofs T codec tx scan.pubkeys scan.tokenIdRings)) [.invalidInput] false
  else
    .ok ()

/-! ## Rules of the transaction types -/

def checkBns (ctx : InputContext) (height : UInt64) (tx : Transaction P) : Except Rejection Unit :=
  if Hf.hf18Bns <= ctx.hfVersion then
    reject (O.validateBnsTx ctx.hfVersion height tx) [] true
  else
    reject (rejectIf (decide (ctx.bnsValidationHeight < height))
      "Bns buy option is not available in v17") [] true

def checkCoinBurn : Except Rejection Unit :=
  let burn := getBurnedAmountFromTxExtra tx
  reject (do
    rejectIf (burn == 0) "Burn amount must not be zero"
    rejectIf (decide (tx.rctSignatures.txnFee < burn)) "Burn amount must be <= fee") [] true

def checkTokenFees [DecidableEq P] (O : InputOracles H P) (ctx : InputContext)
    (height : UInt64) (tx : Transaction P) : Except Rejection Unit := do
  reject (validateTokenTransactionFees tx ctx.hfVersion ctx.nettype) [] true
  if tx.type = .registerPrivacyToken then
    reject (do
      rejectIf (decide (ctx.hfVersion < featurePrivacyTokens))
        "privacy token registration is not available before the privacy-token hardfork"
      checkRegistrationCollateral O.commit height ctx.nettype tx) [] true
  else
    .ok ()

def checkTransferType [DecidableEq P] (O : InputOracles H P) (ctx : InputContext)
    (height : UInt64) (tx : Transaction P) : Except Rejection Unit :=
  match tx.type with
  | .beldexNameSystem => checkBns O ctx height tx
  | .coinBurn => checkCoinBurn tx
  | .registerPrivacyToken | .mintToken | .updateToken | .burnToken =>
    checkTokenFees O ctx height tx
  | _ => .ok ()

/-! ## The whole check -/

structure CheckedInputs (P : Type) where
  tx : Transaction P
  maxUsedBlockHeight : UInt64
  keyImageConflicts : List KeyImage

def checkRingct [AddCommGroup P] [DecidableEq P] (O : InputOracles H P) (T : TokenOracles P)
    (codec : TokenCodec P Blob) (ctx : InputContext) (st : ChainState H P) (tx : Transaction P)
    (scan : InputScan P) : Except Rejection (Transaction P) :=
  if isRingct tx then do
    let tx <- checkRctSignatures O ctx tx scan.pubkeys
    checkTokenProofs T codec ctx tx scan
    rejectIf ((tx.rctSignatures.type == .bulletproof ||
        tx.rctSignatures.type == .bulletproof2 || tx.rctSignatures.type == .clsag) &&
        decide (ctx.hfVersion < Hf.hf8) && O.hasMultiOutputBulletproof tx)
      { reason := "Multi output bulletproofs are invalid before v10" }
    checkTransferType O ctx st.db.height tx
    .ok tx
  else
    .ok tx

def checkTransfer [AddCommGroup P] [DecidableEq P] (O : InputOracles H P) (T : TokenOracles P)
    (codec : TokenCodec P Blob) (K : OutputConstants P) (ctx : InputContext) (st : ChainState H P)
    (collectConflicts : Bool) (tx : Transaction P) : Except Rejection (CheckedInputs P) := do
  checkOutputCount O ctx tx
  let scan <- run (checkInput O K ctx st collectConflicts tx) {} tx.vin
  checkSpendableAge ctx st.db scan
  let tx <- checkRingct O T codec ctx st tx scan
  .ok ⟨tx, scan.maxUsedBlockHeight, scan.keyImageConflicts⟩

def checkNonTransfer (tx : Transaction P) : Except Rejection (CheckedInputs P) := do
  rejectIf (!tx.vin.isEmpty)
    { reason := "TX type: " ++ toString tx.type.toNat ++
        " should have 0 inputs. This should have been rejected in check_tx_semantic!" }
  rejectIf (tx.rctSignatures.txnFee != 0)
    { reason := "TX type: " ++ toString tx.type.toNat ++ " should have 0 fee!"
      flags := [.invalidInput, .verificationFailed] }
  O.checkStateTx tx
  .ok ⟨tx, 0, []⟩

def checkByType [AddCommGroup P] [DecidableEq P] (O : InputOracles H P) (T : TokenOracles P)
    (codec : TokenCodec P Blob) (K : OutputConstants P) (ctx : InputContext) (st : ChainState H P)
    (collectConflicts : Bool) (tx : Transaction P) : Except Rejection (CheckedInputs P) :=
  if isTransfer tx.type then checkTransfer O T codec K ctx st collectConflicts tx
  else checkNonTransfer O tx

def checkTxInputs [AddCommGroup P] [DecidableEq P] (O : InputOracles H P)
    (T : TokenOracles P) (codec : TokenCodec P Blob) (tokenDb : TokenDb Blob)
    (K : OutputConstants P) (ctx : InputContext) (st : ChainState H P)
    (collectConflicts : Bool) (tx : Transaction P) : Except Rejection (CheckedInputs P) := do
  checkVersionAndType ctx tx
  checkTokenContent O ctx tx
  let checked <- checkByType O T codec K ctx st collectConflicts tx
  reject (validateTxTokenOperationsAgainstDb T codec tokenDb checked.tx ctx.hfVersion)
    [.invalidInput, .verificationFailed] true
  .ok checked

end Beldex.Outputs
