import Beldex.Bns.Database
import Beldex.Foundation.Command

/-!
# Name transactions and their blocks

A name transaction buys a name, updates a mapping or renews it.  The checks are
those of the code in its order; a reason is the text that the code appends to
the printed transaction and entry.  The name transactions of a block are written
inside one database transaction, and a failure leaves what was written before it in
the tables until that is rolled back; the progress in memory is not part of it.
-/

namespace Beldex.Bns

open Basic Crypto Foundation Foundation.Fallible ExtraField

section

/-- The network and the cryptographic operations that validation calls. -/
structure NameEnvironment where
  nettype : NetworkType
  checkSignature : Hash -> PublicKey -> Signature -> Bool
  cryptoSignVerifyDetached : Signature -> Hash -> PublicKey -> Bool
  cryptoGenerichash : List UInt8 -> Hash

/-- What is read of a transaction: its entry, if its extra section has one, and the
amount it burns. -/
structure NameTx where
  type : TxType
  hash : Hash
  bnsExtra : Option BnsExtra
  burnedAmount : UInt64

/-! ## Lengths of encrypted values -/

def walletAccountBinaryLengthIncPaymentId : Nat := 73

def walletAccountBinaryLengthNoPaymentId : Nat := 65

def belnetAddressBinaryLength : Nat := 32

def bchatPublicKeyBinaryLength : Nat := 33

def ethAddrBinaryLength : Nat := 20

def aeadAbytes : Nat := 16

def aeadNpubbytes : Nat := 24

def checkLengths (type : MappingType) (value : List UInt8) (max : Nat) : Except String Unit :=
  let result :=
    if type = .wallet then
      value.length == walletAccountBinaryLengthIncPaymentId + max ||
        value.length == walletAccountBinaryLengthNoPaymentId + max
    else
      value.length == max
  rejectIf (!result)
    s!"specifies mapping from name_hash->encrypted_value where the value's length={value.length}, does not equal the required length={max}"

def validateEncrypted (type : MappingType) (value : List UInt8) : Except String Unit :=
  let valueLen := aeadAbytes + aeadNpubbytes
  match type with
  | .belnet => checkLengths type value (valueLen + belnetAddressBinaryLength)
  | .wallet => checkLengths type value valueLen
  | .bchat =>
    let valueLen := valueLen + bchatPublicKeyBinaryLength
    -- An older encryption has no nonce.
    if value.length = valueLen - aeadNpubbytes then
      checkLengths type value (valueLen - aeadNpubbytes)
    else
      checkLengths type value valueLen
  | .ethAddr => checkLengths type value (valueLen + ethAddrBinaryLength)
  | _ => .error "Unhandled type passed into validate_encrypted"

/-! ## The entry alone -/

def checkNotRequested (extra : BnsExtra) (bit : UInt8) (given : Bool) (field : String) :
    Except String Unit :=
  rejectIf (!extra.fieldIsSet bit && given)
    (", given field but field is not requested to be serialised=" ++ field)

def checkUnrequestedFields (extra : BnsExtra) : Except String Unit := do
  checkNotRequested extra encryptedBchatValue (!extra.encryptedBchatValue.isEmpty)
    "encrypted_bchat_value"
  checkNotRequested extra encryptedWalletValue (!extra.encryptedWalletValue.isEmpty)
    "encrypted_wallet_value"
  checkNotRequested extra encryptedBelnetValue (!extra.encryptedBelnetValue.isEmpty)
    "encrypted_belnet_value"
  checkNotRequested extra encryptedEthAddrValue
    (!extra.encryptedEthAddrValue.isEmpty) "encrypted_eth_addr_value"
  checkNotRequested extra owner extra.owner.isSet "owner"
  checkNotRequested extra backupOwner extra.backupOwner.isSet "backup_owner"
  checkNotRequested extra signature extra.signature.isSet "signature"

def checkCombination (extra : BnsExtra) : Except String Unit := do
  rejectIf (extra.version != 1) s!" unexpected version={extra.version}, expected=1"
  rejectIf (!extra.isBuying && !extra.isUpdating && !extra.isRenewing)
    " TX extra does not specify valid combination of bits for serialized fields="
  rejectIf (extra.fieldIsSet owner && extra.fieldIsSet backupOwner &&
      extra.owner == extra.backupOwner)
    " specifying owner the same as the backup owner="

def checkValue (extra : BnsExtra) (bit : UInt8) (type : MappingType) (value : List UInt8) :
    Except String Unit :=
  if extra.fieldIsSet bit then validateEncrypted type value else .ok ()

def checkValues (hfVersion : Hf) (extra : BnsExtra) : Except String Unit := do
  checkValue extra encryptedBchatValue .bchat extra.encryptedBchatValue
  checkValue extra encryptedWalletValue .wallet extra.encryptedWalletValue
  checkValue extra encryptedBelnetValue .belnet extra.encryptedBelnetValue
  rejectIf (extra.fieldIsSet encryptedEthAddrValue && decide (hfVersion < Hf.hf19EnhanceBns))
    s!" specifying eth_addr is disallowed in HF{hfVersion.toNat}"
  checkValue extra encryptedEthAddrValue .ethAddr extra.encryptedEthAddrValue

/-! ## Against the database -/

section

variable (env : NameEnvironment)

def verifyBnsSignature (hash : Hash) (signature : GenericSignature) (owner : GenericOwner) : Bool :=
  if !owner.isSet || !signature.isSet then false
  else
    match owner, signature.type with
    | .wallet address _, .monero =>
      env.checkSignature hash address.spendPublicKey signature.data
    | .ed25519 key, .ed25519 => env.cryptoSignVerifyDetached signature.data hash key
    | _, _ => false

def checkAuthorised (mapping : MappingRecord) (extra : BnsExtra) (expectedPrevTxid : Hash)
    (reason : String) : Except String Unit := do
  let data := extra.signedData expectedPrevTxid
  rejectIf data.isEmpty
    " unexpectedly failed to generate signature, please inform the Beldex developers"
  let hash := env.cryptoGenerichash data
  rejectIf (!verifyBnsSignature env hash extra.signature mapping.owner &&
      !verifyBnsSignature env hash extra.signature mapping.backupOwner) reason

def checkChanged (extra : BnsExtra) (bit : UInt8) (same : Bool) (field : String) :
    Except String Unit :=
  rejectIf (extra.fieldIsSet bit && same)
    (" field to update is specifying the same mapping " ++ field)

def checkUpdates (mapping : MappingRecord) (extra : BnsExtra) : Except String Unit := do
  checkChanged extra encryptedBchatValue
    (extra.encryptedBchatValue == mapping.encryptedBchatValue) "value"
  checkChanged extra encryptedWalletValue
    (extra.encryptedWalletValue == mapping.encryptedWalletValue) "value"
  checkChanged extra encryptedBelnetValue
    (extra.encryptedBelnetValue == mapping.encryptedBelnetValue) "value"
  checkChanged extra encryptedEthAddrValue
    (extra.encryptedEthAddrValue == mapping.encryptedEthAddrValue) "value"
  checkChanged extra owner (extra.owner == mapping.owner) "owner"
  checkChanged extra backupOwner (extra.backupOwner == mapping.backupOwner)
    "backup_owner"

def expectedPrevTxid (t : Tables) (blockchainHeight : Nat) (extra : BnsExtra) :
    Except String Hash :=
  let mapping := t.getMapping extra.nameHash none
  if extra.isUpdating then do
    let mapping <- orReject mapping " update requested but mapping does not exist."
    rejectIf (!mapping.active blockchainHeight)
      " TX requested to update mapping that has already expired"
    checkUpdates mapping extra
    checkAuthorised env mapping extra mapping.txid
      " failed to verify signature for BNS update, current owner="
    .ok mapping.txid
  else if extra.isBuying then do
    rejectIf (mapping.any fun mapping => mapping.active blockchainHeight)
      "Cannot buy an BNS name that is already registered: name_hash="
    .ok nullHash
  else if extra.isRenewing then do
    let mapping <- orReject mapping " renewal requested but mapping does not exist."
    rejectIf (!mapping.active blockchainHeight)
      " TX requested to renew mapping that has already expired"
    checkAuthorised env mapping extra mapping.txid
      " failed to verify signature for BNS renew, current owner="
    .ok mapping.txid
  else
    .error " is not a valid buy, update, or renew BNS tx"

def validateAgainstPreviousMapping (t : Tables) (blockchainHeight : Nat) (extra : BnsExtra) :
    Except String Unit := do
  let expected <- expectedPrevTxid env t blockchainHeight extra
  rejectIf (extra.prevTxid != expected)
    " specified prior txid=, but BNS DB reports=, possible competing TX was submitted and accepted before this TX was processed"

def burnRequired (hfVersion : Hf) (extra : BnsExtra) : UInt64 :=
  if extra.isBuying || extra.isRenewing then
    burnNeeded hfVersion extra.mappingYears
  else if extra.isUpdating &&
      (extra.fieldIsSet owner || extra.fieldIsSet backupOwner) then
    burnNeeded hfVersion .updateOwnerRecord
  else
    0

def checkBurn (hfVersion : Hf) (burn : UInt64) (extra : BnsExtra) : Except String Unit :=
  let required := burnRequired hfVersion extra
  let overOrUnder := if required < burn then "too much " else "insufficient "
  rejectIf (burn != required) s!" burned {overOrUnder}beldex={burn}, require={required}"

def validateBnsTx (t : Tables) (hfVersion : Hf) (blockchainHeight : Nat) (tx : NameTx) :
    Except String BnsExtra := do
  rejectIf (tx.type != .beldexNameSystem) ", uses wrong tx type, expected="
  let extra <- orReject tx.bnsExtra ", didn't have beldex name service in the tx_extra"
  checkUnrequestedFields extra
  checkCombination extra
  -- The hash of the empty name stands for no name.
  rejectIf (extra.nameHash == env.cryptoGenerichash [] || extra.nameHash == nullHash)
    " specified the null name hash"
  checkValues hfVersion extra
  validateAgainstPreviousMapping env t blockchainHeight extra
  checkBurn hfVersion tx.burnedAmount extra
  .ok extra

variable {t : Tables} {hfVersion : Hf} {blockchainHeight : Nat} {tx : NameTx} {extra : BnsExtra}

theorem validateBnsTx_eq_ok (h : validateBnsTx env t hfVersion blockchainHeight tx = .ok extra) :
    checkUnrequestedFields extra = .ok () ∧ checkValues hfVersion extra = .ok () ∧
      validateAgainstPreviousMapping env t blockchainHeight extra = .ok () := by
  rcases rejectIf_bind_ok.mp h with ⟨_, h⟩
  rcases orReject_bind_ok.mp h with ⟨entry, _, h⟩
  rcases bind_ok.mp h with ⟨_, hunrequested, h⟩
  rcases bind_ok.mp h with ⟨_, _, h⟩
  rcases rejectIf_bind_ok.mp h with ⟨_, h⟩
  rcases bind_ok.mp h with ⟨_, hvals, h⟩
  rcases bind_ok.mp h with ⟨_, hmapping, h⟩
  rcases bind_ok.mp h with ⟨_, _, h⟩
  cases h
  exact ⟨hunrequested, hvals, hmapping⟩

end

end

/-! ## Blocks of name transactions -/

structure NameBlock where
  majorVersion : Hf
  height : Nat
  hash : Hash
  txs : List NameTx

/-! ## One entry -/

/-- Add an owner if none was found; zero is not the number of an owner. -/
def saveOwnerUnlessFound (key : GenericOwner) (found : Nat) : Command Tables Nat :=
  if found = 0 then Command.modify? fun t => t.saveOwner key else pure found

def addOrGetOwnerId (key : GenericOwner) : Command Tables Nat := do
  let owner <- Command.inspect fun t => t.getOwnerByKey key
  let result <- saveOwnerUnlessFound key ((owner.map OwnerRow.id).getD 0)
  if result = 0 then Command.fail else pure result

def givenOwnerId (given : Bool) (key : GenericOwner) : Command Tables (Option Nat) :=
  if given then do
    let id <- addOrGetOwnerId key
    pure (some id)
  else
    pure none

/-- A value as it is bound to a column of a new mapping: the empty one is `NULL`. -/
def bindValue (value : List UInt8) : Option (List UInt8) :=
  if value.isEmpty then none else some value

def saveMapping (txHash : Hash) (src : BnsExtra) (height expiration ownerId : Nat)
    (backupOwnerId : Option Nat) : Command Tables Unit :=
  if !src.isBuying then
    Command.fail
  else
    Command.modify? fun t => t.insertMapping
      { id := 0
        nameHash := src.nameHash
        encryptedBchatValue := bindValue src.encryptedBchatValue
        encryptedWalletValue := bindValue src.encryptedWalletValue
        encryptedBelnetValue := bindValue src.encryptedBelnetValue
        encryptedEthAddrValue := bindValue src.encryptedEthAddrValue
        txid := txHash
        ownerId := ownerId
        backupOwnerId := backupOwnerId
        updateHeight := height
        expirationHeight := expiration }

def Tables.newestRow (t : Tables) (nameHash : Hash) : Option MappingRow :=
  (t.mappings.rows.filter fun row => row.nameHash == nameHash).argmax MappingRow.updateHeight

/-- A column of the new row: the given value if the field is present, and otherwise
what the copied row has. -/
def BnsExtra.column {α : Type} (entry : BnsExtra) (bit : UInt8) (given : α) (copied : α) : α :=
  if entry.fieldIsSet bit then given else copied

/-- The change that the statement of an update or a renewal makes to the copied row. -/
def updateRecordQuery (env : NameEnvironment) (height : Nat) (entry : BnsExtra)
    (txHash : Hash) : Command Tables (MappingRow -> MappingRow) := do
  if entry.isRenewing then
    pure fun row =>
      { row with
        txid := txHash
        updateHeight := height
        expirationHeight := row.expirationHeight + expiryBlocks env.nettype entry.mappingYears }
  else
    let ownerId <- givenOwnerId (entry.fieldIsSet owner) entry.owner
    let backupOwnerId <-
      givenOwnerId (entry.fieldIsSet backupOwner) entry.backupOwner
    pure fun row =>
      { row with
        txid := txHash
        updateHeight := height
        ownerId := ownerId.getD row.ownerId
        backupOwnerId := backupOwnerId.or row.backupOwnerId
        encryptedBchatValue :=
          entry.column encryptedBchatValue (some entry.encryptedBchatValue) row.encryptedBchatValue
        encryptedWalletValue :=
          entry.column encryptedWalletValue (some entry.encryptedWalletValue)
            row.encryptedWalletValue
        encryptedBelnetValue :=
          entry.column encryptedBelnetValue (some entry.encryptedBelnetValue)
            row.encryptedBelnetValue
        encryptedEthAddrValue :=
          entry.column encryptedEthAddrValue (some entry.encryptedEthAddrValue)
            row.encryptedEthAddrValue }

/-- Insert the changed copy of the newest row; without one nothing is inserted. -/
def insertChanged (nameHash : Hash) (change : MappingRow -> MappingRow) : Command Tables Unit :=
  Command.modify? fun t =>
    match t.newestRow nameHash with
    | some row => t.insertMapping (change row)
    | none => some ((), t)

def addBnsEntry (env : NameEnvironment) (height : Nat) (entry : BnsExtra) (txHash : Hash) :
    Command Tables Unit :=
  if entry.isBuying then do
    let ownerId <- addOrGetOwnerId entry.owner
    let backupOwnerId <- givenOwnerId entry.backupOwner.isSet entry.backupOwner
    let expiry := expiryBlocks env.nettype entry.mappingYears + height
    saveMapping txHash entry height expiry ownerId backupOwnerId
  else do
    let change <- updateRecordQuery env height entry txHash
    insertChanged entry.nameHash change

/-! ## A block -/

def addTxs (env : NameEnvironment) (hfVersion : Hf) (height : Nat) (bnsParsedFromBlock : Bool) :
    List NameTx -> Command Tables Bool
  | [] => pure bnsParsedFromBlock
  | tx :: rest =>
    if tx.type != .beldexNameSystem then
      addTxs env hfVersion height bnsParsedFromBlock rest
    else do
      let validated <- Command.inspect fun t => validateBnsTx env t hfVersion height tx
      let entry <- Command.ofOption validated.toOption
      addBnsEntry env height entry tx.hash
      addTxs env hfVersion height true rest

def dbVersion : Nat := 2

def settingsSaveInterval : Nat := 1000

namespace NameSystemDb

/-- The end of a database transaction: without a commit the tables are what they were
at its beginning. -/
def endTransaction (db : NameSystemDb) (begun : Tables) (commit : Bool) : NameSystemDb :=
  if commit then
    { db with transactionBegun := false }
  else
    { db with tables := begun, transactionBegun := false }

def addBlock (env : NameEnvironment) (db : NameSystemDb) (block : NameBlock) :
    Bool × NameSystemDb :=
  if block.height <= db.lastProcessedHeight then
    (true, db)
  else if db.transactionBegun then
    (false, db)
  else
    let begun := db.tables
    let opened := { db with transactionBegun := true }
    let txs := if Hf.hf18Bns <= block.majorVersion then block.txs else []
    match addTxs env block.majorVersion block.height false txs opened.tables with
    | (none, tables) => (false, { opened with tables := tables }.endTransaction begun false)
    | (some bnsParsedFromBlock, tables) =>
      let processed :=
        { opened with
          tables := tables
          lastProcessedHeight := block.height
          lastProcessedHash := block.hash }
      if bnsParsedFromBlock || block.height % settingsSaveInterval == 0 then
        let saved := tables.saveSettings block.height block.hash dbVersion
        (true, { processed with tables := saved }.endTransaction begun true)
      else
        (true, processed.endTransaction begun false)

def addBlocks (env : NameEnvironment) (db : NameSystemDb) : List NameBlock -> Option NameSystemDb
  | [] => some db
  | block :: rest =>
    match db.addBlock env block with
    | (true, next) => next.addBlocks env rest
    | (false, _) => none

end NameSystemDb

end Beldex.Bns
