import Beldex.Coinbase.Reward
import Beldex.Foundation.Bytes
import Beldex.Foundation.UniqueRows
import Mathlib.Data.List.MinMax

/-!
# The requests and the tables of the name system

A name transaction carries a request in its extra section.  The name system keeps
its mappings in a table with one row for each change of a name, newest last, and
the owners in a table of their own to which the rows refer by number.  The
statements that the code sends to the database are read as operations on the lists
of rows.

Heights are natural numbers here.  The code binds its 64-bit heights to signed
columns, which is the same below 2^63.
-/

namespace Beldex.Bns

open Basic Coinbase Crypto Foundation

section

/-! ## Terms and fees -/

inductive MappingType where
  | bchat
  | wallet
  | belnet
  | belnet2Years
  | belnet5Years
  | belnet10Years
  | ethAddr
deriving DecidableEq

/-- For how long a name is registered, and the two updates that have a fee of their own. -/
inductive MappingYears where
  | bns1Year
  | bns2Years
  | bns5Years
  | bns10Years
  | updateOwnerRecord
  | updateRecordInternal
deriving DecidableEq

def isRenewalType : MappingYears -> Bool
  | .bns1Year => true
  | .bns2Years => true
  | .bns5Years => true
  | .bns10Years => true
  | .updateOwnerRecord => false
  | .updateRecordInternal => false

def registrationYearDays : Nat := 368

def blocksPerDay : Nat := 2880

def burnNeeded (hfVersion : Hf) (mapYears : MappingYears) : UInt64 :=
  let basicFee := if Hf.hf18Bns <= hfVersion then 500 * coin else 15 * coin
  match mapYears with
  | .updateRecordInternal => 0
  | .updateOwnerRecord => basicFee * 10 / 100
  | .bns1Year => basicFee + basicFee * 30 / 100
  | .bns2Years => 2 * basicFee
  | .bns5Years => 4 * basicFee
  | .bns10Years => 8 * basicFee

/-- The blocks that a registration lasts.  The optional of the code is never empty. -/
def expiryBlocks (nettype : NetworkType) (mapYears : MappingYears) : Nat :=
  let years :=
    match mapYears with
    | .bns1Year => 1
    | .bns2Years => 2
    | .bns5Years => 5
    | .bns10Years => 10
    | _ => 0
  let result := blocksPerDay * registrationYearDays * years
  match nettype with
  | .testnet => result / registrationYearDays
  | .fakechain => result / (blocksPerDay * registrationYearDays / 2)
  | _ => result

/-! ## Owners and signatures -/

inductive GenericOwnerSigType where
  | monero
  | ed25519

def GenericOwnerSigType.toByte : GenericOwnerSigType -> UInt8
  | .monero => 0
  | .ed25519 => 1

inductive GenericOwner where
  | wallet (address : AccountPublicAddress) (isSubaddress : Bool)
  | ed25519 (key : PublicKey)
deriving DecidableEq

def GenericOwner.type : GenericOwner -> GenericOwnerSigType
  | .wallet _ _ => .monero
  | .ed25519 _ => .ed25519

def nullAddress : AccountPublicAddress := ⟨nullPkey, nullPkey⟩

def nullOwner : GenericOwner := .wallet nullAddress false

def GenericOwner.isSet : GenericOwner -> Bool
  | .wallet address _ => address != nullAddress
  | .ed25519 key => key != nullPkey

structure GenericSignature where
  type : GenericOwnerSigType
  data : Signature

def nullGenericSignature : GenericSignature := ⟨.monero, nullSignature⟩

def GenericSignature.isSet (signature : GenericSignature) : Bool :=
  signature.data != nullSignature

/-! ## The fields of a request -/

namespace ExtraField

def owner : UInt8 := 0x01

def backupOwner : UInt8 := 0x02

def signature : UInt8 := 0x04

def encryptedBchatValue : UInt8 := 0x08

def encryptedWalletValue : UInt8 := 0x10

def encryptedBelnetValue : UInt8 := 0x20

def encryptedEthAddrValue : UInt8 := 0x40

def buyNoBackup : UInt8 := owner

def buyAnyValue : UInt8 :=
  encryptedBchatValue ||| encryptedWalletValue ||| encryptedBelnetValue ||| encryptedEthAddrValue

def buy : UInt8 := buyNoBackup ||| backupOwner

def updatableFields : UInt8 := owner ||| backupOwner ||| buyAnyValue

def all : UInt8 := updatableFields ||| signature

end ExtraField

/-- A request as it is read from the extra section.  The reader refuses field bits and
terms beyond the known ones. -/
structure BnsExtra where
  version : UInt8 := 1
  mappingYears : MappingYears := .bns1Year
  nameHash : Hash
  prevTxid : Hash := nullHash
  fields : UInt8
  owner : GenericOwner := nullOwner
  backupOwner : GenericOwner := nullOwner
  signature : GenericSignature := nullGenericSignature
  encryptedBchatValue : List UInt8 := []
  encryptedWalletValue : List UInt8 := []
  encryptedBelnetValue : List UInt8 := []
  encryptedEthAddrValue : List UInt8 := []
  years_read : isRenewalType mappingYears = true := by decide
  fields_read : fields <= ExtraField.all := by decide

namespace BnsExtra

variable (extra : BnsExtra)

def fieldIsSet (bit : UInt8) : Bool :=
  extra.fields &&& bit == bit

def fieldAnySet (bit : UInt8) : Bool :=
  extra.fields &&& bit != 0

def isUpdating : Bool :=
  extra.fieldIsSet ExtraField.signature && extra.fieldAnySet ExtraField.updatableFields

def isBuying : Bool :=
  (extra.fieldIsSet ExtraField.buy || extra.fieldIsSet ExtraField.buyNoBackup) &&
    extra.fieldAnySet ExtraField.buyAnyValue

def isRenewing : Bool :=
  extra.fields == ExtraField.signature && extra.prevTxid != nullHash &&
    isRenewalType extra.mappingYears

end BnsExtra

/-! ## The signed bytes -/

/-- The longest encrypted value: a wallet with a payment id. -/
def bufferSize : Nat := 113

def GenericOwner.guts : GenericOwner -> List UInt8
  | .wallet address _ =>
    Bytes.ofBits address.spendPublicKey.bits ++ Bytes.ofBits address.viewPublicKey.bits
  | .ed25519 key => Bytes.ofBits key.bits

def appendOwner (buffer : List UInt8) : Option GenericOwner -> List UInt8
  | some owner => buffer ++ owner.type.toByte :: owner.guts
  | none => buffer

def txExtraSignature (valueBchat valueWallet valueBelnet valueEthAddr : List UInt8)
    (owner backupOwner : Option GenericOwner) (prevTxid : Hash) : List UInt8 :=
  if bufferSize < valueBchat.length then []
  else if bufferSize < valueWallet.length then []
  else if bufferSize < valueBelnet.length then []
  else if bufferSize < valueEthAddr.length then []
  else
    let result := valueBchat ++ valueWallet ++ valueBelnet ++ valueEthAddr
    let result := appendOwner result owner
    let result := appendOwner result backupOwner
    result ++ Bytes.ofBits prevTxid.bits

namespace BnsExtra

def owner? (extra : BnsExtra) : Option GenericOwner :=
  if extra.fieldIsSet ExtraField.owner then some extra.owner else none

def backupOwner? (extra : BnsExtra) : Option GenericOwner :=
  if extra.fieldIsSet ExtraField.backupOwner then some extra.backupOwner else none

/-- The bytes whose hash authorises a request against the transaction that last wrote
the mapping. -/
def signedData (extra : BnsExtra) (expectedPrevTxid : Hash) : List UInt8 :=
  txExtraSignature extra.encryptedBchatValue extra.encryptedWalletValue
    extra.encryptedBelnetValue extra.encryptedEthAddrValue extra.owner? extra.backupOwner?
    expectedPrevTxid

end BnsExtra

end

/-! ## Rows -/

/-- A row of `mappings`; a missing value stands for `NULL`. -/
structure MappingRow where
  id : Nat
  nameHash : Hash
  encryptedBchatValue : Option (List UInt8)
  encryptedWalletValue : Option (List UInt8)
  encryptedBelnetValue : Option (List UInt8)
  encryptedEthAddrValue : Option (List UInt8)
  txid : Hash
  ownerId : Nat
  backupOwnerId : Option Nat
  updateHeight : Nat
  expirationHeight : Nat

def MappingRow.nameAndHeight (row : MappingRow) : Hash × Nat :=
  (row.nameHash, row.updateHeight)

structure OwnerRow where
  id : Nat
  address : GenericOwner

structure SettingsRow where
  topHeight : Nat
  topHash : Hash
  version : Nat

/-- The contents of the database.  The numbers of owners are never used again, so that
the last of them outlives its row. -/
structure Tables where
  mappings : UniqueRows MappingRow.nameAndHeight
  owners : UniqueRows OwnerRow.address
  ownerSequence : Nat
  settings : Option SettingsRow

def Tables.empty : Tables where
  mappings := UniqueRows.empty MappingRow.nameAndHeight
  owners := UniqueRows.empty OwnerRow.address
  ownerSequence := 0
  settings := none

/-! ## Reading -/

def MappingRow.dbMappingValue (row : MappingRow) : MappingType -> Option (List UInt8)
  | .bchat => row.encryptedBchatValue
  | .wallet => row.encryptedWalletValue
  | .belnet => row.encryptedBelnetValue
  | .belnet2Years => row.encryptedBelnetValue
  | .belnet5Years => row.encryptedBelnetValue
  | .belnet10Years => row.encryptedBelnetValue
  | .ethAddr => row.encryptedEthAddrValue

structure JoinedRow where
  row : MappingRow
  owner : GenericOwner
  backupOwner : Option GenericOwner

structure MappingRecord where
  id : Nat
  nameHash : Hash
  encryptedBchatValue : List UInt8
  encryptedWalletValue : List UInt8
  encryptedBelnetValue : List UInt8
  encryptedEthAddrValue : List UInt8
  expirationHeight : Option Nat
  updateHeight : Nat
  txid : Hash
  ownerId : Nat
  backupOwnerId : Nat
  owner : GenericOwner
  backupOwner : GenericOwner

def MappingRecord.active (record : MappingRecord) (blockchainHeight : Nat) : Bool :=
  match record.expirationHeight with
  | some expiration => decide (blockchainHeight <= expiration)
  | none => true

/-- A value that does not fit the buffer of the record is not loaded. -/
def loadValue (column : Option (List UInt8)) : Option (List UInt8) :=
  let value := column.getD []
  if bufferSize < value.length then none else some value

def sqlGetMappingFromStatement (joined : JoinedRow) : Option MappingRecord := do
  let ethAddr <- loadValue joined.row.encryptedEthAddrValue
  let bchat <- loadValue joined.row.encryptedBchatValue
  let wallet <- loadValue joined.row.encryptedWalletValue
  let belnet <- loadValue joined.row.encryptedBelnetValue
  let backupOwnerId := joined.row.backupOwnerId.getD 0
  let backupOwner <- if 0 < backupOwnerId then joined.backupOwner else some nullOwner
  some
    { id := joined.row.id
      nameHash := joined.row.nameHash
      encryptedBchatValue := bchat
      encryptedWalletValue := wallet
      encryptedBelnetValue := belnet
      encryptedEthAddrValue := ethAddr
      expirationHeight := some joined.row.expirationHeight
      updateHeight := joined.row.updateHeight
      txid := joined.row.txid
      ownerId := joined.row.ownerId
      backupOwnerId := backupOwnerId
      owner := joined.owner
      backupOwner := backupOwner }

namespace Tables

variable (t : Tables)

def getOwnerById (id : Nat) : Option OwnerRow :=
  t.owners.rows.find? fun owner => owner.id == id

def getOwnerByKey (key : GenericOwner) : Option OwnerRow :=
  t.owners.rows.find? fun owner => owner.address == key

/-- Join a row with its owners; a row without its owner is left out. -/
def join (row : MappingRow) : Option JoinedRow := do
  let owner <- t.getOwnerById row.ownerId
  some
    { row := row
      owner := owner.address
      backupOwner := (row.backupOwnerId.bind t.getOwnerById).map OwnerRow.address }

def selectMapping (nameHash : Hash) : Option JoinedRow :=
  ((t.mappings.rows.filter fun row => row.nameHash == nameHash).filterMap t.join).argmax
    fun joined => joined.row.updateHeight

def getMapping (nameHash : Hash) (blockchainHeight : Option Nat) : Option MappingRecord := do
  let joined <- t.selectMapping nameHash
  let record <- sqlGetMappingFromStatement joined
  match blockchainHeight with
  | some height => if record.active height then some record else none
  | none => some record

/-- The value of a name is that of its newest change which is not expired. -/
def resolve (type : MappingType) (nameHash : Hash) (blockchainHeight : Nat) :
    Option (List UInt8) := do
  let live := t.mappings.rows.filter fun row =>
    row.nameHash == nameHash && decide (blockchainHeight <= row.expirationHeight)
  let row <- live.argmax MappingRow.updateHeight
  row.dbMappingValue type

/-! ## Writing -/

def saveOwner (owner : GenericOwner) : Option (Nat × Tables) := do
  let id := t.ownerSequence + 1
  let owners <- t.owners.insert? { id := id, address := owner }
  some (id, { t with owners := owners, ownerSequence := id })

def nextRowid : Nat :=
  (t.mappings.rows.map MappingRow.id).foldl max 0 + 1

def insertMapping (row : MappingRow) : Option (Unit × Tables) := do
  let mappings <- t.mappings.insert? { row with id := t.nextRowid }
  some ((), { t with mappings := mappings })

def saveSettings (topHeight : Nat) (topHash : Hash) (version : Nat) : Tables :=
  { t with settings := some { topHeight := topHeight, topHash := topHash, version := version } }

def refersTo (owner : OwnerRow) : Bool :=
  t.mappings.rows.any fun row => row.ownerId == owner.id || row.backupOwnerId == some owner.id

def pruneMappings (height : Nat) : Tables :=
  { t with mappings := t.mappings.deleteWhere fun row => decide (height <= row.updateHeight) }

def pruneOwners : Tables :=
  { t with owners := t.owners.deleteWhere fun owner => !t.refersTo owner }

end Tables

/-- The name system of a node: the database and the progress it has made. -/
structure NameSystemDb where
  tables : Tables
  lastProcessedHeight : Nat
  lastProcessedHash : Hash
  transactionBegun : Bool

def NameSystemDb.fresh : NameSystemDb where
  tables := Tables.empty
  lastProcessedHeight := 0
  lastProcessedHash := nullHash
  transactionBegun := false

/-- Forget the changes from a height on.  The height is unsigned in the code, so the
one before zero is the greatest. -/
def NameSystemDb.pruneDb (db : NameSystemDb) (height : Nat) : NameSystemDb :=
  { db with
    tables := (db.tables.pruneMappings height).pruneOwners
    lastProcessedHeight := if height = 0 then 2 ^ 64 - 1 else height - 1 }

def NameSystemDb.blockDetach (db : NameSystemDb) (newBlockchainHeight : Nat) : NameSystemDb :=
  db.pruneDb newBlockchainHeight

end Beldex.Bns
