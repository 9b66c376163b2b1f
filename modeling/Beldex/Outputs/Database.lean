import Beldex.Basic.Transaction
import Beldex.Foundation.Fallible
import Beldex.Foundation.Table

/-!
# The chain database

Every output of the chain is a row of a table that is keyed by the output's
amount; within one amount the rows are numbered in the order in which they were
stored.  Native ring confidential outputs and privacy-token outputs both have
the amount zero and share one numbering.  Two further tables list, by height,
which of these numbers are native and which are privacy-token outputs.  Every call
on the database works on one batch: it completes, or none of its writes remains.
-/

namespace Beldex.Outputs

open Basic Crypto Foundation Foundation.Fallible

variable {P : Type}

section

/-! ## Rows -/

structure OutputConstants (P : Type) where
  zeroCommit : UInt64 -> P
  nullTid : P

structure OutputData (P : Type) where
  pubkey : PublicKey
  unlockTime : UInt64
  height : UInt64
  commitment : P
  blindedTokenId : P

structure OutKey (P : Type) where
  amountIndex : Nat
  data : OutputData P

structure OutputDb (P : Type) where
  height : UInt64
  outputAmounts : UInt64 -> List (OutKey P)
  nativeOutputHeights : List (UInt64 × Nat)
  zyOutputHeights : List (UInt64 × Nat)
  spentKeys : List KeyImage

def OutputDb.empty (P : Type) : OutputDb P where
  height := 0
  outputAmounts := fun _ => []
  nativeOutputHeights := []
  zyOutputHeights := []
  spentKeys := []

/-! ## Reading -/

variable (db : OutputDb P)

def OutputDb.row? (amount index : UInt64) : Option (OutKey P) :=
  (db.outputAmounts amount).find? fun row => row.amountIndex == index.toNat

variable (K : OutputConstants P)

/-- Rows of a plain amount end before the commitment and the token. -/
def readRow (amount : UInt64) (row : OutKey P) : OutputData P :=
  if amount = 0 then row.data
  else { row.data with commitment := K.zeroCommit amount, blindedTokenId := K.nullTid }

def getOutputKey (db : OutputDb P) (amount index : UInt64) : Option (OutputData P) :=
  (db.row? amount index).map (readRow K amount)

def hasKeyImage (kImage : KeyImage) : Bool :=
  db.spentKeys.contains kImage

/-! ## Writing -/

/-- Append a row to an amount, and list its number when the amount is zero. -/
def OutputDb.putRow (amount : UInt64) (isZyphora : Bool) (data : OutputData P) : OutputDb P :=
  let rows := db.outputAmounts amount
  let listed := [(db.height, rows.length)]
  { db with
    outputAmounts := fun a =>
      if a = amount then rows ++ [{ amountIndex := rows.length, data := data }]
      else db.outputAmounts a
    nativeOutputHeights :=
      if amount = 0 ∧ isZyphora = false then db.nativeOutputHeights ++ listed
      else db.nativeOutputHeights
    zyOutputHeights :=
      if amount = 0 ∧ isZyphora = true then db.zyOutputHeights ++ listed
      else db.zyOutputHeights }

def addOutput (db : OutputDb P) (out : TxOut P) (unlockTime : UInt64) (commitment : Option P) :
    Except String (OutputDb P) :=
  match out.target with
  | .zyphora zout =>
    -- The commitment comes from the output itself.
    .ok (db.putRow out.amount true
      { pubkey := zout.stealthAddress
        unlockTime := unlockTime
        height := db.height
        commitment := zout.amountCommitment
        blindedTokenId := zout.blindedTokenId })
  | .toKey key => do
      rejectIf (out.amount == 0 && commitment.isNone) "RCT output without commitment"
      .ok (db.putRow out.amount false
        { pubkey := key
          unlockTime := unlockTime
          height := db.height
          -- Of a plain amount this field is not stored.
          commitment := commitment.getD K.nullTid
          blindedTokenId := K.nullTid })
  | _ => .error "Wrong output type: expected txout_to_key or tx_out_zyphora"

/-! ## Transactions -/

def addSpentKey (kImage : KeyImage) : Except String (OutputDb P) := do
  rejectIf (hasKeyImage db kImage)
    "Attempting to add spent key image that's already in the db"
  .ok { db with spentKeys := db.spentKeys ++ [kImage] }

def keyImages (vin : List TxIn) : List KeyImage :=
  vin.filterMap fun txin =>
    match txin with
    | .toKey txin => some txin.kImage
    | .zyInput txin => some txin.kImage
    | _ => none

variable (tx : Transaction P)

def isMinerTx : Bool :=
  tx.vin.any fun txin =>
    match txin with
    | .gen _ => true
    | _ => false

/-- Mark the inputs as spent; `false` stands for an input of an unsupported type. -/
def addSpentInputs (db : OutputDb P) : List TxIn -> Except String (OutputDb P × Bool)
  | [] => .ok (db, true)
  | .toScript :: _ => .ok (db, false)
  | .toScripthash :: _ => .ok (db, false)
  | .gen _ :: rest => addSpentInputs db rest
  | .toKey txin :: rest => do
      let db <- addSpentKey db txin.kImage
      addSpentInputs db rest
  | .zyInput txin :: rest => do
      let db <- addSpentKey db txin.kImage
      addSpentInputs db rest

def unlockTimeOf (i : Nat) : UInt64 :=
  if TxVersion.v3PerOutputUnlockTimes.toNat <= tx.version.toNat then
    tx.outputUnlockTimes.getD i 0
  else
    tx.unlockTime

def isRingct : Bool :=
  decide (TxVersion.v2Ringct.toNat <= tx.version.toNat)

/-- Coinbase outputs are stored as ring confidential outputs of their plain amount. -/
def storedOutput (out : TxOut P) : TxOut P :=
  if isMinerTx tx && isRingct tx then { out with amount := 0 } else out

/-- The commitment that goes with an output; `outPk` counts native outputs only. -/
def outputCommitment (out : TxOut P) (nativeOutputIndex : Nat) : Except String (Option P) :=
  if isMinerTx tx && isRingct tx then
    .ok (some (K.zeroCommit out.amount))
  else if isRingct tx && out.zyphora?.isNone then do
    let key <- orReject tx.rctSignatures.outPk[nativeOutputIndex]?
      ("outPk index out of range: native output #" ++ toString nativeOutputIndex ++
        " but outPk has only " ++ toString tx.rctSignatures.outPk.length ++ " entries")
    .ok (some key.mask)
  else
    .ok none

def addOutputs (K : OutputConstants P) (tx : Transaction P) :
    OutputDb P -> Nat -> Nat -> List (TxOut P) -> Except String (OutputDb P)
  | db, _, _, [] => .ok db
  | db, i, nativeOutputIndex, out :: rest => do
      let commitment <- outputCommitment K tx out nativeOutputIndex
      let db <- addOutput K db (storedOutput tx out) (unlockTimeOf tx i) commitment
      addOutputs K tx db (i + 1)
        (if out.zyphora?.isNone then nativeOutputIndex + 1 else nativeOutputIndex) rest

def addTransaction (db : OutputDb P) (tx : Transaction P) : Except String (OutputDb P) := do
  let (db, supported) <- addSpentInputs db tx.vin
  if supported then
    addOutputs K tx db 0 0 tx.vout
  else
    .ok { db with
      spentKeys := db.spentKeys.filter fun kImage => !(keyImages tx.vin).contains kImage }

/-! ## Blocks -/

structure BlockEntry (P : Type) where
  block : Block P
  txs : List (Transaction P)

def addBlock (db : OutputDb P) (entry : BlockEntry P) : Except String (OutputDb P) := do
  rejectIf (entry.block.txHashes.length != entry.txs.length)
    "Inconsistent tx/hashes sizes"
  let db <- run (addTransaction K) db (entry.block.minerTx :: entry.txs)
  .ok { db with height := db.height + 1 }

end

/-! ## Blocks -/

structure StoredTx (P : Type) where
  tx : Transaction P
  amountOutputIndices : List Nat

structure ChainDb (P : Type) where
  outputs : OutputDb P
  txs : Table Hash (StoredTx P)
  -- The top block comes last.
  blocks : List (Hash × Block P)

def ChainDb.empty (P : Type) : ChainDb P where
  outputs := OutputDb.empty P
  txs := Table.empty
  blocks := []

structure Hashing (P : Type) where
  getBlockHash : Block P -> Hash
  getTransactionHash : Transaction P -> Hash

/-! ## Adding -/

def hasSupportedInputs (tx : Transaction P) : Bool :=
  tx.vin.all fun txin =>
    match txin with
    | .toScript | .toScripthash => false
    | _ => true

/-- The numbers that the outputs get, when `count` rows of each amount exist. -/
def amountOutputIndices (tx : Transaction P) (count : UInt64 -> Nat) :
    List (TxOut P) -> List Nat
  | [] => []
  | out :: rest =>
    let amount := (storedOutput tx out).amount
    count amount ::
      amountOutputIndices tx (fun a => if a = amount then count a + 1 else count a) rest

def ChainDb.addTransaction (K : OutputConstants P) (db : ChainDb P) (txHash : Hash)
    (tx : Transaction P) : Except String (ChainDb P) := do
  let outputs <- Outputs.addTransaction K db.outputs tx
  if hasSupportedInputs tx then do
    rejectIf (db.txs.find? txHash).isSome
      "Attempting to add transaction that's already in the db"
    let indices :=
      amountOutputIndices tx (fun a => (db.outputs.outputAmounts a).length) tx.vout
    .ok { db with
      outputs := outputs
      txs := db.txs.set txHash { tx := tx, amountOutputIndices := indices } }
  else
    -- Nothing but the key images of such a transaction is touched.
    .ok { db with outputs := outputs }

def entryTxs (H : Hashing P) (entry : BlockEntry P) : List (Hash × Transaction P) :=
  (H.getTransactionHash entry.block.minerTx, entry.block.minerTx) ::
    entry.block.txHashes.zip entry.txs

def ChainDb.addBlock (H : Hashing P) (K : OutputConstants P) (db : ChainDb P)
    (entry : BlockEntry P) : Except String (ChainDb P) := do
  rejectIf (entry.block.txHashes.length != entry.txs.length) "Inconsistent tx/hashes sizes"
  let filled <- run (fun db (txp : Hash × Transaction P) => db.addTransaction K txp.1 txp.2)
    db (entryTxs H entry)
  let blkHash := H.getBlockHash entry.block
  rejectIf (db.blocks.any fun b => b.1 == blkHash)
    "Attempting to add block that's already in the db"
  rejectIf (db.blocks.getLast?.any fun top => top.1 != entry.block.prevId)
    "Top block is not new block's parent"
  .ok { filled with
    outputs := { filled.outputs with height := filled.outputs.height + 1 }
    blocks := filled.blocks ++ [(blkHash, entry.block)] }

/-! ## Removing -/

def dropListed (listed : List (UInt64 × Nat)) (height : UInt64) (index : Nat) :
    Except String (List (UInt64 × Nat)) := do
  rejectIf (!listed.contains (height, index))
    "Failed to find output height index entry to remove"
  .ok (listed.erase (height, index))

def removeOutput [DecidableEq P] (K : OutputConstants P) (db : OutputDb P)
    (amount : UInt64) (index : Nat) : Except String (OutputDb P) := do
  let row <- orReject ((db.outputAmounts amount).find? fun row => row.amountIndex == index)
    "Attempting to get an output index by amount and amount index, but amount not found"
  let rows : UInt64 -> List (OutKey P) := fun a =>
    if a = amount then (db.outputAmounts a).filter fun row => row.amountIndex != index
    else db.outputAmounts a
  if amount != 0 then
    .ok { db with outputAmounts := rows }
  else if row.data.blindedTokenId != K.nullTid then do
    let listed <- dropListed db.zyOutputHeights row.data.height index
    .ok { db with outputAmounts := rows, zyOutputHeights := listed }
  else do
    let listed <- dropListed db.nativeOutputHeights row.data.height index
    .ok { db with outputAmounts := rows, nativeOutputHeights := listed }

/-- A coinbase with one input was stored under the amount zero. -/
def isPseudoRct (tx : Transaction P) : Bool :=
  isRingct tx && match tx.vin with
    | [.gen _] => true
    | _ => false

def removeTxOutputs [DecidableEq P] (K : OutputConstants P) (db : OutputDb P)
    (stored : StoredTx P) : Except String (OutputDb P) := do
  rejectIf (stored.amountOutputIndices.isEmpty && !stored.tx.vout.isEmpty)
    "tx has outputs, but no output indices found"
  let numbered := stored.tx.vout.zip stored.amountOutputIndices
  run (fun db (out : TxOut P × Nat) =>
    removeOutput K db (if isPseudoRct stored.tx then 0 else out.1.amount) out.2)
    db numbered.reverse

def removeSpentKeys (db : OutputDb P) (vin : List TxIn) : OutputDb P :=
  { db with spentKeys := db.spentKeys.filter fun kImage => !(keyImages vin).contains kImage }

def ChainDb.removeTransaction [DecidableEq P] (K : OutputConstants P) (db : ChainDb P)
    (txHash : Hash) : Except String (ChainDb P) := do
  let stored <- orReject (db.txs.find? txHash) "pruned tx with hash not found in db"
  let outputs <- removeTxOutputs K (removeSpentKeys db.outputs stored.tx.vin) stored
  .ok { db with outputs := outputs, txs := db.txs.restrict fun h => h != txHash }

def ChainDb.popTransactions [DecidableEq P] (K : OutputConstants P) :
    ChainDb P -> List Hash -> Except String (ChainDb P × List (Transaction P))
  | db, [] => .ok (db, [])
  | db, txHash :: rest => do
      let stored <- orReject (db.txs.find? txHash)
        "Failed to get pruned or unpruned transaction from the db"
      let db <- db.removeTransaction K txHash
      let (db, txs) <- ChainDb.popTransactions K db rest
      .ok (db, stored.tx :: txs)

def ChainDb.popBlock [DecidableEq P] (H : Hashing P) (K : OutputConstants P)
    (db : ChainDb P) : Except String (ChainDb P × Block P × List (Transaction P)) := do
  let top <- orReject db.blocks.getLast?
    "Attempting to remove block from an empty blockchain"
  let popped : ChainDb P :=
    { db with
      outputs := { db.outputs with height := db.outputs.height - 1 }
      blocks := db.blocks.dropLast }
  let (db, txs) <- popped.popTransactions K top.2.txHashes.reverse
  let db <- db.removeTransaction K (H.getTransactionHash top.2.minerTx)
  .ok (db, top.2, txs)

/-! ## Runs -/

inductive DbCall (P : Type) where
  | addBlock (entry : BlockEntry P)
  | popBlock

structure DbState (P : Type) where
  db : ChainDb P
  chain : List (BlockEntry P)

def DbState.empty (P : Type) : DbState P where
  db := ChainDb.empty P
  chain := []

def stepDb [DecidableEq P] (H : Hashing P) (K : OutputConstants P) (s : DbState P) :
    DbCall P -> DbState P
  | .addBlock entry =>
    match s.db.addBlock H K entry with
    | .ok db => { db := db, chain := s.chain ++ [entry] }
    | .error _ => s
  | .popBlock =>
    match s.db.popBlock H K with
    | .ok (db, _, _) => { db := db, chain := s.chain.dropLast }
    | .error _ => s

def runDb [DecidableEq P] (H : Hashing P) (K : OutputConstants P) (s : DbState P)
    (calls : List (DbCall P)) : DbState P :=
  calls.foldl (stepDb H K) s

end Beldex.Outputs
