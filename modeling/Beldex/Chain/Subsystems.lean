import Beldex.Chain.CheckpointStore
import Beldex.Token.Rewind
import Beldex.Token.Validate
import Beldex.Voting.VotePool

/-!
# The parts of a node that follow the chain

The master node list and the name system process every block of the main chain
and are wound back when blocks leave it.
-/

namespace Beldex.Chain

open Basic Crypto Foundation Token Voting Table

variable {P S N Blob : Type}

/-! ## The chain and the code around it -/

structure BlockInfo where
  weight : UInt64
  longTermWeight : UInt64
  cumulativeDifficulty : UInt64
  coinsGenerated : UInt64

/-- A block of the main chain; its height is its position. -/
structure ChainBlock (P : Type) where
  block : Block P
  info : BlockInfo

/-- The state of the master node list after a block; `nodes` is everything in it that
only the rules of the list read. -/
structure MasterNodeState (S : Type) where
  height : Nat
  blockHash : Hash
  onlyLoadedQuorums : Bool
  nodes : S

structure MasterNodeList (S : Type) where
  state : MasterNodeState S
  stateHistory : Table Nat (MasterNodeState S)
  stateArchive : Table Nat (MasterNodeState S)
  altState : Table Hash (MasterNodeState S)

structure BnsRow (N : Type) where
  updateHeight : Nat
  entry : N

structure BnsDb (N : Type) where
  mappings : List (BnsRow N)
  lastProcessedHeight : Nat

/-- What the modelled code calls.  A transaction is named by its hash, under which it
is found in the pool and on the chain. -/
structure Environment (P S N Blob : Type) where
  getBlockHash : Block P -> Hash
  getTransactionHash : Transaction P -> Hash
  transaction : Hash -> Transaction P
  networkVersion : Nat -> Hf
  hardForkBegins : Hf -> Nat
  codec : TokenCodec P Blob
  tokenOracles : TokenOracles P
  checkBlockTimestamp : List (Block P) -> Block P -> Bool
  prevalidateMinerTransaction : Block P -> Hf -> Bool
  verifyBlockPow : List (Block P) -> Block P -> Bool
  checkTxInputs : List (ChainBlock P) -> Block P -> Hash -> Bool
  validateMinerTransaction : List (ChainBlock P) -> Block P -> Bool
  blockInfo : List (ChainBlock P) -> Block P -> BlockInfo
  /-- The database takes a block, or throws, as it does if a key image is known, when it has
  written the rows of these transactions. -/
  addBlock : List (ChainBlock P) -> Block P -> Except (List Hash) Unit
  updateNextCumulativeWeightLimit : List (ChainBlock P) -> Bool
  addTx : Finset Hash -> Hash -> Bool
  initialState : MasterNodeState S
  /-- The list as it was last written to the database. -/
  loadMasterNodeList : List (ChainBlock P) -> MasterNodeList S
  /-- What a block makes of the nodes of a state, and whether that went through. -/
  updateFromBlock : MasterNodeList S -> MasterNodeState S -> Block P -> S × Bool
  stripNodes : S -> S
  verifyBlock : MasterNodeList S -> List (ChainBlock P) -> Block P -> Bool ->
    Option Checkpoint -> Bool
  /-- The new rows of a block, if all of its name transactions are valid. -/
  bnsEntries : List (BnsRow N) -> Block P -> Option (List N)
  quorumCopBlockAdd : List (ChainBlock P) -> Block P -> Bool
  securitySignatureOk : List (ChainBlock P) -> Block P -> Bool
  getDifficultyForAlternativeChain : List (ChainBlock P) -> List (Block P) -> Block P -> UInt64

variable (env : Environment P S N Blob) (main : List (ChainBlock P))

def Environment.hashAt (height : Nat) : Option Hash :=
  main[height]?.map fun entry => env.getBlockHash entry.block

def Environment.tailId : Option Hash :=
  main.getLast?.map fun entry => env.getBlockHash entry.block

def Environment.blockExists (hash : Hash) : Bool :=
  main.any fun entry => env.getBlockHash entry.block == hash

def Environment.txExists (txId : Hash) : Bool :=
  main.any fun entry =>
    entry.block.txHashes.contains txId || env.getTransactionHash entry.block.minerTx == txId

/-! ## The name system -/

/-- A block that was processed before is not processed again, and a block with an
invalid name transaction leaves no row. -/
def BnsDb.addBlock (names : BnsDb N) (block : Block P) : Option (BnsDb N) :=
  let height := (getBlockHeight block).toNat
  if height <= names.lastProcessedHeight then
    some names
  else
    (env.bnsEntries names.mappings block).map fun entries =>
      { mappings := names.mappings ++ entries.map fun entry => ⟨height, entry⟩
        lastProcessedHeight := height }

def BnsDb.blockDetach (names : BnsDb N) (height : Nat) : BnsDb N where
  mappings := names.mappings.filter fun row => row.updateHeight < height
  lastProcessedHeight := height - 1

/-! ## The master node list -/

def storeLongTermStateInterval : Nat := 10000

def shortTermStateCullHeight (blockHeight : Nat) : Nat :=
  blockHeight - 6 * voteLifetime.toNat

def insertNew {κ υ : Type} [DecidableEq κ] (t : Table κ υ) (k : κ) (v : υ) : Table κ υ :=
  if (t.find? k).isSome then t else t.set k v

def archived (state : MasterNodeState S) : Option (MasterNodeState S) :=
  let next := (state.height / storeLongTermStateInterval + 1) * storeLongTermStateInterval
  if next - state.height <= (voteLifetime + voteOrTxVerifyHeightBuffer).toNat then
    some { state with nodes := env.stripNodes state.nodes, onlyLoadedQuorums := true }
  else if state.height % storeLongTermStateInterval = 0 then
    some state
  else
    none

variable (list : MasterNodeList S)

def MasterNodeList.cull (cullHeight : Nat) : MasterNodeList S :=
  { list with
    stateArchive :=
      (list.stateHistory.entries.filter fun entry => entry.1 <= cullHeight).foldl
        (fun archive entry =>
          match archived env entry.2 with
          | some state => insertNew archive state.height state
          | none => archive)
        list.stateArchive
    stateHistory := list.stateHistory.restrict fun height => cullHeight < height
    altState :=
      list.altState.restrict fun hash =>
        (list.altState.find? hash).any fun state => cullHeight <= state.height }

def stateAfter (state : MasterNodeState S) (block : Block P) : MasterNodeState S × Bool :=
  let nodes := env.updateFromBlock list state block
  ({ height := state.height + 1
     blockHash := env.getBlockHash block
     onlyLoadedQuorums := state.onlyLoadedQuorums
     nodes := nodes.1 }, nodes.2)

def MasterNodeList.processBlock (block : Block P) : MasterNodeList S × Bool :=
  let culled := list.cull env (shortTermStateCullHeight (getBlockHeight block).toNat)
  let kept :=
    { culled with
      stateHistory := insertNew culled.stateHistory list.state.height list.state }
  let next := stateAfter env kept list.state block
  ({ kept with state := next.1 }, next.2)

/-- Process a block and verify it.  A block that fails stays processed. -/
def MasterNodeList.blockAdd (main : List (ChainBlock P)) (block : Block P)
    (checkpoint : Option Checkpoint) : MasterNodeList S × Bool :=
  if block.majorVersion < Hf.hf9MasterNodes then
    (list, true)
  else
    let processed := list.processBlock env block
    (processed.1, processed.2 && env.verifyBlock processed.1 main block false checkpoint)

def MasterNodeList.startingState (block : Block P) : Option (MasterNodeState S) :=
  let height := (getBlockHeight block).toNat
  match (list.stateHistory.find? (height - 1)).filter fun state =>
      state.blockHash == block.prevId with
  | some state => some state
  | none => list.altState.find? block.prevId

/-- Keep the state after an alternative block, and then verify the block. -/
def MasterNodeList.altBlockAdd (main : List (ChainBlock P)) (block : Block P)
    (checkpoint : Option Checkpoint) : MasterNodeList S × Bool :=
  if block.majorVersion < Hf.hf9MasterNodes then
    (list, true)
  else if (list.altState.find? (env.getBlockHash block)).isSome then
    (list, true)
  else
    match list.startingState block with
    | none => (list, false)
    | some start =>
      if start.blockHash != block.prevId then
        (list, false)
      else
        let next := stateAfter env list start block
        if next.2 then
          let kept :=
            { list with altState := list.altState.set (env.getBlockHash block) next.1 }
          (kept, env.verifyBlock kept main block true checkpoint)
        else
          (list, false)

def resetMasterNodeList : MasterNodeList S where
  state := env.initialState
  stateHistory := empty
  stateArchive := empty
  altState := empty

def initMasterNodeList : MasterNodeList S :=
  if env.networkVersion main.length < Hf.hf9MasterNodes then
    resetMasterNodeList env
  else
    { env.loadMasterNodeList main with altState := empty }

/-- Go back to the state before a height, or to the nearest archived one below it. -/
def MasterNodeList.blockchainDetached (main : List (ChainBlock P)) (height : Nat) :
    MasterNodeList S :=
  if list.state.height < height then
    list
  else
    let revert := height - 1
    match (list.stateHistory.find? revert).filter fun state => !state.onlyLoadedQuorums with
    | some state =>
      { list with
        state := state
        stateHistory := list.stateHistory.restrict fun h => h < revert }
    | none =>
      let interval := revert - revert % storeLongTermStateInterval
      match (list.stateArchive.find? interval).filter fun state =>
          !state.onlyLoadedQuorums with
      | some state =>
        { list with
          state := state
          stateHistory := empty
          stateArchive := list.stateArchive.restrict fun h => h < interval }
      | none => initMasterNodeList env main

def loadBlock (checkpoints : CheckpointDb) (mnlHeight bnsHeight : Nat)
    (parts : MasterNodeList S × BnsDb N × Bool) (block : Block P) :
    MasterNodeList S × BnsDb N × Bool :=
  let height := (getBlockHeight block).toNat
  let checkpoint :=
    if Hf.hf15Flash <= block.majorVersion then checkpoints.find? (getBlockHeight block)
    else none
  if !parts.2.2 then
    parts
  else
    let listed :=
      if mnlHeight <= height then parts.1.blockAdd env main block checkpoint
      else (parts.1, true)
    if !listed.2 then
      (listed.1, parts.2.1, false)
    else if bnsHeight <= height then
      match parts.2.1.addBlock env block with
      | some names => (listed.1, names, true)
      | none => (listed.1, parts.2.1, false)
    else
      (listed.1, parts.2.1, true)

def loadMissingBlocks (checkpoints : CheckpointDb) (list : MasterNodeList S) (names : BnsDb N) :
    MasterNodeList S × BnsDb N :=
  let mnlHeight := max (env.hardForkBegins .hf9MasterNodes) (list.state.height + 1)
  let bnsHeight := max (env.hardForkBegins .hf18Bns) (names.lastProcessedHeight + 1)
  let parts := (main.drop (min mnlHeight bnsHeight)).foldl
    (fun parts entry =>
      loadBlock env main checkpoints mnlHeight bnsHeight parts entry.block)
    (list, names, true)
  (parts.1, parts.2.1)

end Beldex.Chain
