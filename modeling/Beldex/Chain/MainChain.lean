import Beldex.Chain.Subsystems
import Mathlib.Data.Finset.Insert

/-!
# Adding a block to the main chain

A block is checked, its transactions are taken from the pool, it is written to
the database, and the parts of the node that follow the chain process it.  A
block that fails after it was written is popped again.
-/

namespace Beldex.Chain

open Basic Crypto Foundation Foundation.Fallible Token Voting Table List

variable {P S N Blob : Type}

/-! ## Nodes -/

structure AltBlock (P : Type) where
  height : UInt64
  cumulativeDifficulty : UInt64
  block : Block P
  checkpoint : Option Checkpoint

abbrev AltStore (P : Type) : Type :=
  Table Hash (AltBlock P)

structure Node (P S N Blob : Type) where
  main : List (ChainBlock P)
  checkpoints : Checkpoints
  tokens : TokenDb Blob
  masterNodes : MasterNodeList S
  names : BnsDb N
  pool : Finset Hash
  altBlocks : AltStore P
  invalidBlocks : List Hash
  -- the transactions that a failed `add_block` has left in the tables
  strayTxs : List Hash

variable (env : Environment P S N Blob) (node : Node P S N Blob) (block : Block P)

def Node.addBlockAsInvalid : Node P S N Blob :=
  { node with invalidBlocks := env.getBlockHash block :: node.invalidBlocks }

def Node.txExists (txId : Hash) : Bool :=
  env.txExists node.main txId || node.strayTxs.contains txId

def returnTxToPool (pool : Finset Hash) (txIds : List Hash) : Finset Hash :=
  txIds.foldl (fun pool txId => if env.addTx pool txId then insert txId pool else pool) pool

/-! ## Popping a block -/

/-- Wind the parts of the node back to a height, and let them catch up with the chain
if asked to. -/
def Node.execDetachHooks (height : Nat) (loadMissing : Bool) : Node P S N Blob :=
  let list := node.masterNodes.blockchainDetached env node.main height
  let checkpoints := node.checkpoints.blockchainDetached height
  let parts :=
    if loadMissing then loadMissingBlocks env node.main checkpoints.db list node.names
    else (list, node.names)
  { node with masterNodes := parts.1, names := parts.2, checkpoints := checkpoints }

/-- Pop the top block.  There is no block in the result when an exception is thrown. -/
def Node.popBlockFromBlockchain : Node P S N Blob × Option (Block P) :=
  let height := node.main.length - 1
  match node.main.getLast? with
  | none => (node, none)
  | some top =>
    if node.main.length <= 1 then
      (node, none)
    else
      let popped := { node with main := node.main.dropLast }
      match popBlockTokens env.codec env.networkVersion node.tokens height with
      | .error _ => (popped, none)
      | .ok tokens =>
        let popped :=
          { popped with
            tokens := tokens
            names := node.names.blockDetach height
            pool := returnTxToPool env node.pool top.block.txHashes }
        if env.updateNextCumulativeWeightLimit popped.main then
          (popped, some top.block)
        else
          (popped, none)

/-! ## The checks before a block is written -/

def validVersion (required : Hf) (block : Block P) : Bool :=
  required == .none || block.majorVersion == required &&
      (decide (Hf.hf20BulletproofPlus <= block.majorVersion) ||
        required.toNat <= block.minorVersion.toNat)

def melHash : Hash :=
  ⟨0xb9908ab1bf4bc7ee44dc35499f1a28964479f65dd078ce6d247fd12b556fb1b1⟩

def agreesWithCheckpoint : Bool :=
  let height := node.main.length
  !isInCheckpointZone node.checkpoints.db height ||
    checkBlock node.checkpoints.db (UInt64.ofNat height) (env.getBlockHash block) ||
      isMasterNodeCheckpoint node.checkpoints.db (UInt64.ofNat height) &&
        decide (block.majorVersion < Hf.hf15Flash)

def basicBlockChecks : Bool :=
  env.getBlockHash block != melHash && env.tailId node.main == some block.prevId &&
      validVersion (env.networkVersion node.main.length) block &&
        agreesWithCheckpoint env node block &&
          env.checkBlockTimestamp (node.main.map ChainBlock.block) block &&
            (getBlockHeight block).toNat == node.main.length &&
              env.prevalidateMinerTransaction block (env.networkVersion node.main.length)

inductive Exit where
  | basicBlockChecks
  | proofOfWork
  | txExists
  | unknownTx
  | txInputs
  | tokenOperation
  | minerTransaction
  | addBlock
  | masterNodeList
  | bns
  | quorumCop
  | weightLimit
  | tokens
deriving DecidableEq

def Exit.isEarly : Exit -> Bool
  | .basicBlockChecks => true
  | .proofOfWork => true
  | .txExists => true
  | .unknownTx => true
  | .txInputs => true
  | .tokenOperation => true
  | .minerTransaction => true
  | .addBlock => true
  | _ => false

/-- The transactions taken so far, and the token states that they leave behind. -/
structure Taking where
  pool : Finset Hash
  taken : List Hash
  pendingTokenStates : Table TokenId TokenConsensusState

def pendTokenOperations [DecidableEq P] (node : Node P S N Blob) (txId : Hash)
    (taking : Taking) : Except (Exit × Taking) Taking :=
  if featurePrivacyTokens <= env.networkVersion node.main.length then
    match run (pendingTokenOperation env.tokenOracles env.codec node.tokens
        (env.transaction txId)) taking.pendingTokenStates
        (env.transaction txId).tokenOperations with
    | .error _ => .error (.tokenOperation, taking)
    | .ok pending => .ok { taking with pendingTokenStates := pending }
  else
    .ok taking

def takeTransaction [DecidableEq P] (node : Node P S N Blob) (block : Block P)
    (taking : Taking) (txId : Hash) : Except (Exit × Taking) Taking := do
  rejectIf (node.txExists env txId) (.txExists, taking)
  rejectIf (decide (txId ∉ taking.pool)) (.unknownTx, taking)
  let taking :=
    { taking with pool := taking.pool.erase txId, taken := taking.taken ++ [txId] }
  rejectIf (!env.checkTxInputs node.main block txId) (.txInputs, taking)
  pendTokenOperations env node txId taking

/-! ## The steps after a block is written -/

def addToMasterNodeList (checkpoint : Option Checkpoint) :
    Except (Exit × Node P S N Blob) (Node P S N Blob) :=
  let listed := node.masterNodes.blockAdd env node.main block checkpoint
  let node := { node with masterNodes := listed.1 }
  if listed.2 then .ok node else .error (.masterNodeList, node)

def addToNames : Except (Exit × Node P S N Blob) (Node P S N Blob) :=
  match node.names.addBlock env block with
  | some names => .ok { node with names := names }
  | none => .error (.bns, node)

def runBlockAddHooks (checkpoint : Option Checkpoint) :
    Except (Exit × Node P S N Blob) (Node P S N Blob) :=
  if env.quorumCopBlockAdd node.main block then
    .ok { node with checkpoints := node.checkpoints.blockAdd block checkpoint }
  else
    .error (.quorumCop, node)

def persistTokens : Except (Exit × Node P S N Blob) (Node P S N Blob) :=
  match addBlockTokens env.codec env.networkVersion node.tokens (node.main.length - 1)
      (block.txHashes.map env.transaction) with
  | .ok tokens => .ok { node with tokens := tokens }
  | .error _ => .error (.tokens, node)

def processWritten (checkpoint : Option Checkpoint) :
    Except (Exit × Node P S N Blob) (Node P S N Blob) := do
  let node <- addToMasterNodeList env node block checkpoint
  let node <- addToNames env node block
  let node <- runBlockAddHooks env node block checkpoint
  rejectIf (!env.updateNextCumulativeWeightLimit node.main) (.weightLimit, node)
  persistTokens env node block

/-! ## Adding a block -/

/-- How the code ends with a block; it is terminated when the deferred pop of the
block throws. -/
inductive MainResult (P S N Blob : Type) where
  | added (node : Node P S N Blob)
  | rejected (exit : Exit) (node : Node P S N Blob)
  | terminated

def abortBlock (exit : Exit) (node : Node P S N Blob) : MainResult P S N Blob :=
  match node.popBlockFromBlockchain env with
  | (popped, some _) =>
    .rejected exit (popped.execDetachHooks env popped.main.length false)
  | (_, none) => .terminated

def rejectTaken (exit : Exit) (taking : Taking) : MainResult P S N Blob :=
  let node := { node with pool := returnTxToPool env taking.pool taking.taken }
  .rejected exit (if exit = .txInputs then node.addBlockAsInvalid env block else node)

def Node.write (pool : Finset Hash) : Node P S N Blob :=
  { node with main := node.main ++ [⟨block, env.blockInfo node.main block⟩], pool := pool }

def handleBlockToMainChain [DecidableEq P] (node : Node P S N Blob) (block : Block P)
    (checkpoint : Option Checkpoint) : MainResult P S N Blob :=
  if !basicBlockChecks env node block then
    .rejected .basicBlockChecks node
  else if !blockHasPosComponents block &&
      !env.verifyBlockPow (node.main.map ChainBlock.block) block then
    .rejected .proofOfWork node
  else
    match run (takeTransaction env node block)
        { pool := node.pool, taken := [], pendingTokenStates := empty }
        block.txHashes with
    | .error (exit, taking) => rejectTaken env node block exit taking
    | .ok taking =>
      if !env.validateMinerTransaction node.main block then
        rejectTaken env node block .minerTransaction taking
      else
        match env.addBlock node.main block with
        | .error rows =>
          rejectTaken env { node with strayTxs := rows ++ node.strayTxs } block .addBlock taking
        | .ok _ =>
          match processWritten env (node.write env block taking.pool) block checkpoint with
          | .ok node => .added node
          | .error (exit, node) => abortBlock env exit node

/-! ## The steps read backwards -/

section

variable {env : Environment P S N Blob} {node node' : Node P S N Blob} {block : Block P}
  {checkpoint : Option Checkpoint} {exit : Exit}

def Exit.checkpointsAt (exit : Exit) (checkpoints : Checkpoints) (block : Block P)
    (checkpoint : Option Checkpoint) : Checkpoints :=
  match exit with
  | .weightLimit => checkpoints.blockAdd block checkpoint
  | .tokens => checkpoints.blockAdd block checkpoint
  | _ => checkpoints

theorem addToMasterNodeList_eq_ok (h : addToMasterNodeList env node block checkpoint = .ok node') :
    node' = { node with
      masterNodes := (node.masterNodes.blockAdd env node.main block checkpoint).1 } := by
  unfold addToMasterNodeList at h
  dsimp only at h
  split at h
  · cases h
    rfl
  · cases h

theorem addToMasterNodeList_eq_error
    (h : addToMasterNodeList env node block checkpoint = .error (exit, node')) :
    exit = .masterNodeList ∧ node' = { node with
      masterNodes := (node.masterNodes.blockAdd env node.main block checkpoint).1 } := by
  unfold addToMasterNodeList at h
  dsimp only at h
  split at h
  · cases h
  · cases h
    exact ⟨rfl, rfl⟩

theorem addToNames_eq_ok (h : addToNames env node block = .ok node') :
    exists names, node.names.addBlock env block = some names ∧
      node' = { node with names := names } := by
  unfold addToNames at h
  split at h
  next names hnames =>
    cases h
    exact ⟨names, hnames, rfl⟩
  · cases h

theorem addToNames_eq_error (h : addToNames env node block = .error (exit, node')) :
    exit = .bns ∧ node' = node := by
  unfold addToNames at h
  split at h
  · cases h
  · cases h
    exact ⟨rfl, rfl⟩

theorem runBlockAddHooks_eq_ok (h : runBlockAddHooks env node block checkpoint = .ok node') :
    node' = { node with checkpoints := node.checkpoints.blockAdd block checkpoint } := by
  unfold runBlockAddHooks at h
  split at h
  · cases h
    rfl
  · cases h

theorem runBlockAddHooks_eq_error
    (h : runBlockAddHooks env node block checkpoint = .error (exit, node')) :
    exit = .quorumCop ∧ node' = node := by
  unfold runBlockAddHooks at h
  split at h
  · cases h
  · cases h
    exact ⟨rfl, rfl⟩

theorem persistTokens_eq_ok (h : persistTokens env node block = .ok node') :
    exists tokens, addBlockTokens env.codec env.networkVersion node.tokens
        (node.main.length - 1) (block.txHashes.map env.transaction) = .ok tokens ∧
      node' = { node with tokens := tokens } := by
  unfold persistTokens at h
  split at h
  next tokens htoks =>
    cases h
    exact ⟨tokens, htoks, rfl⟩
  · cases h

theorem persistTokens_eq_error (h : persistTokens env node block = .error (exit, node')) :
    exit = .tokens ∧ node' = node := by
  unfold persistTokens at h
  split at h
  · cases h
  · cases h
    exact ⟨rfl, rfl⟩

theorem processWritten_eq_ok (h : processWritten env node block checkpoint = .ok node') :
    exists names tokens, node.names.addBlock env block = some names ∧
      env.updateNextCumulativeWeightLimit node.main = true ∧
      addBlockTokens env.codec env.networkVersion node.tokens (node.main.length - 1)
        (block.txHashes.map env.transaction) = .ok tokens ∧ node' = { node with
        masterNodes := (node.masterNodes.blockAdd env node.main block checkpoint).1
        names := names
        checkpoints := node.checkpoints.blockAdd block checkpoint
        tokens := tokens } := by
  rcases bind_ok.mp h with ⟨node1, hlist, h⟩
  rcases bind_ok.mp h with ⟨node2, hnames, h⟩
  rcases bind_ok.mp h with ⟨node3, hhooks, h⟩
  rcases rejectIf_bind_ok.mp h with ⟨hwt, htoks⟩
  cases addToMasterNodeList_eq_ok hlist
  rcases addToNames_eq_ok hnames with ⟨names, hadd, rfl⟩
  cases runBlockAddHooks_eq_ok hhooks
  rcases persistTokens_eq_ok htoks with ⟨tokens, happly, rfl⟩
  exact ⟨names, tokens, hadd, by simpa using hwt, happly, rfl⟩

theorem processWritten_eq_error
    (h : processWritten env node block checkpoint = .error (exit, node')) :
    exists names, (names = node.names ∨ node.names.addBlock env block = some names) ∧
      node' = { node with
        masterNodes := (node.masterNodes.blockAdd env node.main block checkpoint).1
        names := names
        checkpoints := exit.checkpointsAt node.checkpoints block checkpoint } := by
  rcases bind_error.mp h with hlist | ⟨node1, hlist, h⟩
  · rcases addToMasterNodeList_eq_error hlist with ⟨rfl, rfl⟩
    exact ⟨node.names, Or.inl rfl, rfl⟩
  cases addToMasterNodeList_eq_ok hlist
  rcases bind_error.mp h with hnames | ⟨node2, hnames, h⟩
  · rcases addToNames_eq_error hnames with ⟨rfl, rfl⟩
    exact ⟨node.names, Or.inl rfl, rfl⟩
  rcases addToNames_eq_ok hnames with ⟨names, hadd, rfl⟩
  refine ⟨names, Or.inr hadd, ?_⟩
  rcases bind_error.mp h with hhooks | ⟨node3, hhooks, h⟩
  · rcases runBlockAddHooks_eq_error hhooks with ⟨rfl, rfl⟩
    rfl
  cases runBlockAddHooks_eq_ok hhooks
  rcases rejectIf_bind_error.mp h with ⟨_, hwt⟩ | ⟨_, htoks⟩
  · cases hwt
    rfl
  · rcases persistTokens_eq_error htoks with ⟨rfl, rfl⟩
    rfl

theorem popBlockFromBlockchain_eq_some {popped : Node P S N Blob}
    (h : node.popBlockFromBlockchain env = (popped, some block)) :
    exists top tokens, node.main = popped.main ++ [top] ∧ top.block = block ∧ popped.main ≠ [] ∧
      popBlockTokens env.codec env.networkVersion node.tokens popped.main.length = .ok tokens ∧
      popped = { node with
        main := popped.main
        tokens := tokens
        names := node.names.blockDetach popped.main.length
        pool := returnTxToPool env node.pool block.txHashes } := by
  have hlen : node.main.dropLast.length = node.main.length - 1 :=
    length_dropLast
  unfold Node.popBlockFromBlockchain at h
  dsimp only at h
  split at h
  · cases h
  rename_i top hlast
  split at h
  · cases h
  rename_i hone
  split at h
  · cases h
  rename_i tokens htoks
  split at h
  · cases h
    refine ⟨top, tokens, (dropLast_append_getLast? top hlast).symm, rfl, ?_, ?_, ?_⟩
    · intro hnil
      rw [show node.main.dropLast = [] from hnil, length_nil] at hlen
      omega
    · rw [hlen]
      exact htoks
    · rw [hlen]
  · cases h

theorem abortBlock_eq_rejected {exit' : Exit}
    (h : abortBlock env exit node = .rejected exit' node') :
    exit' = exit ∧ exists popped block, node.popBlockFromBlockchain env = (popped, some block) ∧
      node' = popped.execDetachHooks env popped.main.length false := by
  unfold abortBlock at h
  split at h
  next popped top hpop =>
    cases h
    exact ⟨rfl, popped, top, hpop, rfl⟩
  · cases h

end

/-! ## Taking the transactions of a block -/

section

variable {env : Environment P S N Blob} [DecidableEq P]
  {node node' : Node P S N Blob} {block : Block P} {checkpoint : Option Checkpoint}

/-- What was taken from the pool and what is left make up the pool. -/
def Taking.Splits (taking : Taking) (pool : Finset Hash) : Prop :=
  taking.pool ∪ taking.taken.toFinset = pool

variable {taking : Taking} {pool : Finset Hash} {txId : Hash}

theorem Taking.Splits.take (h : taking.Splits pool) (hpool : txId ∈ taking.pool) :
    ({ taking with pool := taking.pool.erase txId, taken := taking.taken ++ [txId] } :
      Taking).Splits pool := by
  unfold Taking.Splits at h ⊢
  rw [<- h, toFinset_append]
  ext txId'
  simp only [Finset.mem_union, Finset.mem_erase, mem_toFinset, mem_singleton]
  constructor
  · rintro (⟨_, hleft⟩ | htaken | rfl)
    · exact Or.inl hleft
    · exact Or.inr htaken
    · exact Or.inl hpool
  · rintro (hleft | htaken)
    · by_cases heq : txId' = txId
      · exact Or.inr (Or.inr heq)
      · exact Or.inl ⟨heq, hleft⟩
    · exact Or.inr (Or.inl htaken)

variable {taking' : Taking}

theorem pendTokenOperations_eq_ok (h : pendTokenOperations env node txId taking = .ok taking') :
    taking'.pool = taking.pool ∧ taking'.taken = taking.taken := by
  unfold pendTokenOperations at h
  split at h
  · split at h
    · cases h
    · cases h
      exact ⟨rfl, rfl⟩
  · cases h
    exact ⟨rfl, rfl⟩

variable {exit : Exit}

theorem pendTokenOperations_eq_error
    (h : pendTokenOperations env node txId taking = .error (exit, taking')) :
    exit = .tokenOperation ∧ taking' = taking := by
  unfold pendTokenOperations at h
  split at h
  · split at h
    · cases h
      exact ⟨rfl, rfl⟩
    · cases h
  · cases h

theorem takeTransaction_eq_ok (h : takeTransaction env node block taking txId = .ok taking') :
    txId ∈ taking.pool ∧ taking'.pool = taking.pool.erase txId ∧
      taking'.taken = taking.taken ++ [txId] := by
  rcases rejectIf_bind_ok.mp h with ⟨_, h⟩
  rcases rejectIf_bind_ok.mp h with ⟨hpool, h⟩
  rcases rejectIf_bind_ok.mp h with ⟨_, h⟩
  exact ⟨by simpa using hpool, pendTokenOperations_eq_ok h⟩

theorem takeTransaction_eq_error
    (h : takeTransaction env node block taking txId = .error (exit, taking')) :
    exit.isEarly = true ∧ (taking' = taking ∨
      txId ∈ taking.pool ∧ taking'.pool = taking.pool.erase txId ∧
        taking'.taken = taking.taken ++ [txId]) := by
  rcases rejectIf_bind_error.mp h with ⟨_, hexit⟩ | ⟨_, h⟩
  · cases hexit
    exact ⟨rfl, Or.inl rfl⟩
  rcases rejectIf_bind_error.mp h with ⟨_, hexit⟩ | ⟨hpool, h⟩
  · cases hexit
    exact ⟨rfl, Or.inl rfl⟩
  have hin : txId ∈ taking.pool := by
    simpa using hpool
  rcases rejectIf_bind_error.mp h with ⟨_, hexit⟩ | ⟨_, h⟩
  · cases hexit
    exact ⟨rfl, Or.inr ⟨hin, rfl, rfl⟩⟩
  · rcases pendTokenOperations_eq_error h with ⟨rfl, rfl⟩
    exact ⟨rfl, Or.inr ⟨hin, rfl, rfl⟩⟩

theorem Taking.Splits.of_take (h : taking.Splits pool)
    (htake : txId ∈ taking.pool ∧ taking'.pool = taking.pool.erase txId ∧
      taking'.taken = taking.taken ++ [txId]) : taking'.Splits pool := by
  rcases htake with ⟨hpool, hleft, htaken⟩
  have htake := h.take hpool
  unfold Taking.Splits at htake ⊢
  rw [hleft, htaken]
  exact htake

theorem takeTransactions_eq_error {txIds : List Hash} (h : taking.Splits pool)
    (hrun : run (takeTransaction env node block) taking txIds = .error (exit, taking')) :
    exit.isEarly = true ∧ taking'.Splits pool := by
  refine @run_error_preserves _ _ _ (takeTransaction env node block)
    (fun taking => taking.Splits pool)
    (fun e => e.1.isEarly = true ∧ e.2.Splits pool) ?_ ?_ _ _ _ hrun h
  · intro s t txId hstep hs
    exact hs.of_take (takeTransaction_eq_ok hstep)
  · rintro s txId ⟨exit, t⟩ hstep hs
    rcases takeTransaction_eq_error hstep with ⟨hearly, rfl | htake⟩
    · exact ⟨hearly, hs⟩
    · exact ⟨hearly, hs.of_take htake⟩

theorem takeTransactions_eq_ok {txIds : List Hash} (h : taking.Splits pool)
    (hrun : run (takeTransaction env node block) taking txIds = .ok taking') :
    taking'.Splits pool ∧ taking'.taken = taking.taken ++ txIds := by
  induction txIds generalizing taking with
  | nil =>
    cases hrun
    exact ⟨h, (append_nil _).symm⟩
  | cons txId rest ih =>
    rcases run_cons_ok.mp hrun with ⟨next, hstep, hrest⟩
    have htake := takeTransaction_eq_ok hstep
    rcases ih (h.of_take htake) hrest with ⟨hsplits, htaken⟩
    refine ⟨hsplits, ?_⟩
    rw [htaken, htake.2.2, append_assoc]
    rfl

omit [DecidableEq P] in
theorem returnTxToPool_eq_union (hpool : forall pool txId, env.addTx pool txId = true)
    (pool : Finset Hash) (txIds : List Hash) :
    returnTxToPool env pool txIds = pool ∪ txIds.toFinset := by
  unfold returnTxToPool
  induction txIds generalizing pool with
  | nil => simp
  | cons txId rest ih =>
    rw [foldl_cons, if_pos (hpool pool txId), ih, toFinset_cons,
      Finset.insert_union, Finset.union_insert]

/-! ## The results of adding a block -/

theorem handleBlockToMainChain_eq_added
    (h : handleBlockToMainChain env node block checkpoint = .added node') :
    basicBlockChecks env node block = true ∧
      exists pool, processWritten env (node.write env block pool) block checkpoint = .ok node' := by
  unfold handleBlockToMainChain at h
  split at h
  · cases h
  next hbasic =>
    split at h
    · cases h
    · split at h
      · cases h
      next taking _ =>
        split at h
        · cases h
        · split at h
          · cases h
          · split at h
            next hproc =>
              cases h
              exact ⟨by simpa using hbasic, taking.pool, hproc⟩
            next hproc =>
              unfold abortBlock at h
              split at h
              · cases h
              · cases h

/-- A block that is turned down changes nothing but the pool before it is written, leaves rows
where its writing failed, and is popped again after it was written. -/
theorem handleBlockToMainChain_eq_rejected
    (h : handleBlockToMainChain env node block checkpoint = .rejected exit node') :
    exit.isEarly = true ∧ node' = node ∨
      (exit.isEarly = true ∧ exists (taking : Taking) (rows : List Hash),
        taking.Splits node.pool ∧
        (rows ≠ [] -> exit = .addBlock ∧ env.addBlock node.main block = .error rows) ∧
        rejectTaken env { node with strayTxs := rows ++ node.strayTxs } block exit taking =
          .rejected exit node') ∨
      basicBlockChecks env node block = true ∧ exists (taking : Taking) (late : Node P S N Blob),
          taking.Splits node.pool ∧ taking.taken = block.txHashes ∧
          processWritten env (node.write env block taking.pool) block checkpoint =
            .error (exit, late) ∧ abortBlock env exit late = .rejected exit node' := by
  have hstart : ({ pool := node.pool, taken := [], pendingTokenStates := empty } :
      Taking).Splits node.pool := Finset.union_empty _
  unfold handleBlockToMainChain at h
  split at h
  · cases h
    exact Or.inl ⟨rfl, rfl⟩
  rename_i hbasic
  split at h
  · cases h
    exact Or.inl ⟨rfl, rfl⟩
  split at h
  next taking hrun =>
    rcases takeTransactions_eq_error hstart hrun with ⟨hearly, hsplits⟩
    cases h
    exact Or.inr (Or.inl ⟨hearly, taking, [], hsplits, fun h => absurd rfl h, rfl⟩)
  rename_i taking hrun
  rcases takeTransactions_eq_ok hstart hrun with ⟨hsplits, htaken⟩
  split at h
  · cases h
    exact Or.inr (Or.inl ⟨rfl, taking, [], hsplits, fun h => absurd rfl h, rfl⟩)
  split at h
  next rows hrows =>
    cases h
    exact Or.inr (Or.inl ⟨rfl, taking, rows, hsplits, fun _ => ⟨rfl, hrows⟩, rfl⟩)
  split at h
  · cases h
  next late hproc =>
    have hexit := (abortBlock_eq_rejected h).1
    subst hexit
    exact Or.inr (Or.inr ⟨by simpa using hbasic, taking, late, hsplits, htaken, hproc, h⟩)

structure AddedBlock (env : Environment P S N Blob) (node : Node P S N Blob)
    (block : Block P) (checkpoint : Option Checkpoint) (node' : Node P S N Blob) : Prop where
  main : node'.main = node.main ++ [⟨block, env.blockInfo node.main block⟩]
  linked : env.tailId node.main = some block.prevId
  altBlocks : node'.altBlocks = node.altBlocks
  invalidBlocks : node'.invalidBlocks = node.invalidBlocks
  weight : env.updateNextCumulativeWeightLimit node'.main = true
  tokens : addBlockTokens env.codec env.networkVersion node.tokens node.main.length
    (block.txHashes.map env.transaction) = .ok node'.tokens
  list : node'.masterNodes = (node.masterNodes.blockAdd env node'.main block checkpoint).1

theorem addedBlock_of_handle (h : handleBlockToMainChain env node block checkpoint = .added node') :
    AddedBlock env node block checkpoint node' := by
  rcases handleBlockToMainChain_eq_added h with ⟨hbasic, pool, hproc⟩
  rcases processWritten_eq_ok hproc with ⟨names, tokens, _, hwt, htoks, rfl⟩
  have hlen : (node.write env block pool).main.length - 1 = node.main.length := by
    simp [Node.write]
  rw [hlen] at htoks
  simp only [basicBlockChecks, Bool.and_eq_true, beq_iff_eq] at hbasic
  exact ⟨rfl, hbasic.1.1.1.1.1.2, rfl, rfl, hwt, htoks, rfl⟩

structure RejectedBlock (env : Environment P S N Blob) (node : Node P S N Blob)
    (block : Block P) (checkpoint : Option Checkpoint) (node' : Node P S N Blob) : Prop where
  main : node'.main = node.main
  altBlocks : node'.altBlocks = node.altBlocks
  invalidBlocks : forall hash, hash ∈ node.invalidBlocks -> hash ∈ node'.invalidBlocks
  tokens : node'.tokens = node.tokens ∨
    popBlockTokens env.codec env.networkVersion node.tokens node.main.length = .ok node'.tokens
  list : node'.masterNodes = node.masterNodes ∨ exists written, node'.masterNodes =
      (node.masterNodes.blockAdd env written block checkpoint).1.blockchainDetached env
        node.main node.main.length

omit [DecidableEq P] in
theorem rejectTaken_rejectedBlock {stray : List Hash}
    (h : rejectTaken env { node with strayTxs := stray } block exit taking = .rejected exit node') :
    RejectedBlock env node block checkpoint node' := by
  unfold rejectTaken at h
  split at h
  · cases h
    exact ⟨rfl, rfl, fun _ => mem_cons_of_mem _, Or.inl rfl, Or.inl rfl⟩
  · cases h
    exact ⟨rfl, rfl, fun _ hin => hin, Or.inl rfl, Or.inl rfl⟩

theorem rejectedBlock_of_handle
    (h : handleBlockToMainChain env node block checkpoint = .rejected exit node') :
    RejectedBlock env node block checkpoint node' := by
  rcases handleBlockToMainChain_eq_rejected h with
    ⟨_, rfl⟩ | ⟨_, taking, rows, _, _, hreject⟩ | ⟨_, taking, late, _, _, hproc, habort⟩
  · exact ⟨rfl, rfl, fun _ hin => hin, Or.inl rfl, Or.inl rfl⟩
  · exact rejectTaken_rejectedBlock hreject
  · rcases processWritten_eq_error hproc with ⟨names, _, rfl⟩
    rcases (abortBlock_eq_rejected habort).2 with ⟨popped, top, hpop, rfl⟩
    rcases popBlockFromBlockchain_eq_some hpop with
      ⟨entry, tokens, hmain, _, _, htoks, hpopped⟩
    have hbelow : node.main = popped.main := (append_inj' hmain rfl).1
    rw [<- hbelow] at htoks hpopped
    rw [hpopped]
    exact ⟨rfl, rfl, fun _ hin => hin, Or.inr htoks, Or.inr ⟨_, rfl⟩⟩

end

/-! ## A small environment -/

abbrev PlainBlob : Type :=
  TokenConsensusState ⊕ List TokenUndoEntry

/-- Every check passes, and a block is named by its nonce. -/
def passingEnvironment {P S : Type} (point : P) (nodes : S) : Environment P S Unit PlainBlob where
  getBlockHash := fun block => ⟨BitVec.ofNat 256 block.nonce.toNat⟩
  getTransactionHash := fun _ => nullHash
  transaction := fun _ => Transaction.setNull P
  networkVersion := fun _ => .hf17POS
  hardForkBegins := fun _ => 0
  codec := plainCodec P
  tokenOracles := passingOracles point point
  checkBlockTimestamp := fun _ _ => true
  prevalidateMinerTransaction := fun _ _ => true
  verifyBlockPow := fun _ _ => true
  checkTxInputs := fun _ _ _ => true
  validateMinerTransaction := fun _ _ => true
  blockInfo := fun main _ => ⟨0, 0, UInt64.ofNat main.length, 0⟩
  addBlock := fun _ _ => .ok ()
  updateNextCumulativeWeightLimit := fun _ => true
  addTx := fun _ _ => true
  initialState := ⟨0, nullHash, false, nodes⟩
  loadMasterNodeList := fun _ =>
    ⟨⟨0, nullHash, false, nodes⟩, empty, empty, empty⟩
  updateFromBlock := fun _ _ _ => (nodes, true)
  stripNodes := id
  verifyBlock := fun _ _ _ _ _ => true
  bnsEntries := fun _ _ => some []
  quorumCopBlockAdd := fun _ _ => true
  securitySignatureOk := fun _ _ => true
  getDifficultyForAlternativeChain := fun _ _ _ => 1

def plainEnvironment : Environment Unit Unit Unit PlainBlob :=
  passingEnvironment () ()

def plainBlock (nonce : UInt32) (height : UInt64) (parent : UInt32) : Block Unit :=
  { emptyBlock Unit with
    majorVersion := .hf17POS
    minorVersion := 17
    prevId := ⟨BitVec.ofNat 256 parent.toNat⟩
    nonce := nonce
    minerTx := { Transaction.setNull Unit with vin := [.gen height] } }

def plainState (block : Block Unit) : MasterNodeState Unit :=
  ⟨(getBlockHeight block).toNat, plainEnvironment.getBlockHash block, false, ()⟩

def plainNode (blocks : List (Block Unit)) (db : CheckpointDb) : Node Unit Unit Unit PlainBlob where
  main := blocks.zipIdx.map fun entry => ⟨entry.1, ⟨0, 0, UInt64.ofNat entry.2, 0⟩⟩
  checkpoints := ⟨db, 0, 0⟩
  tokens := TokenDb.empty
  masterNodes :=
    { state := (blocks.getLast?.map plainState).getD plainEnvironment.initialState
      stateHistory := blocks.dropLast.foldl (fun history block =>
        history.set (plainState block).height (plainState block)) empty
      stateArchive := empty
      altState := empty }
  names := ⟨[], blocks.length - 1⟩
  pool := ∅
  altBlocks := empty
  invalidBlocks := []
  strayTxs := []

end Beldex.Chain
