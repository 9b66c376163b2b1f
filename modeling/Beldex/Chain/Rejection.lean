import Beldex.Chain.MainChain

/-!
# Rejected blocks

A block that is turned down is undone by hand before it was written, and by the
deferred pop and the detach hooks afterwards.  The second way takes stored
checkpoints away that the block had nothing to do with, and where the writing itself
fails nothing is undone but the pool.
-/

namespace Beldex.Chain

open Basic Crypto Foundation Foundation.Fallible Token Voting Table List

variable {P S N Blob : Type}

/-! ## Nodes whose parts agree -/

/-- The list is at the top block and keeps the states before it. -/
structure UpToDate (main : List (ChainBlock P)) (list : MasterNodeList S) : Prop where
  height : list.state.height + 1 = main.length
  complete : list.state.onlyLoadedQuorums = false
  history : forall h, list.state.height <= h -> list.stateHistory.find? h = none

/-- The chain has not reached the first block that the list looks at. -/
structure NotStarted (env : Environment P S N Blob) (main : List (ChainBlock P))
    (list : MasterNodeList S) : Prop where
  height : main.length <= list.state.height
  version : env.networkVersion main.length < Hf.hf9MasterNodes
  state : list.state = env.initialState
  history : list.stateHistory = empty
  archive : list.stateArchive = empty

/-- The database, the token tables, the master node list and the name system are all
at the top block of the chain. -/
structure Agree (env : Environment P S N Blob) (node : Node P S N Blob) : Prop where
  genesis : node.main ≠ []
  undo : forall height, node.main.length <= height -> node.tokens.tokenUndo height = none
  names : forall row, row ∈ node.names.mappings -> row.updateHeight < node.main.length
  list : UpToDate node.main node.masterNodes ∨ NotStarted env node.main node.masterNodes

structure NoTrace (node node' : Node P S N Blob) : Prop where
  main : node'.main = node.main
  altBlocks : node'.altBlocks = node.altBlocks
  checkpoints : forall height, node'.checkpoints.db.find? height = node.checkpoints.db.find? height
  tokens : node'.tokens = node.tokens
  list : node'.masterNodes.state = node.masterNodes.state
  names : node'.names.mappings = node.names.mappings
  pool : node'.pool = node.pool
  strayTxs : node'.strayTxs = node.strayTxs

/-! ## The parts one by one -/

section

variable {env : Environment P S N Blob}

theorem insertNew_find?_self {κ υ : Type} [DecidableEq κ] {t : Table κ υ} {k : κ} (v : υ)
    (h : t.find? k = none) : (insertNew t k v).find? k = some v := by
  unfold insertNew
  rw [h]
  exact t.find?_set_self k v

theorem insertNew_find?_of_ne {κ υ : Type} [DecidableEq κ] (t : Table κ υ) {k k' : κ} (v : υ)
    (h : k' ≠ k) : (insertNew t k v).find? k' = t.find? k' := by
  unfold insertNew
  split
  · rfl
  · exact t.find?_set_of_ne v h

variable {list : MasterNodeList S} {main : List (ChainBlock P)}

theorem processBlock_find?_history (h : UpToDate main list) (block : Block P) :
    (list.processBlock env block).1.stateHistory.find? list.state.height = some list.state := by
  refine insertNew_find?_self _ ?_
  change (list.stateHistory.restrict _).find? _ = none
  rw [find?_restrict, h.history _ (le_refl _)]
  exact ite_self none

theorem processBlock_state_height (list : MasterNodeList S) (block : Block P) :
    (list.processBlock env block).1.state.height = list.state.height + 1 :=
  rfl

theorem UpToDate.detached (h : UpToDate main list) (written : List (ChainBlock P)) (block : Block P)
    (checkpoint : Option Checkpoint) :
    ((list.blockAdd env written block checkpoint).1.blockchainDetached env main
      main.length).state = list.state := by
  have hht := h.height
  unfold MasterNodeList.blockAdd
  split
  · unfold MasterNodeList.blockchainDetached
    rw [if_pos (show list.state.height < main.length by omega)]
  · unfold MasterNodeList.blockchainDetached
    rw [if_neg (by rw [processBlock_state_height]; omega)]
    have hrevert : main.length - 1 = list.state.height := by
      omega
    simp only [hrevert, processBlock_find?_history h, Option.filter_some, h.complete,
      Bool.not_false, if_true]

theorem NotStarted.detached (hgen : main ≠ []) (h : NotStarted env main list)
    (written : List (ChainBlock P)) (block : Block P) (checkpoint : Option Checkpoint) :
    ((list.blockAdd env written block checkpoint).1.blockchainDetached env main
      main.length).state = list.state := by
  have hht := h.height
  have hpos : 0 < main.length := length_pos_iff.mpr hgen
  have hinit : (initMasterNodeList env main).state = list.state := by
    unfold initMasterNodeList
    rw [if_pos h.version, h.state]
    rfl
  -- neither way leaves a state below the top block in the history or in the archive
  unfold MasterNodeList.blockAdd
  split
  · unfold MasterNodeList.blockchainDetached
    rw [if_neg (show ¬ list.state.height < main.length by omega)]
    simp only [h.history, h.archive, find?_empty, Option.filter_none, hinit]
  · unfold MasterNodeList.blockchainDetached
    rw [if_neg (by rw [processBlock_state_height]; omega)]
    have hhist : (list.processBlock env block).1.stateHistory.find? (main.length - 1) =
        none := by
      change (insertNew (list.stateHistory.restrict _) _ _).find? _ = none
      rw [insertNew_find?_of_ne _ _ (by omega), h.history]
      rfl
    have harchive : (list.processBlock env block).1.stateArchive = empty := by
      change foldl _ list.stateArchive (list.stateHistory.entries.filter _) = _
      rw [h.history, h.archive]
      rfl
    simp only [hhist, harchive, find?_empty, Option.filter_none, hinit]

variable {node : Node P S N Blob}

theorem Agree.names_detached (h : Agree env node) {block : Block P}
    (hblock : (getBlockHeight block).toNat = node.main.length) {names : BnsDb N}
    (hnames : names = node.names ∨ node.names.addBlock env block = some names) :
    (names.blockDetach node.main.length).mappings = node.names.mappings := by
  have hkept : node.names.mappings.filter
      (fun row => decide (row.updateHeight < node.main.length)) = node.names.mappings := by
    rw [filter_eq_self]
    intro row hrow
    exact decide_eq_true (h.names row hrow)
  rcases hnames with rfl | hadd
  · exact hkept
  · unfold BnsDb.addBlock at hadd
    simp only [hblock] at hadd
    split at hadd
    · cases hadd
      exact hkept
    · rcases Option.map_eq_some_iff.mp hadd with ⟨entries, _, rfl⟩
      unfold BnsDb.blockDetach
      simp only [filter_append, hkept, filter_map]
      rw [filter_eq_nil_iff.mpr (by simp), map_nil, append_nil]

theorem Agree.popBlockTokens_eq (h : Agree env node) :
    popBlockTokens env.codec env.networkVersion node.tokens node.main.length = .ok node.tokens := by
  unfold popBlockTokens rewindTokensForHeight
  rw [h.undo _ (le_refl _)]
  exact ite_self _

end

/-! ## Rejected blocks -/

section

variable [DecidableEq P] {env : Environment P S N Blob}
  {node node' : Node P S N Blob} {block : Block P} {checkpoint : Option Checkpoint} {exit : Exit}

/-- The state before a block for which all that was done up to an exit is undone. -/
def Undoable (env : Environment P S N Blob) (exit : Exit) (node : Node P S N Blob)
    (block : Block P) (checkpoint : Option Checkpoint) : Prop :=
  match exit with
  | .addBlock => env.addBlock node.main block = .error []
  | .masterNodeList | .bns | .quorumCop => node.checkpoints.endsBelow node.main.length
  | .weightLimit | .tokens =>
    node.checkpoints.endsBelow node.main.length ∧ node.checkpoints.addsOnTop block checkpoint
  | _ => True

omit [DecidableEq P] in
theorem getBlockHeight_of_basicBlockChecks (h : basicBlockChecks env node block = true) :
    (getBlockHeight block).toNat = node.main.length := by
  simp only [basicBlockChecks, Bool.and_eq_true, beq_iff_eq] at h
  exact h.1.2

variable {late : Node P S N Blob}

omit [DecidableEq P] in
theorem processWritten_exit (h : processWritten env node block checkpoint = .error (exit, late)) :
    exit = .masterNodeList ∨ exit = .bns ∨ exit = .quorumCop ∨ exit = .weightLimit ∨
      exit = .tokens := by
  rcases bind_error.mp h with hlist | ⟨_, _, h⟩
  · exact Or.inl (addToMasterNodeList_eq_error hlist).1
  rcases bind_error.mp h with hnames | ⟨_, _, h⟩
  · exact Or.inr (Or.inl (addToNames_eq_error hnames).1)
  rcases bind_error.mp h with hhooks | ⟨_, _, h⟩
  · exact Or.inr (Or.inr (Or.inl (runBlockAddHooks_eq_error hhooks).1))
  rcases rejectIf_bind_error.mp h with ⟨_, hwt⟩ | ⟨_, htoks⟩
  · cases hwt
    exact Or.inr (Or.inr (Or.inr (Or.inl rfl)))
  · exact Or.inr (Or.inr (Or.inr (Or.inr (persistTokens_eq_error htoks).1)))

omit [DecidableEq P] in
theorem Undoable.checkpoints (hundo : Undoable env exit node block checkpoint)
    (hblock : (getBlockHeight block).toNat = node.main.length)
    (h : processWritten env node' block checkpoint = .error (exit, late)) (height : UInt64) :
    ((exit.checkpointsAt node.checkpoints block checkpoint).blockchainDetached
      node.main.length).db.find? height = node.checkpoints.db.find? height := by
  rcases processWritten_exit h with rfl | rfl | rfl | rfl | rfl
  · exact (find?_blockchainDetached_eq_iff _ _).mpr hundo height
  · exact (find?_blockchainDetached_eq_iff _ _).mpr hundo height
  · exact (find?_blockchainDetached_eq_iff _ _).mpr hundo height
  · rcases hundo with ⟨hends, hadds⟩
    rw [<- hblock] at hends ⊢
    exact find?_blockAdd_blockchainDetached hends hadds height
  · rcases hundo with ⟨hends, hadds⟩
    rw [<- hblock] at hends ⊢
    exact find?_blockAdd_blockchainDetached hends hadds height

variable {taking : Taking}

omit [DecidableEq P] in
theorem rejectTaken_noTrace (hpool : forall pool txId, env.addTx pool txId = true)
    (hsplits : taking.Splits node.pool)
    (h : rejectTaken env node block exit taking = .rejected exit node') : NoTrace node node' := by
  have hret : returnTxToPool env taking.pool taking.taken = node.pool := by
    rw [returnTxToPool_eq_union hpool]
    exact hsplits
  unfold rejectTaken at h
  split at h
  · cases h
    exact ⟨rfl, rfl, fun _ => rfl, rfl, rfl, rfl, hret, rfl⟩
  · cases h
    exact ⟨rfl, rfl, fun _ => rfl, rfl, rfl, rfl, hret, rfl⟩

omit [DecidableEq P] in
/-- A block that is turned down after it was written leaves no trace if the detach does not
reach a stored checkpoint. -/
theorem abortBlock_noTrace (hpool : forall pool txId, env.addTx pool txId = true)
    (hagree : Agree env node) (hundo : Undoable env exit node block checkpoint)
    (hblock : (getBlockHeight block).toNat = node.main.length)
    (hsplits : taking.Splits node.pool) (htaken : taking.taken = block.txHashes)
    (hproc : processWritten env (node.write env block taking.pool) block checkpoint =
      .error (exit, late)) (h : abortBlock env exit late = .rejected exit node') :
    NoTrace node node' := by
  rcases processWritten_eq_error hproc with ⟨names, hnames, rfl⟩
  rcases (abortBlock_eq_rejected h).2 with ⟨popped, top, hpop, rfl⟩
  rcases popBlockFromBlockchain_eq_some hpop with
    ⟨entry, tokens, hmain, htop, _, htoks, hpopped⟩
  -- what was popped is the block that was written
  rcases append_inj' hmain rfl with ⟨hbelow, hent⟩
  cases hent
  cases htop
  rw [<- hbelow] at htoks hpopped
  cases hagree.popBlockTokens_eq.symm.trans htoks
  rw [hpopped]
  refine ⟨rfl, rfl, hundo.checkpoints hblock hproc, rfl, ?_, ?_, ?_, rfl⟩
  · rcases hagree.list with hlist | hlist
    · exact hlist.detached _ block checkpoint
    · exact hlist.detached hagree.genesis _ block checkpoint
  · exact hagree.names_detached hblock hnames
  · rw [returnTxToPool_eq_union hpool, <- htaken]
    exact hsplits

end

/-! ## A block that takes a checkpoint with it -/

def strictNames : Environment Unit Unit Unit PlainBlob :=
  { plainEnvironment with bnsEntries := fun _ _ => none }

def twoBlocks (db : CheckpointDb) : Node Unit Unit Unit PlainBlob :=
  plainNode [plainBlock 1 0 0, plainBlock 2 1 1] db

def laterCheckpoint : CheckpointDb :=
  empty.set 8 ⟨.hardcoded, 8, ⟨9⟩, []⟩

theorem twoBlocks_agree (env : Environment Unit Unit Unit PlainBlob) (db : CheckpointDb)
    (pool : Finset Hash) : Agree env { twoBlocks db with pool := pool } where
  genesis := cons_ne_nil _ _
  undo := fun _ _ => rfl
  names := fun _ h => by cases h
  list := Or.inl ⟨rfl, rfl, fun h hle => find?_set_of_ne _ _ (Nat.ne_of_gt hle)⟩

/-- The weight limit of the next block cannot be updated. -/
def strictWeight : Environment Unit Unit Unit PlainBlob :=
  { plainEnvironment with updateNextCumulativeWeightLimit := fun main => main.length < 3 }

/-- The genesis block has a checkpoint, and two transactions wait. -/
def earlierCheckpoint : Node Unit Unit Unit PlainBlob :=
  { twoBlocks (empty.set 0 ⟨.hardcoded, 0, ⟨1⟩, []⟩) with pool := {⟨5⟩, ⟨6⟩} }

def takingBlock : Block Unit :=
  { plainBlock 3 2 2 with txHashes := [⟨5⟩] }

theorem earlierCheckpoint_undoable :
    Undoable strictWeight .weightLimit earlierCheckpoint takingBlock none := by
  refine ⟨?_, Or.inl (by decide)⟩
  intro h checkpoint hfind
  rcases find?_set_cases hfind with ⟨rfl, _⟩ | ⟨_, hfind⟩
  · exact Or.inl (by decide)
  · cases hfind

/-- Database rows of the coinbase are left behind. -/
def knownKeyImage : Environment Unit Unit Unit PlainBlob :=
  { plainEnvironment with addBlock := fun _ _ => .error [nullHash] }

end Beldex.Chain
