import Beldex.Chain.Switch

/-!
# Alternative blocks

A block that does not continue the main chain is checked, stored, checked again
and then weighed: when the chain it is on is preferred to the main chain, the
node switches.
-/

namespace Beldex.Chain

open Basic Crypto Foundation Foundation.Fallible Voting

variable {P S N Blob : Type} (env : Environment P S N Blob)

/-! ## The stored chain below a block -/

/-- The stored alternative blocks from a block down, the lowest first. -/
def storedChain (store : AltStore P) : Nat -> Hash -> List (AltBlock P) -> List (AltBlock P)
  | 0, _, above => above
  | fuel + 1, hash, above =>
    match store.find? hash with
    | none => above
    | some stored => storedChain store fuel stored.block.prevId (stored :: above)

variable (db : CheckpointDb)

/-- A stored block with its checkpoint: the one that came with it, or else the stored one
of its height if that is of this block. -/
def AltBlock.extendedInfo (stored : AltBlock P) : BlockExtendedInfo P where
  block := stored.block
  height := stored.height
  cumulativeDifficulty := stored.cumulativeDifficulty
  checkpoint :=
    match stored.checkpoint with
    | some checkpoint => some checkpoint
    | none =>
      (db.find? stored.height).filter fun checkpoint =>
        checkpoint.blockHash == env.getBlockHash stored.block

def conflictsWithCheckpoint (bei : BlockExtendedInfo P) : Bool :=
  heightIsCheckpointed db bei.height && !checkBlock db bei.height (env.getBlockHash bei.block)

variable (node : Node P S N Blob)

def altChainBelow (prevId : Hash) : List (BlockExtendedInfo P) :=
  (storedChain node.altBlocks node.altBlocks.entries.length prevId []).map
    (AltBlock.extendedInfo env node.checkpoints.db)

/-- Whether the chain starts on the main chain, above what is immutable. -/
def connectsToMain (front : BlockExtendedInfo P) : Bool × Node P S N Blob :=
  if node.main.length < front.height.toNat || !env.blockExists node.main front.block.prevId ||
        env.hashAt node.main (front.height.toNat - 1) != some front.block.prevId then
    (false, node)
  else
    let allowed :=
      node.checkpoints.isAlternativeBlockAllowed node.main.length front.height.toNat
    (allowed.1, { node with checkpoints := allowed.2 })

/-- Build the alternative chain below a block.  A chain that does not connect is
deleted, and looking up the block below its first one throws past the main chain. -/
def buildAltChain (prevId : Hash) :
    Except (AltExit × Node P S N Blob) (List (BlockExtendedInfo P) × Node P S N Blob) :=
  match altChainBelow env node prevId with
  | [] =>
    if env.blockExists node.main prevId then .ok ([], node)
    else .error (.parentNotInMain, node)
  | front :: rest =>
    if front.height = 0 ∨ (env.hashAt node.main (front.height.toNat - 1)).isNone then
      .error (.altChainThrew, node)
    else
      match connectsToMain env node front with
      | (true, node) => .ok (front :: rest, node)
      | (false, node) =>
        match removeAltBlocks env node (front :: rest) with
        | (node, true) => .error (.altChainDropped, node)
        | (node, false) => .error (.altChainThrew, node)

/-! ## The checks before a block is stored -/

variable (block : Block P)

def altBasicBlockChecks : Bool × Node P S N Blob :=
  let height := (getBlockHeight block).toNat
  if height = 0 then
    (false, node)
  else
    let allowed := node.checkpoints.isAlternativeBlockAllowed node.main.length height
    (allowed.1 && validVersion (env.networkVersion height) block &&
      env.prevalidateMinerTransaction block (env.networkVersion node.main.length),
      { node with checkpoints := allowed.2 })

def blocksBelow (altChain : List (BlockExtendedInfo P)) (block : Block P) : List (Block P) :=
  let blocks := node.main.map ChainBlock.block
  match altChain with
  | [] => blocks.take (blocks.findIdx (fun below =>
    env.getBlockHash below == block.prevId) + 1)
  | front :: _ => blocks.take front.height.toNat ++ altChain.map BlockExtendedInfo.block

def cumulativeDifficultyAt (altChain : List (BlockExtendedInfo P)) (block : Block P) : UInt64 :=
  let below :=
    match altChain.getLast? with
    | some parent => parent.cumulativeDifficulty
    | none =>
      ((node.main.find? fun entry => env.getBlockHash entry.block == block.prevId).map
        fun entry => entry.info.cumulativeDifficulty).getD 0
  env.getDifficultyForAlternativeChain node.main (altChain.map BlockExtendedInfo.block) block +
    below

def examine :
    Except (AltExit × Node P S N Blob) (List (BlockExtendedInfo P) × Node P S N Blob) := do
  rejectIf ((node.altBlocks.find? block.prevId).isNone &&
    !env.blockExists node.main block.prevId) (.orphaned, node)
  let basic := altBasicBlockChecks env node block
  rejectIf (!basic.1) (.basicBlockChecks, basic.2)
  let (altChain, node) <- buildAltChain env basic.2 block.prevId
  rejectIf (!env.checkBlockTimestamp (blocksBelow env node altChain block) block)
    (.timestamp, node)
  rejectIf (!blockHasPosComponents block &&
    !env.verifyBlockPow (blocksBelow env node altChain block) block) (.proofOfWork, node)
  rejectIf (node.altBlocks.find? (env.getBlockHash block)).isSome (.alreadyStored, node)
  -- the coins generated below the block are read at the height of its coinbase
  rejectIf (altChain.isEmpty &&
    decide (node.main.length < (getBlockHeight block).toNat)) (.coinsThrew, node)
  .ok (altChain, node)

/-! ## Storing a block and the checks after that -/

def storeAltBlock (bei : BlockExtendedInfo P) : Node P S N Blob :=
  { node with
    altBlocks := node.altBlocks.set (env.getBlockHash bei.block)
      ⟨bei.height, bei.cumulativeDifficulty, bei.block, bei.checkpoint⟩ }

/-- A block is measured against a hardcoded checkpoint, unless it brings its own. -/
def failsHardcodedCheckpoint (bei : BlockExtendedInfo P) : Bool :=
  bei.checkpoint.isNone && !checkBlock db bei.height (env.getBlockHash bei.block) &&
    !isMasterNodeCheckpoint db bei.height

def knowsTransactions : Bool :=
  block.txHashes.all fun txId => node.txExists env txId || decide (txId ∈ node.pool)

def examineStored (bei : BlockExtendedInfo P) :
    Except (AltExit × Node P S N Blob) (Node P S N Blob) := do
  rejectIf (failsHardcodedCheckpoint env node.checkpoints.db bei) (.hardcodedCheckpoint, node)
  rejectIf (!knowsTransactions env node bei.block) (.missingTx, node)
  let hooked := node.masterNodes.altBlockAdd env node.main bei.block bei.checkpoint
  rejectIf (!hooked.2) (.altBlockHook, { node with masterNodes := hooked.1 })
  .ok { node with masterNodes := hooked.1 }

structure Contest (P S N Blob : Type) where
  node : Node P S N Blob
  altChain : List (BlockExtendedInfo P)
  numCheckpointsOnAltChain : Nat
  numCheckpointsOnChain : Nat

/-- Check a block, store it, check it again, and count the checkpoints for and against
the chain it is on. -/
def evaluate (checkpoint : Option Checkpoint) :
    Except (AltExit × Node P S N Blob) (Contest P S N Blob) := do
  let (below, node) <- examine env node block
  let bei : BlockExtendedInfo P :=
    { block := block
      height := getBlockHeight block
      cumulativeDifficulty := cumulativeDifficultyAt env node below block
      checkpoint := checkpoint }
  let node <- examineStored env (storeAltBlock env node bei) bei
  .ok
    { node := node
      altChain := below ++ [bei]
      numCheckpointsOnAltChain :=
        below.countP (fun bei => bei.checkpoint.isSome) + (if checkpoint.isSome then 1 else 0)
      numCheckpointsOnChain :=
        (below ++ [bei]).countP (conflictsWithCheckpoint env node.checkpoints.db) }

/-! ## Weighing two chains -/

def posBaseWeight : UInt64 := 144403552893600

def minWeightIncrement : UInt64 := 1

def blockWeight : UInt64 :=
  minWeightIncrement + if blockHasPosComponents block then
      posBaseWeight / (1 + UInt64.ofNat block.pos.round.toNat)
    else
      0

def chainWeight (blocks : List (Block P)) : UInt64 :=
  blocks.foldl (fun weight block => weight + blockWeight block) 0

def getBlocksOnly (main : List (ChainBlock P)) (start : Nat) : Option (List (Block P)) :=
  if main.length <= start then none
  else some ((main.drop start).map ChainBlock.block)

/-- Whether the alternative chain wins, and whether the old chain is kept then.  There is
no answer when the main chain has no block beside the alternative chain. -/
def altChainWins (contest : Contest P S N Blob) (block : Block P) : Option (Bool × Bool) :=
  let more := contest.numCheckpointsOnChain < contest.numCheckpointsOnAltChain
  let equal := contest.numCheckpointsOnAltChain = contest.numCheckpointsOnChain
  let greaterPow :=
    (contest.node.main.getLast?.map fun entry => entry.info.cumulativeDifficulty).getD 0 <
      (contest.altChain.getLast?.map BlockExtendedInfo.cumulativeDifficulty).getD 0
  if Hf.hf17POS <= block.majorVersion then
    if more then
      some (true, false)
    else if equal then
      (getBlocksOnly contest.node.main
        ((contest.altChain.head?.map fun front => front.height.toNat).getD 0)).map
          fun blocks =>
            (decide (chainWeight blocks <
              chainWeight (contest.altChain.map BlockExtendedInfo.block)), false)
    else
      some (false, false)
  else if Hf.hf15Flash <= block.majorVersion then
    some (decide (more ∨ greaterPow ∧ equal), decide ¬ more)
  else
    some (decide greaterPow, true)

/-! ## Handling a block -/

/-- What the code answers; nothing when it throws. -/
def AltExit.returned : AltExit -> Option Bool
  | .orphaned => some true
  | .addedAsAlternative => some true
  | .switched => some true
  | .altChainThrew => none
  | .coinsThrew => none
  | .switchThrew => none
  | .terminated => none
  | _ => some false

def switchExit : SwitchOutcome -> AltExit
  | .switched => .switched
  | .refused => .switchFailed
  | .failed => .switchFailed
  | .threw => .switchThrew
  | .terminated => .terminated

/-- Handle an alternative block.  Blocks of the old chain that are kept come back here,
and a call that nests deeper than the stack allows is terminated. -/
def handleAlternativeBlock [DecidableEq P] : Nat -> Node P S N Blob -> Block P ->
    Option Checkpoint -> AltResult P S N Blob
  | 0, node, _, _ => ⟨node, .terminated, []⟩
  | depth + 1, node, block, checkpoint =>
    match evaluate env node block checkpoint with
    | .error (exit, node) => ⟨node, exit, []⟩
    | .ok contest =>
      match altChainWins contest block with
      | none => ⟨contest.node, .blocksQuery, []⟩
      | some (false, _) => ⟨contest.node, .addedAsAlternative, []⟩
      | some (true, keep) =>
        let result := switchToAlternativeBlockchain env
          (handleAlternativeBlock depth) contest.node contest.altChain keep
        ⟨result.node, switchExit result.outcome, result.pushed⟩

/-! ## Handing a block in -/

def haveBlock (hash : Hash) : Bool :=
  env.blockExists node.main hash || (node.altBlocks.find? hash).isSome ||
    node.invalidBlocks.contains hash

/-- A checkpoint with fewer signatures than the stored one of the height is ignored. -/
def usableCheckpoint (checkpoint : Option Checkpoint) : Option Checkpoint :=
  checkpoint.filter fun checkpoint =>
    match db.find? (getBlockHeight block) with
    | some stored => stored.signatures.length <= checkpoint.signatures.length
    | none => true

inductive AddResult (P S N Blob : Type) where
  | alreadyExists (node : Node P S N Blob)
  | badSignature (node : Node P S N Blob)
  | onMain (result : MainResult P S N Blob)
  | onAlternative (result : AltResult P S N Blob)

def addNewBlock [DecidableEq P] (depth : Nat) (node : Node P S N Blob) (block : Block P)
    (checkpoint : Option Checkpoint) : AddResult P S N Blob :=
  if haveBlock env node (env.getBlockHash block) then
    .alreadyExists node
  else if decide (Hf.hf12SecuritySignature <= env.networkVersion node.main.length) &&
      !blockHasPosComponents block && !env.securitySignatureOk node.main block then
    .badSignature node
  else
    let checkpoint := usableCheckpoint node.checkpoints.db block checkpoint
    if env.tailId node.main = some block.prevId then
      .onMain (handleBlockToMainChain env node block checkpoint)
    else
      .onAlternative (handleAlternativeBlock env depth node block checkpoint)

def AddResult.node? : AddResult P S N Blob -> Option (Node P S N Blob)
  | .alreadyExists node => some node
  | .badSignature node => some node
  | .onMain (.added node) => some node
  | .onMain (.rejected _ node) => some node
  | .onMain .terminated => none
  | .onAlternative result => if result.exit = .terminated then none else some result.node

/-! ## The checks read backwards -/

section

variable {env} {node node' : Node P S N Blob} {block : Block P}
  {altChain : List (BlockExtendedInfo P)}

/-- The checkpoints of a node move no further by asking about alternative blocks. -/
def Settled (node : Node P S N Blob) : Prop :=
  forall height, (node.checkpoints.isAlternativeBlockAllowed node.main.length height).2 =
    node.checkpoints

theorem altBasicBlockChecks_node (env : Environment P S N Blob) (node : Node P S N Blob)
    (block : Block P) :
    exists checkpoints, (altBasicBlockChecks env node block).2 =
        { node with checkpoints := checkpoints } ∧ checkpoints.db = node.checkpoints.db := by
  unfold altBasicBlockChecks
  dsimp only
  split
  · exact ⟨node.checkpoints, rfl, rfl⟩
  · exact ⟨_, rfl, isAlternativeBlockAllowed_db _ _ _⟩

theorem altBasicBlockChecks_again (node : Node P S N Blob) (block : Block P) :
    altBasicBlockChecks env (altBasicBlockChecks env node block).2 block =
      altBasicBlockChecks env node block := by
  by_cases hht : (getBlockHeight block).toNat = 0
  · simp only [altBasicBlockChecks, if_pos hht]
  · simp only [altBasicBlockChecks, if_neg hht, isAlternativeBlockAllowed_again _ _ hht]

theorem altBasicBlockChecks_eq_true (h : (altBasicBlockChecks env node block).1 = true) :
    (getBlockHeight block).toNat ≠ 0 ∧ (node.checkpoints.isAlternativeBlockAllowed node.main.length
        (getBlockHeight block).toNat).1 = true ∧
      Settled (altBasicBlockChecks env node block).2 := by
  unfold altBasicBlockChecks at h ⊢
  dsimp only at h ⊢
  split at h
  · cases h
  next hht =>
    simp only [Bool.and_eq_true] at h
    rw [if_neg hht]
    refine ⟨hht, h.1.1, ?_⟩
    intro height
    show ((node.checkpoints.isAlternativeBlockAllowed _ _).2.isAlternativeBlockAllowed _ _).2 = _
    rw [isAlternativeBlockAllowed_again _ _ hht]

structure Anchored (env : Environment P S N Blob) (node : Node P S N Blob)
    (front : BlockExtendedInfo P) : Prop where
  height : front.height ≠ 0
  parent : env.hashAt node.main (front.height.toNat - 1) = some front.block.prevId
  allowed : (node.checkpoints.isAlternativeBlockAllowed node.main.length
    front.height.toNat).1 = true

theorem buildAltChain_eq_ok {prevId : Hash} (hsettled : Settled node)
    (h : buildAltChain env node prevId = .ok (altChain, node')) :
    node' = node ∧ altChain = altChainBelow env node prevId ∧
      (altChain = [] -> env.blockExists node.main prevId = true) ∧
      forall front, altChain.head? = some front -> Anchored env node front := by
  unfold buildAltChain at h
  split at h
  next hchain =>
    split at h
    next hpar =>
      cases h
      refine ⟨rfl, hchain.symm, fun _ => hpar, ?_⟩
      intro front hfront
      cases hfront
    · cases h
  next first rest hchain =>
    split at h
    · cases h
    next hthrows =>
      split at h
      next connected hconn =>
        cases h
        have hnode : (connectsToMain env node first).2 = node := by
          unfold connectsToMain
          split
          · rfl
          · dsimp only
            rw [hsettled]
        have htrue : (connectsToMain env node first).1 = true := by
          rw [hconn]
        rw [hconn] at hnode
        refine ⟨hnode, hchain.symm, (fun hnil => absurd hnil (List.cons_ne_nil _ _)), ?_⟩
        intro front hfront
        cases hfront
        unfold connectsToMain at htrue
        split at htrue
        · cases htrue
        next hconn =>
          simp only [Bool.or_eq_true, not_or, bne_iff_ne, ne_eq, not_not] at hconn
          exact ⟨fun hzero => hthrows (Or.inl hzero), hconn.2, htrue⟩
      · split at h
        · cases h
        · cases h

theorem connectsToMain_of_anchored {front : BlockExtendedInfo P} (h : Anchored env node front) :
    (connectsToMain env node front).1 = true := by
  rcases Option.map_eq_some_iff.mp h.parent with ⟨entry, hent, hhash⟩
  have hlt := (List.getElem?_eq_some_iff.mp hent).1
  have hexists : env.blockExists node.main front.block.prevId = true :=
    List.any_eq_true.mpr ⟨entry, List.mem_of_getElem? hent, beq_iff_eq.mpr hhash⟩
  have hnot : (decide (node.main.length < front.height.toNat) ||
      !env.blockExists node.main front.block.prevId ||
        env.hashAt node.main (front.height.toNat - 1) != some front.block.prevId) = false := by
    rw [h.parent, hexists, decide_eq_false (by omega)]
    simp
  unfold connectsToMain
  rw [hnot]
  exact h.allowed

variable {exit : AltExit}

theorem buildAltChain_eq_error {prevId : Hash}
    (h : buildAltChain env node prevId = .error (exit, node')) :
    exit = .parentNotInMain ∧ node' = node ∨ exit = .altChainThrew ∨
      exit = .altChainDropped ∧ exists front, (altChainBelow env node prevId).head? = some front ∧
        ¬ Anchored env node front := by
  unfold buildAltChain at h
  split at h
  · split at h
    · cases h
    · cases h
      exact Or.inl ⟨rfl, rfl⟩
  next front rest hchain =>
    split at h
    · cases h
      exact Or.inr (Or.inl rfl)
    · split at h
      · cases h
      next connected hconn =>
        split at h
        · cases h
          refine Or.inr (Or.inr ⟨rfl, front, by rw [hchain]; rfl, fun hanchored => ?_⟩)
          have htrue := connectsToMain_of_anchored hanchored
          rw [hconn] at htrue
          cases htrue
        · cases h
          exact Or.inr (Or.inl rfl)

structure Examined (env : Environment P S N Blob) (node : Node P S N Blob) (block : Block P)
    (altChain : List (BlockExtendedInfo P)) (node' : Node P S N Blob) : Prop where
  node_eq : node' = (altBasicBlockChecks env node block).2
  basic : (altBasicBlockChecks env node block).1 = true
  chain : altChain = altChainBelow env node block.prevId
  parent : altChain = [] -> env.blockExists node.main block.prevId = true
  anchored : forall front, altChain.head? = some front -> Anchored env node' front
  timestamp : env.checkBlockTimestamp (blocksBelow env node' altChain block) block = true
  proofOfWork : blockHasPosComponents block = false ->
    env.verifyBlockPow (blocksBelow env node' altChain block) block = true
  fresh : node.altBlocks.find? (env.getBlockHash block) = none

theorem altChainBelow_altBasicBlockChecks (node : Node P S N Blob) (block : Block P)
    (prevId : Hash) :
    altChainBelow env (altBasicBlockChecks env node block).2 prevId =
      altChainBelow env node prevId := by
  rcases altBasicBlockChecks_node env node block with ⟨checkpoints, hbase, hdb⟩
  simp only [altChainBelow, hbase, hdb]

theorem examine_eq_ok (h : examine env node block = .ok (altChain, node')) :
    Examined env node block altChain node' := by
  rcases rejectIf_bind_ok.mp h with ⟨_, h⟩
  rcases rejectIf_bind_ok.mp h with ⟨hbasic, h⟩
  rcases bind_ok.mp h with ⟨⟨built, node1⟩, hbuild, h⟩
  rcases rejectIf_bind_ok.mp h with ⟨htime, h⟩
  rcases rejectIf_bind_ok.mp h with ⟨hpow, h⟩
  rcases rejectIf_bind_ok.mp h with ⟨hfresh, h⟩
  rcases rejectIf_bind_ok.mp h with ⟨_, h⟩
  cases h
  rw [Bool.not_eq_false'] at hbasic
  rcases buildAltChain_eq_ok (altBasicBlockChecks_eq_true hbasic).2.2 hbuild with
    ⟨hnode, hchain, hpar, hanchored⟩
  rcases altBasicBlockChecks_node env node block with ⟨checkpoints, hbase, _⟩
  rw [hbase] at hpar
  rw [hnode, hbase] at hfresh
  exact
    { node_eq := hnode
      basic := hbasic
      chain := hchain.trans (altChainBelow_altBasicBlockChecks node block block.prevId)
      parent := hpar
      anchored := hnode ▸ hanchored
      timestamp := by simpa using htime
      proofOfWork := by
        intro hpos
        simpa [hpos] using hpow
      fresh := Option.isNone_iff_eq_none.mp (Option.isSome_eq_false_iff.mp hfresh) }

theorem examine_eq_error (h : examine env node block = .error (exit, node')) :
    exit = .orphaned ∧ node' = node ∨
      exit.returned ≠ some true ∧ node' = (altBasicBlockChecks env node block).2 ∨
      buildAltChain env (altBasicBlockChecks env node block).2 block.prevId =
        .error (exit, node') := by
  rcases rejectIf_bind_error.mp h with ⟨_, hexit⟩ | ⟨_, h⟩
  · cases hexit
    exact Or.inl ⟨rfl, rfl⟩
  refine Or.inr ?_
  rcases rejectIf_bind_error.mp h with ⟨_, hexit⟩ | ⟨hbasic, h⟩
  · cases hexit
    exact Or.inl ⟨by decide, rfl⟩
  rw [Bool.not_eq_false'] at hbasic
  rcases bind_error.mp h with hbuild | ⟨⟨built, node1⟩, hbuild, h⟩
  · exact Or.inr hbuild
  refine Or.inl ?_
  -- the chain below the block was built, and the node is as the basic checks left it
  have hnode := (buildAltChain_eq_ok (altBasicBlockChecks_eq_true hbasic).2.2 hbuild).1
  subst hnode
  rcases rejectIf_bind_error.mp h with ⟨_, hexit⟩ | ⟨_, h⟩
  · cases hexit
    exact ⟨by decide, rfl⟩
  rcases rejectIf_bind_error.mp h with ⟨_, hexit⟩ | ⟨_, h⟩
  · cases hexit
    exact ⟨by decide, rfl⟩
  rcases rejectIf_bind_error.mp h with ⟨_, hexit⟩ | ⟨_, h⟩
  · cases hexit
    exact ⟨by decide, rfl⟩
  rcases rejectIf_bind_error.mp h with ⟨_, hexit⟩ | ⟨_, h⟩
  · cases hexit
    exact ⟨by decide, rfl⟩
  · cases h

theorem examineStored_eq_ok {bei : BlockExtendedInfo P}
    (h : examineStored env node bei = .ok node') :
    node' = { node with
      masterNodes :=
        (node.masterNodes.altBlockAdd env node.main bei.block bei.checkpoint).1 } := by
  rcases rejectIf_bind_ok.mp h with ⟨_, h⟩
  rcases rejectIf_bind_ok.mp h with ⟨_, h⟩
  rcases rejectIf_bind_ok.mp h with ⟨_, h⟩
  cases h
  rfl

theorem examineStored_eq_error {bei : BlockExtendedInfo P}
    (h : examineStored env node bei = .error (exit, node')) :
    (exit = .hardcodedCheckpoint ∨ exit = .missingTx ∨ exit = .altBlockHook) ∧
      node'.main = node.main := by
  rcases rejectIf_bind_error.mp h with ⟨_, hexit⟩ | ⟨_, h⟩
  · cases hexit
    exact ⟨Or.inl rfl, rfl⟩
  rcases rejectIf_bind_error.mp h with ⟨_, hexit⟩ | ⟨_, h⟩
  · cases hexit
    exact ⟨Or.inr (Or.inl rfl), rfl⟩
  rcases rejectIf_bind_error.mp h with ⟨_, hexit⟩ | ⟨_, h⟩
  · cases hexit
    exact ⟨Or.inr (Or.inr rfl), rfl⟩
  · cases h

theorem evaluate_eq_ok {checkpoint : Option Checkpoint} {contest : Contest P S N Blob}
    (h : evaluate env node block checkpoint = .ok contest) :
    exists below examined bei, examine env node block = .ok (below, examined) ∧
      examineStored env (storeAltBlock env examined bei) bei = .ok contest.node ∧
      bei.block = block ∧ bei.height = getBlockHeight block ∧ bei.checkpoint = checkpoint ∧
      contest.altChain = below ++ [bei] ∧
      contest.numCheckpointsOnAltChain =
        contest.altChain.countP (fun bei => bei.checkpoint.isSome) ∧ contest.numCheckpointsOnChain =
        contest.altChain.countP (conflictsWithCheckpoint env contest.node.checkpoints.db) := by
  rcases bind_ok.mp h with ⟨⟨below, examined⟩, hexamine, h⟩
  rcases bind_ok.mp h with ⟨stored, hstored, h⟩
  cases h
  refine ⟨below, examined, _, hexamine, hstored, rfl, rfl, rfl, rfl, ?_, rfl⟩
  show below.countP (fun bei => bei.checkpoint.isSome) + (if checkpoint.isSome then 1 else 0) =
    (below ++ [_]).countP fun bei : BlockExtendedInfo P => bei.checkpoint.isSome
  rw [List.countP_append, List.countP_singleton]

theorem evaluate_eq_error {checkpoint : Option Checkpoint}
    (h : evaluate env node block checkpoint = .error (exit, node')) :
    examine env node block = .error (exit, node') ∨ exists below examined bei,
        examine env node block = .ok (below, examined) ∧
        examineStored env (storeAltBlock env examined bei) bei = .error (exit, node') ∧
        bei.block = block ∧ bei.height = getBlockHeight block ∧ bei.checkpoint = checkpoint := by
  rcases bind_error.mp h with hexamine | ⟨⟨below, examined⟩, hexamine, h⟩
  · exact Or.inl hexamine
  · rcases bind_error.mp h with hstored | ⟨_, _, h⟩
    · exact Or.inr ⟨below, examined, _, hexamine, hstored, rfl, rfl, rfl⟩
    · cases h

end

/-! ## What the checks take away -/

section

variable {env} {node node' : Node P S N Blob} {block : Block P} {exit : AltExit}

theorem trims_altBasicBlockChecks (node : Node P S N Blob) (block : Block P) :
    Trims node (altBasicBlockChecks env node block).2 := by
  rcases altBasicBlockChecks_node env node block with ⟨checkpoints, hnode, _⟩
  rw [hnode]
  exact ⟨rfl, rfl, Table.KeysIn.refl _⟩

theorem trims_buildAltChain_error {prevId : Hash}
    (h : buildAltChain env node prevId = .error (exit, node')) : Trims node node' := by
  unfold buildAltChain at h
  split at h
  · split at h
    · cases h
    · cases h
      exact Trims.refl _
  next front rest hchain =>
    have hconnect : Trims node (connectsToMain env node front).2 := by
      unfold connectsToMain
      split
      · exact Trims.refl node
      · exact ⟨rfl, rfl, Table.KeysIn.refl _⟩
    split at h
    · cases h
      exact Trims.refl _
    · split at h
      · cases h
      next unconnected heq =>
        rw [heq] at hconnect
        have hremove : Trims unconnected (removeAltBlocks env unconnected (front :: rest)).1 :=
          trims_removeAltBlocks unconnected (front :: rest)
        split at h
        next removed heq' =>
          rw [heq'] at hremove
          cases h
          exact hconnect.trans hremove
        next removed heq' =>
          rw [heq'] at hremove
          cases h
          exact hconnect.trans hremove

theorem trims_examine_error (h : examine env node block = .error (exit, node')) :
    Trims node node' := by
  rcases examine_eq_error h with ⟨_, rfl⟩ | ⟨_, rfl⟩ | hbuild
  · exact Trims.refl _
  · exact trims_altBasicBlockChecks _ _
  · exact (trims_altBasicBlockChecks _ _).trans (trims_buildAltChain_error hbuild)

theorem trims_examine_ok {altChain : List (BlockExtendedInfo P)}
    (h : examine env node block = .ok (altChain, node')) : Trims node node' := by
  rw [(examine_eq_ok h).node_eq]
  exact trims_altBasicBlockChecks node block

end

end Beldex.Chain
