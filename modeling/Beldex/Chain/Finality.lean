import Mathlib.Logic.Relation
import Beldex.Foundation.Rewriting
import Beldex.Chain.CheckpointRange
import Beldex.Chain.HandleAlternative

/-!
# What is immutable

A node reports the height up to which the checkpoints have settled its chain.
The blocks up to that height stay for as long as every alternative block is
judged by a threshold that is not below it.  The threshold is read off the stored
checkpoints, which a switch deletes, and off a number that a restart forgets.
-/

namespace Beldex.Chain

open Basic Crypto Foundation Foundation.Rewriting Voting List

variable {P S N Blob : Type} (env : Environment P S N Blob)

def Node.getImmutableHeight (node : Node P S N Blob) : Nat :=
  (getImmutableCheckpoint node.checkpoints.db node.main.length).elim 0 fun entry =>
    entry.1.toNat

/-! ## Starting a node again -/

/-- Add a hardcoded checkpoint; there is no result when another one of the height is
stored, except at one height. -/
def Checkpoints.addCheckpoint (checkpoints : Checkpoints) (height : UInt64) (hash : Hash) :
    Option Checkpoints :=
  match checkpoints.db.find? height with
  | some stored =>
    if hash ≠ stored.blockHash ∧ height = exemptHeight then
      some (checkpoints.updateCheckpoint
        { stored with type := .hardcoded, height := height, blockHash := hash })
    else if hash = stored.blockHash then
      some checkpoints
    else
      none
  | none => some (checkpoints.updateCheckpoint ⟨.hardcoded, height, hash, []⟩)

def Checkpoints.init (db : CheckpointDb) (hardcoded : List (UInt64 × Hash)) : Option Checkpoints :=
  hardcoded.foldlM (fun checkpoints entry => checkpoints.addCheckpoint entry.1 entry.2) ⟨db, 0, 0⟩

def topVersionIsIdeal (main : List (ChainBlock P)) : Bool :=
  match main.getLast? with
  | some top =>
    decide (env.networkVersion (main.length - 1) <= Hf.hf1) ||
      env.networkVersion (main.length - 1) == top.block.majorVersion
  | none => true

/-- Start a node on the database of another.  There is no result when the hardcoded
checkpoints do not fit, or when blocks of another version have to be popped first. -/
def Node.restart (node : Node P S N Blob) (hardcoded : List (UInt64 × Hash))
    (keepAltBlocks : Bool) : Option (Node P S N Blob) :=
  if topVersionIsIdeal env node.main then
    (Checkpoints.init node.checkpoints.db hardcoded).map fun checkpoints =>
      Node.execDetachHooks env
        { node with
          checkpoints := checkpoints
          masterNodes := initMasterNodeList env node.main
          altBlocks := if keepAltBlocks then node.altBlocks else Table.empty
          invalidBlocks := [] }
        node.main.length true
  else
    none

/-! ## Runs -/

/-- How an alternative block is judged at a node that has reported an immutable height:
by a threshold that is not below it, and as a block that is where its coinbase says. -/
structure Judged (reported : Nat) (node : Node P S N Blob) (block : Block P) : Prop where
  threshold : reported <= node.checkpoints.threshold node.main.length
  height : 0 < reported -> altChainBelow env node block.prevId = [] ->
    env.hashAt node.main ((getBlockHeight block).toNat - 1) = some block.prevId

/-- Every block that is handed in again meets a condition, at the node where it is.  After
an exception the rest is not handed in. -/
def GuardedPushes (push : Node P S N Blob -> Block P -> Option Checkpoint -> AltResult P S N Blob)
    (guarded : Node P S N Blob -> Block P -> Option Checkpoint -> Prop) :
    Node P S N Blob -> List (BlockAndCheckpoint P) -> Prop
  | _, [] => True
  | node, entry :: rest =>
    guarded node entry.block entry.checkpoint ∧ let result := push node entry.block entry.checkpoint
      (¬ result.exit = .terminated -> ¬ (result.exit = .altChainThrew ∨ result.exit = .coinsThrew ∨
            result.exit = .switchThrew) -> GuardedPushes push guarded result.node rest)

/-- A call in which every alternative block is judged by the threshold: the one that is
handed in, and those of the old chain that come back when it sets off a switch. -/
def Guarded [DecidableEq P] (reported : Nat) :
    Nat -> Node P S N Blob -> Block P -> Option Checkpoint -> Prop
  | 0, _, _, _ => True
  | depth + 1, node, block, checkpoint =>
    Judged env reported node block ∧ forall contest front base disconnected joined,
        evaluate env node block checkpoint = .ok contest ->
        altChainWins contest block = some (true, true) -> contest.altChain.head? = some front ->
        disconnect env contest.node front.block.prevId = (base, some disconnected) ->
        connectAlternative env base contest.altChain = .connected joined ->
          GuardedPushes (handleAlternativeBlock env depth) (Guarded reported depth) joined
            disconnected

/-- What can happen to a node: a block is handed in, a checkpoint is stored, or the node
is started again. -/
inductive Step [DecidableEq P] (reported : Nat) : Node P S N Blob -> Node P S N Blob -> Prop where
  | addNewBlock {node node' : Node P S N Blob} (depth : Nat) (block : Block P)
      (checkpoint : Option Checkpoint)
      (hnode : (addNewBlock env depth node block checkpoint).node? = some node')
      (hguarded : forall result,
        addNewBlock env depth node block checkpoint = .onAlternative result ->
          Guarded env reported depth node block
            (usableCheckpoint node.checkpoints.db block checkpoint)) :
      Step reported node node'
  | updateCheckpoint {node : Node P S N Blob} (checkpoint : Checkpoint) :
      Step reported node { node with checkpoints := node.checkpoints.updateCheckpoint checkpoint }
  | restart {node node' : Node P S N Blob} (hardcoded : List (UInt64 × Hash))
      (keepAltBlocks : Bool) (hnode : node.restart env hardcoded keepAltBlocks = some node') :
      Step reported node node'

/-- A run that nothing up to the reported height is up for change in. -/
def Run [DecidableEq P] (reported : Nat) : Node P S N Blob -> Node P S N Blob -> Prop :=
  Relation.ReflTransGen (Step env reported)

/-! ## The main chain above a floor -/

def Follows (main : List (ChainBlock P)) (entry : ChainBlock P) : Prop :=
  env.tailId main = some entry.block.prevId

section

variable {env} {floor : Nat} {node node' : Node P S N Blob} {parent : Hash} {p : Nat}
  {main : List (ChainBlock P)}

theorem lt_length_of_hashAt (h : env.hashAt main p = some parent) : p < main.length := by
  rcases Option.map_eq_some_iff.mp h with ⟨entry, hent, _⟩
  exact (List.getElem?_eq_some_iff.mp hent).1

theorem hashAt_of_blockExists (h : env.blockExists main parent = true) :
    exists p, env.hashAt main p = some parent := by
  rcases any_eq_true.mp h with ⟨entry, hent, hhash⟩
  rcases getElem?_of_mem hent with ⟨p, hp⟩
  refine ⟨p, ?_⟩
  unfold Environment.hashAt
  rw [hp]
  exact congrArg some (beq_iff_eq.mp hhash)

theorem hashAt_below {below : List (ChainBlock P)} {top : ChainBlock P}
    (h : env.hashAt (below ++ [top]) p = some parent)
    (htail : env.tailId (below ++ [top]) ≠ some parent) : env.hashAt below p = some parent := by
  have hlt := lt_length_of_hashAt h
  rw [length_append, length_singleton] at hlt
  unfold Environment.hashAt at h ⊢
  by_cases hp : p < below.length
  · rw [getElem?_append_left hp] at h
    exact h
  · refine absurd ?_ htail
    have heq : p = below.length := by omega
    rw [heq, getElem?_concat_length] at h
    unfold Environment.tailId
    rw [getLast?_concat]
    exact h

theorem popBlock_main (env : Environment P S N Blob) (node : Node P S N Blob) :
    (node.popBlockFromBlockchain env).1.main = node.main ∨
      exists top, node.main = (node.popBlockFromBlockchain env).1.main ++ [top] := by
  unfold Node.popBlockFromBlockchain
  cases hlast : node.main.getLast? with
  | none => exact Or.inl rfl
  | some top =>
    have hmain : node.main = node.main.dropLast ++ [top] := by
      rw [dropLast_append_getLast? top hlast]
    dsimp only
    split
    · exact Or.inl rfl
    · split
      · exact Or.inr ⟨top, hmain⟩
      · split
        · exact Or.inr ⟨top, hmain⟩
        · exact Or.inr ⟨top, hmain⟩

theorem rewrites_popToParent (hfloor : floor <= p + 1) (fuel : Nat)
    (disconnected : List (BlockAndCheckpoint P)) (hpar : env.hashAt node.main p = some parent) :
    Rewrites (Follows env) floor node.main
        (popToParent env parent fuel node disconnected).1.main ∧
      p < (popToParent env parent fuel node disconnected).1.main.length := by
  induction fuel generalizing node disconnected with
  | zero => exact ⟨.refl, lt_length_of_hashAt hpar⟩
  | succ fuel ih =>
    unfold popToParent
    split
    · exact ⟨.refl, lt_length_of_hashAt hpar⟩
    next htail =>
      have hpop : Rewrites (Follows env) floor node.main
            (node.popBlockFromBlockchain env).1.main ∧
          env.hashAt (node.popBlockFromBlockchain env).1.main p = some parent := by
        rcases popBlock_main env node with hmain | ⟨top, hmain⟩
        · rw [hmain]
          exact ⟨.refl, hpar⟩
        · have hbelow : env.hashAt (node.popBlockFromBlockchain env).1.main p = some parent := by
            rw [hmain] at hpar htail
            exact hashAt_below hpar htail
          have hlt := lt_length_of_hashAt hbelow
          exact ⟨.of_eq_concat hmain (by omega), hbelow⟩
      split
      next popped heq =>
        rw [heq] at hpop
        exact ⟨hpop.1, lt_length_of_hashAt hpop.2⟩
      next popped block heq =>
        rw [heq] at hpop
        have hrest := ih (⟨block, popped.checkpoints.db.find? (getBlockHeight block)⟩ ::
          disconnected) hpop.2
        exact ⟨hpop.1.trans hrest.1, hrest.2⟩

theorem rewrites_disconnect (hfloor : floor <= p + 1)
    (hpar : env.hashAt node.main p = some parent) :
    Rewrites (Follows env) floor node.main (disconnect env node parent).1.main ∧
      p < (disconnect env node parent).1.main.length := by
  have hpop := rewrites_popToParent hfloor node.main.length [] hpar
  unfold disconnect
  split
  next popped heq =>
    rw [heq] at hpop
    exact hpop
  next popped disconnected heq =>
    rw [heq] at hpop
    exact hpop

theorem rewrites_popBlocks (count : Nat) (h : floor + count <= node.main.length) :
    Rewrites (Follows env) floor node.main (popBlocks env count node).1.main := by
  induction count generalizing node with
  | zero => exact .refl
  | succ count ih =>
    have hpop : Rewrites (Follows env) floor node.main
        (node.popBlockFromBlockchain env).1.main := by
      rcases popBlock_main env node with hmain | ⟨top, hmain⟩
      · rw [hmain]
        exact .refl
      · have hlen := congrArg length hmain
        rw [length_append, length_singleton] at hlen
        exact .of_eq_concat hmain (by omega)
    unfold popBlocks
    split
    next popped heq =>
      rw [heq] at hpop
      exact hpop
    next popped block heq =>
      rw [heq] at hpop
      rcases popBlockFromBlockchain_eq_some heq with ⟨top, _, hmain, _⟩
      have hlen := congrArg length hmain
      rw [length_append, length_singleton] at hlen
      have hroom : floor + count <= popped.main.length := by omega
      exact hpop.trans (ih hroom)

theorem rewrites_rule (env : Environment P S N Blob) (floor : Nat) :
    SwitchRule env fun node node' =>
      Rewrites (Follows env) floor node.main node'.main where
  refl := fun _ => .refl
  trans := Rewrites.trans
  added := by
    intro node block checkpoint node' hadded
    rw [hadded.main]
    exact .push .refl hadded.linked
  rejected := by
    intro node block checkpoint node' hrej
    rw [hrej.main]
    exact .refl
  detached := fun _ _ _ => .refl
  trims := by
    intro node node' htrims
    rw [htrims.main]
    exact .refl

variable {push : Node P S N Blob -> Block P -> Option Checkpoint -> AltResult P S N Blob}

theorem rewrites_pushDisconnected
    {guarded : Node P S N Blob -> Block P -> Option Checkpoint -> Prop}
    (hpush : forall node block checkpoint, guarded node block checkpoint ->
      Rewrites (Follows env) floor node.main (push node block checkpoint).node.main)
    {entries : List (BlockAndCheckpoint P)} (h : GuardedPushes push guarded node entries) :
    Rewrites (Follows env) floor node.main (pushDisconnected push node entries).node.main := by
  induction entries generalizing node with
  | nil => exact .refl
  | cons entry rest ih =>
    have hent := hpush _ _ _ h.1
    unfold pushDisconnected
    dsimp only
    split
    · exact hent
    next hrunning =>
      split
      · exact hent
      next hret =>
        exact hent.trans (ih (h.2 hrunning hret))

theorem rewrites_switch [DecidableEq P] {altChain : List (BlockExtendedInfo P)}
    {front : BlockExtendedInfo P} {keep : Bool} (hfront : altChain.head? = some front)
    (hfloor : floor <= p + 1) (hpar : env.hashAt node.main p = some front.block.prevId)
    (hkept : forall base disconnected joined, keep = true ->
      disconnect env node front.block.prevId = (base, some disconnected) ->
      connectAlternative env base altChain = .connected joined ->
        Rewrites (Follows env) floor joined.main
          (pushDisconnected push joined disconnected).node.main) :
    Rewrites (Follows env) floor node.main
      (switchToAlternativeBlockchain env push node altChain keep).node.main := by
  have hbase := rewrites_disconnect hfloor hpar
  refine (rewrites_rule env floor).switch ?_ ?_ ?_
  · intro first hfirst
    cases hfront.symm.trans hfirst
    exact hbase.1
  · intro first base disconnected stuck hfirst hdisc hlong
    cases hfront.symm.trans hfirst
    rw [hdisc] at hbase
    have hsplit : floor <= base.main.length := le_trans hfloor hbase.2
    exact rewrites_popBlocks _ (by omega)
  · intro first base disconnected joined hkeep hfirst _ hdisc hconn
    cases hfront.symm.trans hfirst
    exact hkept base disconnected joined hkeep hdisc hconn

end

/-! ## A whole call -/

section

variable {env} [DecidableEq P] {reported : Nat} {node node' : Node P S N Blob}
  {block : Block P} {checkpoint : Option Checkpoint}

omit [DecidableEq P] in
theorem main_evaluate_error {exit : AltExit}
    (h : evaluate env node block checkpoint = .error (exit, node')) : node'.main = node.main := by
  rcases evaluate_eq_error h with hexamine | ⟨below, examined, bei, hexamine, hstored, _⟩
  · exact (trims_examine_error hexamine).main
  · rw [(examineStored_eq_error hstored).2]
    exact (trims_examine_ok hexamine).main

omit [DecidableEq P] in
/-- The first block of a chain that is judged by the threshold has its parent on the main
chain, at the reported height or above. -/
theorem Judged.parent {contest : Contest P S N Blob} {front : BlockExtendedInfo P}
    (hjudged : Judged env reported node block)
    (h : evaluate env node block checkpoint = .ok contest)
    (hfront : contest.altChain.head? = some front) :
    contest.node.main = node.main ∧
      exists p, reported + 1 <= p + 1 ∧ env.hashAt node.main p = some front.block.prevId := by
  rcases evaluate_eq_ok h with ⟨below, examined, bei, hexamine, hstored, hblock, _, _, hchain, _⟩
  rw [hchain] at hfront
  have hchecks := examine_eq_ok hexamine
  have hmain : examined.main = node.main := (trims_examine_ok hexamine).main
  constructor
  · rw [examineStored_eq_ok hstored]
    exact hmain
  rcases altBasicBlockChecks_eq_true hchecks.basic with ⟨hht, hallowed, _⟩
  have hthr := hjudged.threshold
  cases hbelow : below with
  | nil =>
    rw [hbelow] at hfront
    cases hfront
    rw [hblock]
    rcases Nat.eq_zero_or_pos reported with hzero | hpos
    · rcases hashAt_of_blockExists (hchecks.parent hbelow) with ⟨p, hp⟩
      exact ⟨p, by omega, hp⟩
    · have hlt := threshold_lt_of_allowed hallowed
      exact ⟨(getBlockHeight block).toNat - 1, by omega,
        hjudged.height hpos (hchecks.chain.symm.trans hbelow)⟩
  | cons first rest =>
    rw [hbelow] at hfront
    cases hfront
    have hanchored := hchecks.anchored front (congrArg head? hbelow)
    have hagain : (node.checkpoints.isAlternativeBlockAllowed node.main.length
        front.height.toNat).1 = true := by
      have hallowed' := hanchored.allowed
      rw [hchecks.node_eq] at hallowed'
      unfold altBasicBlockChecks at hallowed'
      dsimp only at hallowed'
      rw [if_neg hht] at hallowed'
      dsimp only at hallowed'
      rw [isAlternativeBlockAllowed_again _ _ hht] at hallowed'
      exact hallowed'
    have hlt := threshold_lt_of_allowed hagain
    exact ⟨front.height.toNat - 1, by omega, hmain ▸ hanchored.parent⟩

theorem rewrites_handleAlternativeBlock (depth : Nat) (node : Node P S N Blob) (block : Block P)
    (checkpoint : Option Checkpoint) (hguarded : Guarded env reported depth node block checkpoint) :
    Rewrites (Follows env) (reported + 1) node.main
      (handleAlternativeBlock env depth node block checkpoint).node.main := by
  induction depth generalizing node block checkpoint with
  | zero => exact .refl
  | succ depth ih =>
    rcases hguarded with ⟨hjudged, hpushes⟩
    unfold handleAlternativeBlock
    cases heval : evaluate env node block checkpoint with
    | error result =>
      rw [main_evaluate_error heval]
      exact .refl
    | ok contest =>
      cases hfront : contest.altChain.head? with
      | none =>
        rcases evaluate_eq_ok heval with ⟨below, _, bei, _, _, _, _, _, hchain, _⟩
        rw [hchain] at hfront
        simp at hfront
      | some front =>
        rcases hjudged.parent heval hfront with ⟨hmain, p, hfloor, hpar⟩
        dsimp only
        split
        · rw [hmain]
          exact .refl
        · rw [hmain]
          exact .refl
        next keep hwins =>
          rw [<- hmain] at hpar ⊢
          refine rewrites_switch hfront hfloor hpar ?_
          intro base disconnected joined hkeep hdisc hconn
          rw [hkeep] at hwins
          exact rewrites_pushDisconnected ih
            (hpushes contest front base disconnected joined heval hwins hfront hdisc hconn)

theorem guarded_zero (depth : Nat) (node : Node P S N Blob) (block : Block P)
    (checkpoint : Option Checkpoint) : Guarded env 0 depth node block checkpoint := by
  induction depth generalizing node block checkpoint with
  | zero => exact trivial
  | succ depth ih =>
    refine ⟨⟨Nat.zero_le _, fun hpos => absurd hpos (Nat.lt_irrefl 0)⟩, ?_⟩
    intro contest front base disconnected joined _ _ _ _ _
    clear * - ih
    induction disconnected generalizing joined with
    | nil => exact trivial
    | cons entry rest ih' => exact ⟨ih _ _ _, fun _ _ => ih' _⟩

theorem Step.rewrites (h : Step env reported node node') :
    Rewrites (Follows env) (reported + 1) node.main node'.main := by
  cases h with
  | addNewBlock depth block checkpoint hnode hguarded =>
    unfold Chain.addNewBlock at hnode hguarded
    split at hnode
    · cases hnode
      exact .refl
    next hnew =>
      rw [if_neg hnew] at hguarded
      split at hnode
      · cases hnode
        exact .refl
      next hsig =>
        rw [if_neg hsig] at hguarded
        dsimp only at hnode hguarded
        split at hnode
        · generalize hhandle : handleBlockToMainChain env node block _ = result at hnode
          cases result with
          | added added =>
            cases hnode
            exact (rewrites_rule env _).added (addedBlock_of_handle hhandle)
          | rejected exit rejected =>
            cases hnode
            exact (rewrites_rule env _).rejected (rejectedBlock_of_handle hhandle)
          | terminated => cases hnode
        next hpar =>
          rw [if_neg hpar] at hguarded
          have hcall := rewrites_handleAlternativeBlock _ _ _ _ (hguarded _ rfl)
          unfold AddResult.node? at hnode
          dsimp only at hnode
          split at hnode
          · cases hnode
          · cases hnode
            exact hcall
  | updateCheckpoint checkpoint => exact .refl
  | restart hardcoded keepAltBlocks hnode =>
    unfold Node.restart at hnode
    split at hnode
    · rcases Option.map_eq_some_iff.mp hnode with ⟨checkpoints, _, rfl⟩
      exact .refl
    · cases hnode

theorem Run.rewrites (h : Run env reported node node') :
    Rewrites (Follows env) (reported + 1) node.main node'.main := by
  induction h with
  | refl => exact .refl
  | tail _ hstep ih => exact ih.trans hstep.rewrites

theorem guarded_of_judged {depth : Nat} (hblock : Hf.hf17POS <= block.majorVersion)
    (h : Judged env reported node block) : Guarded env reported depth node block checkpoint := by
  cases depth with
  | zero => exact trivial
  | succ depth =>
    refine ⟨h, ?_⟩
    intro contest front base disconnected joined _ hwins _ _ _
    unfold altChainWins at hwins
    rw [if_pos hblock] at hwins
    split at hwins
    · cases hwins
    · split at hwins
      · rcases Option.map_eq_some_iff.mp hwins with ⟨blocks, _, hkeep⟩
        cases congrArg Prod.snd hkeep
      · cases hwins

end

/-! ## Two nodes -/

section

variable {env} [DecidableEq P] {reported : Nat} {node node' : Node P S N Blob}

def LinkedMain (env : Environment P S N Blob) (main : List (ChainBlock P)) : Prop :=
  Linked env.getBlockHash Block.prevId (main.map ChainBlock.block)

theorem Run.linkedMain (h : Run env reported node node') (hnode : LinkedMain env node.main) :
    LinkedMain env node'.main := by
  refine h.rewrites.preserves (I := LinkedMain env) ?_ ?_ hnode
  · intro main entry hlinked
    unfold LinkedMain at hlinked ⊢
    rw [map_append] at hlinked
    exact hlinked.dropLast
  · intro main entry hlinked hfollows
    unfold LinkedMain at hlinked ⊢
    rw [map_append]
    refine hlinked.concat ?_
    rw [getLast?_map, Option.map_map]
    exact hfollows

/-- A node holds two checkpoints of the master nodes, and the block of the earlier one is
on its main chain. -/
structure Holds (env : Environment P S N Blob) (earlier later : Checkpoint)
    (node : Node P S N Blob) : Prop where
  storedEarlier : node.checkpoints.db.find? earlier.height = some earlier
  storedLater : node.checkpoints.db.find? later.height = some later
  earlierType : earlier.type = .masterNode
  laterType : later.type = .masterNode
  ordered : earlier.height.toNat < later.height.toNat
  passed : later.height.toNat <= node.main.length
  onMain : env.hashAt node.main earlier.height.toNat = some earlier.blockHash

variable {earlier later : Checkpoint}

omit [DecidableEq P] in
theorem Holds.le_getImmutableHeight (h : Holds env earlier later node) :
    earlier.height.toNat <= node.getImmutableHeight :=
  le_immutableCheckpoint_of_stored h.storedEarlier h.storedLater h.ordered h.passed

theorem Run.take_eq {height : Nat} (h : Run env reported node node')
    (hht : height <= reported) (hlen : height < node.main.length) :
    node'.main.take (height + 1) = node.main.take (height + 1) := by
  have hfloor : node.main.take (reported + 1) <+: node'.main := h.rewrites.take_prefix
  have htake : node.main.take (height + 1) <+: node'.main := by
    refine List.IsPrefix.trans ?_ hfloor
    exact take_prefix_take_left (by omega)
  have heq := prefix_iff_eq_take.mp htake
  rw [length_take, Nat.min_eq_left (by omega)] at heq
  exact heq.symm

/-- Blocks up to a reported height stay in every guarded run, and two nodes that hold the
same two checkpoints agree for good up to the earlier one. -/
theorem immutableBlocks_final (env : Environment P S N Blob) :
    (forall start node : Node P S N Blob, Run env start.getImmutableHeight start node ->
      start.main.take (start.getImmutableHeight + 1) <+: node.main) ∧
    forall (earlier later : Checkpoint)
      (origin origin' first second node node' : Node P S N Blob),
      LinkedMain env origin.main -> LinkedMain env origin'.main ->
      Run env 0 origin first -> Run env 0 origin' second ->
      Holds env earlier later first -> Holds env earlier later second ->
      (forall a, a ∈ first.main -> forall b, b ∈ second.main ->
        env.getBlockHash a.block = env.getBlockHash b.block -> a.block = b.block) ->
      Run env first.getImmutableHeight first node ->
      Run env second.getImmutableHeight second node' ->
        (node.main.take (earlier.height.toNat + 1)).map ChainBlock.block =
          (node'.main.take (earlier.height.toNat + 1)).map ChainBlock.block := by
  constructor
  · intro start node hrun
    exact hrun.rewrites.take_prefix
  · intro earlier later origin origin' first second node node' horigin horigin' hreach hreach'
      hfirst hsecond hhash hrun hrun'
    rw [hrun.take_eq hfirst.le_getImmutableHeight (lt_length_of_hashAt hfirst.onMain),
      hrun'.take_eq hsecond.le_getImmutableHeight (lt_length_of_hashAt hsecond.onMain)]
    rcases Option.map_eq_some_iff.mp hfirst.onMain with ⟨a, ha, hashA⟩
    rcases Option.map_eq_some_iff.mp hsecond.onMain with ⟨b, hb, hashB⟩
    rw [map_take, map_take]
    refine Linked.take_eq (hreach.linkedMain horigin) (hreach'.linkedMain horigin') ?_
      (a := a.block) (b := b.block) ?_ ?_ ?_
    · intro c hc d hd hcd
      rcases mem_map.mp hc with ⟨c', hc', rfl⟩
      rcases mem_map.mp hd with ⟨d', hd', rfl⟩
      exact hhash c' hc' d' hd' hcd
    · rw [getElem?_map, ha]
      rfl
    · rw [getElem?_map, hb]
      rfl
    · rw [hashA, hashB]

/-- After any runs, nodes with the same block at a height have the same blocks below it, as far
as hashes tell them apart. -/
theorem mainChains_agree {origin origin' : Node P S N Blob} {reported' height : Nat} {hash : Hash}
    (horigin : LinkedMain env origin.main) (horigin' : LinkedMain env origin'.main)
    (hrun : Run env reported origin node) (hrun' : Run env reported' origin' node')
    (hhash : forall a, a ∈ node.main.map ChainBlock.block ->
      forall b, b ∈ node'.main.map ChainBlock.block ->
        env.getBlockHash a = env.getBlockHash b -> a = b)
    (h : env.hashAt node.main height = some hash) (h' : env.hashAt node'.main height = some hash) :
    (node.main.map ChainBlock.block).take (height + 1) =
      (node'.main.map ChainBlock.block).take (height + 1) := by
  rcases Option.map_eq_some_iff.mp h with ⟨a, ha, rfl⟩
  rcases Option.map_eq_some_iff.mp h' with ⟨b, hb, hab⟩
  apply Linked.take_eq (hrun.linkedMain horigin) (hrun'.linkedMain horigin') hhash
      (a := a.block) (b := b.block)
  · rw [getElem?_map, ha]
    rfl
  · rw [getElem?_map, hb]
    rfl
  · exact hab.symm

end

/-! ## Samples -/

def posBlock (nonce : UInt32) (height : UInt64) (parent : UInt32) (round : UInt8) : Block Unit :=
  { plainBlock nonce height parent with pos := ⟨⟨1⟩, round, 0⟩ }

def fourthCheckpoint : Checkpoint :=
  ⟨.masterNode, 4, ⟨5⟩, [⟨0, nullSignature⟩]⟩

def eighthCheckpoint : Checkpoint :=
  ⟨.masterNode, 8, ⟨9⟩, [⟨0, nullSignature⟩]⟩

def settledNode : Node Unit Unit Unit PlainBlob :=
  plainNode
    [plainBlock 1 0 0, plainBlock 2 1 1, plainBlock 3 2 2, plainBlock 4 3 3, plainBlock 5 4 4,
      plainBlock 6 5 5, plainBlock 7 6 6, plainBlock 8 7 7, plainBlock 9 8 8]
    ((Table.empty.set 4 fourthCheckpoint).set 8 eighthCheckpoint)

def switchedNode : Node Unit Unit Unit PlainBlob :=
  (handleAlternativeBlock plainEnvironment 1 settledNode (posBlock 20 5 5 1) none).node

def extendedNode : Node Unit Unit Unit PlainBlob :=
  match handleBlockToMainChain plainEnvironment settledNode (plainBlock 10 9 9) none with
  | .added node => node
  | _ => settledNode

theorem settledNode_holds : Holds plainEnvironment fourthCheckpoint eighthCheckpoint settledNode :=
  ⟨rfl, rfl, rfl, rfl, by decide, by decide, rfl⟩

theorem settledNode_linked : LinkedMain plainEnvironment settledNode.main := by
  unfold LinkedMain Linked
  decide

theorem settledNode_switched : Run plainEnvironment 4 settledNode switchedNode := by
  refine .single (.addNewBlock 1 (posBlock 20 5 5 1) none rfl ?_)
  intro _ _
  exact guarded_of_judged (by decide) ⟨by decide, fun _ _ => rfl⟩

theorem settledNode_extended : Run plainEnvironment 4 settledNode extendedNode := by
  refine .single (.addNewBlock 1 (plainBlock 10 9 9) none rfl ?_)
  intro result h
  cases h

theorem immutableBlocks_final_settledNode :
    settledNode.main.take 5 <+: switchedNode.main ∧
      (switchedNode.main.take 5).map ChainBlock.block =
        (extendedNode.main.take 5).map ChainBlock.block := by
  refine ⟨(immutableBlocks_final plainEnvironment).1 settledNode switchedNode
    settledNode_switched, ?_⟩
  exact (immutableBlocks_final plainEnvironment).2 fourthCheckpoint eighthCheckpoint
    settledNode settledNode settledNode settledNode switchedNode extendedNode
    settledNode_linked settledNode_linked .refl .refl settledNode_holds settledNode_holds
    (by decide) settledNode_switched settledNode_extended

theorem mainChains_agree_settledNode :
    (switchedNode.main.map ChainBlock.block).take 5 =
      (extendedNode.main.map ChainBlock.block).take 5 :=
  mainChains_agree settledNode_linked settledNode_linked settledNode_switched
    settledNode_extended (by decide) rfl rfl

def restartedNode : Node Unit Unit Unit PlainBlob :=
  (switchedNode.restart plainEnvironment [] false).getD switchedNode

def revertedNode : Node Unit Unit Unit PlainBlob :=
  (handleAlternativeBlock plainEnvironment 1 restartedNode (posBlock 30 3 3 0) none).node

/-- The first switch deletes the later checkpoint, the restart forgets what was immutable,
and the second switch changes a block below the reported height. -/
theorem immutableBlock_changed :
    settledNode.getImmutableHeight = 4 ∧ Run plainEnvironment 0 settledNode revertedNode ∧
      plainEnvironment.hashAt settledNode.main 3 = some ⟨4⟩ ∧
      plainEnvironment.hashAt revertedNode.main 3 = some ⟨30⟩ := by
  refine ⟨rfl, ?_, rfl, rfl⟩
  have hswitched : Step plainEnvironment 0 settledNode switchedNode :=
    .addNewBlock 1 (posBlock 20 5 5 1) none rfl fun _ _ => guarded_zero _ _ _ _
  have hrestarted : Step plainEnvironment 0 switchedNode restartedNode :=
    .restart [] false rfl
  have hreverted : Step plainEnvironment 0 restartedNode revertedNode :=
    .addNewBlock 1 (posBlock 30 3 3 0) none rfl fun _ _ => guarded_zero _ _ _ _
  exact .tail (.tail (.single hswitched) hrestarted) hreverted

end Beldex.Chain
