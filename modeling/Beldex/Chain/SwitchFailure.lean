import Beldex.Chain.Switch

/-!
# Failed switches

When an alternative block is turned down the old main chain comes back.  What is
left of the alternative chain is to be marked invalid and deleted, which goes
wrong as soon as a block follows the one that was turned down.
-/

namespace Beldex.Chain

open Basic Crypto Foundation Token Voting Table List

variable {P S N Blob : Type} {env : Environment P S N Blob}

/-! ## Chains that were built block by block -/

inductive Built (env : Environment P S N Blob) : List (ChainBlock P) -> Prop where
  | genesis {entry : ChainBlock P} :
      env.updateNextCumulativeWeightLimit [entry] = true -> Built env [entry]
  | add {main : List (ChainBlock P)} {block : Block P} :
      Built env main -> env.updateNextCumulativeWeightLimit
        (main ++ [⟨block, env.blockInfo main block⟩]) = true ->
      Built env (main ++ [⟨block, env.blockInfo main block⟩])

variable {main : List (ChainBlock P)}

theorem Built.weight (h : Built env main) : env.updateNextCumulativeWeightLimit main = true := by
  cases h with
  | genesis hwt => exact hwt
  | add _ hwt => exact hwt

theorem Built.ne_nil (h : Built env main) : main ≠ [] := by
  cases h with
  | genesis _ => exact cons_ne_nil _ _
  | add _ _ => exact append_ne_nil_of_right_ne_nil _ (cons_ne_nil _ _)

theorem Built.top {below : List (ChainBlock P)} {top : ChainBlock P}
    (h : Built env (below ++ [top])) (hne : below ≠ []) :
    Built env below ∧ top = ⟨top.block, env.blockInfo below top.block⟩ := by
  generalize hmain : below ++ [top] = main at h
  cases h with
  | @genesis entry _ =>
    rcases append_eq_singleton_iff.mp hmain with ⟨hnil, _⟩ | ⟨_, hnil⟩
    · exact absurd hnil hne
    · cases hnil
  | @add main block hbuilt _ =>
    rcases append_inj' hmain rfl with ⟨rfl, htop⟩
    cases htop
    exact ⟨hbuilt, rfl⟩

theorem Built.base {base above : List (ChainBlock P)} (h : Built env (base ++ above))
    (hne : base ≠ []) : Built env base := by
  induction above using reverseRecOn with
  | nil =>
    rw [append_nil] at h
    exact h
  | append_singleton rest top ih =>
    rw [<- append_assoc] at h
    exact ih (h.top (append_ne_nil_of_left_ne_nil hne _)).1

def extend (env : Environment P S N Blob) : List (ChainBlock P) -> List (Block P) ->
    List (ChainBlock P)
  | main, [] => main
  | main, block :: rest => extend env (main ++ [⟨block, env.blockInfo main block⟩]) rest

variable {base above below : List (ChainBlock P)} {top : ChainBlock P}

theorem Built.extend_eq (h : Built env (base ++ above)) (hne : base ≠ []) :
    extend env base (above.map ChainBlock.block) = base ++ above := by
  induction above generalizing base with
  | nil => exact (append_nil base).symm
  | cons entry rest ih =>
    have hassoc : base ++ entry :: rest = (base ++ [entry]) ++ rest := by
      rw [append_assoc]
      rfl
    rw [hassoc] at h ⊢
    have hnext : base ++ [entry] ≠ [] := append_ne_nil_of_left_ne_nil hne _
    have hent := ((h.base hnext).top hne).2
    change extend env (base ++ [⟨entry.block, env.blockInfo base entry.block⟩])
      (rest.map ChainBlock.block) = _
    rw [<- hent]
    exact ih h hnext

/-! ## Nodes that can be wound back -/

/-- The chain and the token tables of the node are what its own code makes. -/
structure Sound (env : Environment P S N Blob) (node : Node P S N Blob) : Prop where
  built : Built env node.main
  tokens : ReachableDb env.codec node.tokens

/-- The alternative blocks are as they were, and no block became valid again. -/
structure Keeps (node node' : Node P S N Blob) : Prop where
  altBlocks : node'.altBlocks = node.altBlocks
  invalidBlocks : forall hash, hash ∈ node.invalidBlocks -> hash ∈ node'.invalidBlocks

theorem Keeps.refl (node : Node P S N Blob) : Keeps node node :=
  ⟨rfl, fun _ h => h⟩

theorem Keeps.trans {node node' node'' : Node P S N Blob} (h : Keeps node node')
    (h' : Keeps node' node'') : Keeps node node'' :=
  ⟨h'.altBlocks.trans h.altBlocks, fun hash hin => h'.invalidBlocks hash (h.invalidBlocks hash hin)⟩

theorem Sound.execDetachHooks {node : Node P S N Blob} (h : Sound env node) (height : Nat)
    (loadMissing : Bool) : Sound env (node.execDetachHooks env height loadMissing) :=
  ⟨h.built, h.tokens⟩

theorem keeps_execDetachHooks (node : Node P S N Blob) (height : Nat) (loadMissing : Bool) :
    Keeps node (node.execDetachHooks env height loadMissing) :=
  ⟨rfl, fun _ h => h⟩

theorem Sound.pop {node : Node P S N Blob} (h : Sound env node) (hmain : node.main = below ++ [top])
    (hne : below ≠ []) :
    exists popped, node.popBlockFromBlockchain env = (popped, some top.block) ∧
      popped.main = below ∧ Sound env popped ∧ Keeps node popped := by
  have hbelow : Built env below := ((hmain ▸ h.built).top hne).1
  have hpos : 0 < below.length := length_pos_iff.mpr hne
  have hlast : node.main.getLast? = some top := by
    rw [hmain, getLast?_concat]
  have hdrop : node.main.dropLast = below := by
    rw [hmain, dropLast_concat]
  have hlen : ¬ node.main.length <= 1 := by
    rw [hmain, length_append, length_singleton]
    omega
  have hpop : exists tokens, popBlockTokens env.codec env.networkVersion node.tokens
      (node.main.length - 1) = .ok tokens :=
    h.tokens.exists_popBlockTokens _
  rcases hpop with ⟨tokens, htoks⟩
  refine ⟨{ node with
    main := node.main.dropLast
    tokens := tokens
    names := node.names.blockDetach (node.main.length - 1)
    pool := returnTxToPool env node.pool top.block.txHashes }, ?_, hdrop, ?_, ?_⟩
  · unfold Node.popBlockFromBlockchain
    simp only [hlast, if_neg hlen, htoks]
    rw [if_pos (hdrop ▸ hbelow.weight)]
  · exact ⟨hdrop.symm ▸ hbelow, h.tokens.of_popBlockTokens htoks⟩
  · exact ⟨rfl, fun _ hin => hin⟩

/-! ## Adding and popping blocks -/

section

variable [DecidableEq P] {node node' : Node P S N Blob} {block : Block P}
  {checkpoint : Option Checkpoint}

omit [DecidableEq P] in
theorem AddedBlock.keeps (h : AddedBlock env node block checkpoint node') : Keeps node node' :=
  ⟨h.altBlocks, fun _ hin => h.invalidBlocks.symm ▸ hin⟩

omit [DecidableEq P] in
theorem RejectedBlock.keeps (h : RejectedBlock env node block checkpoint node') :
    Keeps node node' :=
  ⟨h.altBlocks, h.invalidBlocks⟩

omit [DecidableEq P] in
theorem AddedBlock.sound (h : AddedBlock env node block checkpoint node')
    (hsound : Sound env node) : Sound env node' := by
  constructor
  · have hwt := h.weight
    rw [h.main] at hwt ⊢
    exact .add hsound.built hwt
  · exact hsound.tokens.addBlockTokens h.tokens

omit [DecidableEq P] in
theorem RejectedBlock.sound (h : RejectedBlock env node block checkpoint node')
    (hsound : Sound env node) : Sound env node' := by
  constructor
  · rw [h.main]
    exact hsound.built
  · rcases h.tokens with htoks | htoks
    · rw [htoks]
      exact hsound.tokens
    · exact hsound.tokens.of_popBlockTokens htoks

omit [DecidableEq P] in
theorem Sound.popToParent {parent : Hash} {fuel : Nat} (h : Sound env node)
    (hparent : env.blockExists node.main parent = true) (hfuel : node.main.length <= fuel)
    (acc : List (BlockAndCheckpoint P)) :
    exists base above disconnected,
      popToParent env parent fuel node acc = (base, some (disconnected ++ acc)) ∧
      node.main = base.main ++ above ∧
      disconnected.map BlockAndCheckpoint.block = above.map ChainBlock.block ∧
      Sound env base ∧ Keeps node base := by
  induction fuel generalizing node acc with
  | zero =>
    exact absurd (eq_nil_of_length_eq_zero (Nat.le_zero.mp hfuel)) h.built.ne_nil
  | succ fuel ih =>
    unfold Chain.popToParent
    split
    · exact ⟨node, [], [], rfl, (append_nil _).symm, rfl, h, Keeps.refl node⟩
    next htail =>
      rcases eq_nil_or_concat node.main with hnil | ⟨below, top, hmain⟩
      · exact absurd hnil h.built.ne_nil
      · rw [concat_eq_append] at hmain
        -- the parent is not the top block, so it is below it
        have hin : env.blockExists below parent = true := by
          unfold Environment.blockExists at hparent ⊢
          rw [hmain, any_append, Bool.or_eq_true] at hparent
          rcases hparent with hparent | hparent
          · exact hparent
          · refine absurd ?_ htail
            unfold Environment.tailId
            rw [hmain, getLast?_concat]
            simpa using hparent
        have hne : below ≠ [] := by
          intro hnil
          rw [hnil] at hin
          cases hin
        rcases h.pop hmain hne with ⟨popped, hpop, hpopped, hsound, hkeeps⟩
        have hshort : popped.main.length <= fuel := by
          rw [hmain, length_append, length_singleton] at hfuel
          rw [hpopped]
          omega
        rcases ih hsound (hpopped.symm ▸ hin) hshort
          (⟨top.block, popped.checkpoints.db.find? (getBlockHeight top.block)⟩ :: acc) with
          ⟨base, above, disconnected, hrun, hbase, hblocks, hbaseSound, hbaseKeeps⟩
        refine ⟨base, above ++ [top], disconnected ++
          [⟨top.block, popped.checkpoints.db.find? (getBlockHeight top.block)⟩],
          ?_, ?_, ?_, hbaseSound, hkeeps.trans hbaseKeeps⟩
        · simp only [hpop]
          rw [hrun, append_assoc]
          rfl
        · rw [hmain, <- hpopped, hbase, append_assoc]
        · rw [map_append, map_append, hblocks]
          rfl

omit [DecidableEq P] in
theorem Sound.popBlocks {base above : List (ChainBlock P)} (h : Sound env node)
    (hmain : node.main = base ++ above) (hne : base ≠ []) :
    exists popped, popBlocks env above.length node = (popped, true) ∧
      popped.main = base ∧ Sound env popped ∧ Keeps node popped := by
  induction above using reverseRecOn generalizing node with
  | nil =>
    rw [append_nil] at hmain
    exact ⟨node, rfl, hmain, h, Keeps.refl node⟩
  | append_singleton rest top ih =>
    rw [<- append_assoc] at hmain
    rcases h.pop hmain (append_ne_nil_of_left_ne_nil hne _) with
      ⟨popped, hpop, hpopped, hsound, hkeeps⟩
    rcases ih hsound hpopped with ⟨final, hrun, hfinal, hfinalSound, hfinalKeeps⟩
    refine ⟨final, ?_, hfinal, hfinalSound, hkeeps.trans hfinalKeeps⟩
    rw [length_append, length_singleton]
    unfold Chain.popBlocks
    simp only [hpop]
    exact hrun

theorem connectAlternative_eq_rejected {altChain : List (BlockExtendedInfo P)}
    {stuck : Node P S N Blob} {bei : BlockExtendedInfo P}
    {rest : List (BlockExtendedInfo P)} (hsound : Sound env node)
    (h : connectAlternative env node altChain = .rejected stuck bei rest) :
    (exists before, altChain = before ++ bei :: rest) ∧
      (exists above, stuck.main = node.main ++ above) ∧ Sound env stuck ∧ Keeps node stuck := by
  induction altChain generalizing node with
  | nil => cases h
  | cons first others ih =>
    unfold connectAlternative at h
    split at h
    next added hadded =>
      have hblock := addedBlock_of_handle hadded
      rcases ih (hblock.sound hsound) h with ⟨⟨before, rfl⟩, ⟨above, hmain⟩, hstuck, hkeeps⟩
      refine ⟨⟨first :: before, rfl⟩,
        ⟨⟨first.block, env.blockInfo node.main first.block⟩ :: above, ?_⟩, hstuck,
        hblock.keeps.trans hkeeps⟩
      rw [hmain, hblock.main, append_assoc]
      rfl
    next exit rejected hrej =>
      have hblock := rejectedBlock_of_handle hrej
      cases h
      refine ⟨⟨[], rfl⟩, ⟨[], ?_⟩, hblock.sound hsound, hblock.keeps⟩
      rw [hblock.main, append_nil]
    · cases h

theorem reapply_eq_done {entries : List (BlockAndCheckpoint P)}
    (h : reapply env node entries = .done node') :
    node'.main = extend env node.main (entries.map BlockAndCheckpoint.block) ∧
      Keeps node node' := by
  induction entries generalizing node with
  | nil =>
    cases h
    exact ⟨rfl, Keeps.refl _⟩
  | cons entry rest ih =>
    unfold reapply at h
    split at h
    next added hadded =>
      have hblock := addedBlock_of_handle hadded
      rcases ih h with ⟨hmain, hkeeps⟩
      rw [hblock.main] at hmain
      exact ⟨hmain, hblock.keeps.trans hkeeps⟩
    · cases h
    · cases h

end

/-! ## The alternative blocks after a failure -/

section

variable {node : Node P S N Blob} {bei : BlockExtendedInfo P} {rest : List (BlockExtendedInfo P)}
  {hash : Hash}

theorem find?_removeAltBlock {node' : Node P S N Blob} (h : node.removeAltBlock hash = some node') :
    node'.altBlocks.find? hash = none := by
  unfold Node.removeAltBlock at h
  split at h
  · cases h
    rw [find?_restrict]
    simp
  · cases h

theorem discardAlternative_throws (next : BlockExtendedInfo P) :
    (discardAlternative env node bei (next :: rest)).2 = false := by
  cases hremove : (node.addBlockAsInvalid env bei.block).removeAltBlock
      (env.getBlockHash bei.block) with
  | none => simp only [discardAlternative, hremove]
  | some removed =>
    have hgone := find?_removeAltBlock hremove
    have hagain : (removed.addBlockAsInvalid env next.block).removeAltBlock
        (env.getBlockHash bei.block) = none :=
      if_neg (Option.not_isSome_iff_eq_none.mpr hgone)
    simp only [discardAlternative, hremove, orphanRest, hagain]

end

/-! ## Failed switches -/

section

variable [DecidableEq P]

/-- The alternative block number `index` is the first that is turned down. -/
def FirstRejected (env : Environment P S N Blob) (node : Node P S N Blob) (parent : Hash)
    (altChain : List (BlockExtendedInfo P)) (index : Nat) : Prop :=
  forall base disconnected, disconnect env node parent = (base, some disconnected) ->
    exists stuck bei rest, connectAlternative env base altChain = .rejected stuck bei rest ∧
      altChain.length = index + 1 + rest.length

/-- The blocks of the old chain are accepted again when they are added to their parents. -/
def Readmitted (env : Environment P S N Blob) (node : Node P S N Blob) (parent : Hash)
    (altChain : List (BlockExtendedInfo P)) : Prop :=
  forall base disconnected stuck bei rest popped,
    disconnect env node parent = (base, some disconnected) ->
    connectAlternative env base altChain = .rejected stuck bei rest ->
    popBlocks env (stuck.main.length - base.main.length) stuck = (popped, true) ->
    exists restored, reapply env (popped.execDetachHooks env base.main.length true)
      disconnected = .done restored

structure AtomicFailure (env : Environment P S N Blob) (node : Node P S N Blob)
    (altChain : List (BlockExtendedInfo P)) (index : Nat)
    (result : SwitchResult P S N Blob) : Prop where
  returned : result.outcome = .failed
  main : result.node.main = node.main
  invalid : forall i bei, index <= i -> altChain[i]? = some bei ->
    env.getBlockHash bei.block ∈ result.node.invalidBlocks
  removed : forall i bei, index <= i -> altChain[i]? = some bei ->
    result.node.altBlocks.find? (env.getBlockHash bei.block) = none
  kept : forall i bei, i < index -> altChain[i]? = some bei ->
    (result.node.altBlocks.find? (env.getBlockHash bei.block)).isSome = true

variable {node : Node P S N Blob} {front : BlockExtendedInfo P}
  {altChain : List (BlockExtendedInfo P)}

omit [DecidableEq P] in
theorem Sound.disconnect {parent : Hash} (h : Sound env node)
    (hparent : env.blockExists node.main parent = true) :
    exists base above disconnected, Chain.disconnect env node parent = (base, some disconnected) ∧
      node.main = base.main ++ above ∧
      disconnected.map BlockAndCheckpoint.block = above.map ChainBlock.block ∧
      Sound env base ∧ Keeps node base := by
  rcases h.popToParent hparent (le_refl _) [] with
    ⟨popped, above, disconnected, hrun, hmain, hblocks, hsound, hkeeps⟩
  rw [append_nil] at hrun
  refine ⟨popped.execDetachHooks env popped.main.length true, above, disconnected, ?_, hmain,
    hblocks, hsound.execDetachHooks _ _, hkeeps.trans (keeps_execDetachHooks _ _ _)⟩
  unfold Chain.disconnect
  rw [hrun]

variable {stuck base : Node P S N Blob} {disconnected : List (BlockAndCheckpoint P)}

theorem rollback_restores {above joined : List (ChainBlock P)} (hsound : Sound env node)
    (hmain : node.main = base.main ++ above)
    (hblocks : disconnected.map BlockAndCheckpoint.block = above.map ChainBlock.block)
    (hbase : Sound env base) (hstuck : Sound env stuck) (hjoined : stuck.main = base.main ++ joined)
    (hreadmitted : forall popped,
      popBlocks env (stuck.main.length - base.main.length) stuck = (popped, true) ->
      exists restored, reapply env (popped.execDetachHooks env base.main.length true)
        disconnected = .done restored) :
    exists restored,
      rollbackBlockchainSwitching env stuck disconnected base.main.length = .done restored ∧
      restored.main = node.main ∧ Keeps stuck restored := by
  have hlen : stuck.main.length - base.main.length = joined.length := by
    rw [hjoined, length_append]
    omega
  have hlong : ¬ stuck.main.length < base.main.length := by
    rw [hjoined, length_append]
    omega
  rcases hstuck.popBlocks hjoined hbase.built.ne_nil with
    ⟨popped, hpop, hpopped, _, hkeeps⟩
  rw [<- hlen] at hpop
  rcases hreadmitted popped hpop with ⟨restored, hreapply⟩
  rcases reapply_eq_done hreapply with ⟨hrestored, hkept⟩
  refine ⟨restored, ?_, ?_, hkeeps.trans ((keeps_execDetachHooks _ _ _).trans hkept)⟩
  · unfold rollbackBlockchainSwitching
    rw [if_neg hlong, hpop]
    exact hreapply
  · -- the old blocks get the data beside them that they had before
    have hbuilt : Built env (base.main ++ above) := hmain ▸ hsound.built
    rw [hrestored, hblocks]
    change extend env popped.main _ = _
    rw [hpopped, hbuilt.extend_eq hbase.built.ne_nil, hmain]

variable {restored : Node P S N Blob}

omit [DecidableEq P] in
theorem atomicFailure_last {before : List (BlockExtendedInfo P)} {bei : BlockExtendedInfo P}
    (haltChain : altChain = before ++ [bei]) (hmain : restored.main = node.main)
    (haltBlocks : restored.altBlocks = node.altBlocks) (hstored : forall bei, bei ∈ altChain ->
      (node.altBlocks.find? (env.getBlockHash bei.block)).isSome = true)
    (hdistinct : (altChain.map fun bei => env.getBlockHash bei.block).Nodup) :
    AtomicFailure env node altChain before.length
      ⟨(discardAlternative env restored bei []).1,
        if (discardAlternative env restored bei []).2 then .failed else .threw, []⟩ := by
  have hbei : bei ∈ altChain := by
    rw [haltChain]
    exact mem_append_right _ mem_cons_self
  have hremove : (restored.addBlockAsInvalid env bei.block).removeAltBlock
      (env.getBlockHash bei.block) = some _ := if_pos (haltBlocks.symm ▸ hstored bei hbei)
  simp only [discardAlternative, hremove, orphanRest]
  have hlast : forall i x, before.length <= i -> altChain[i]? = some x -> x = bei := by
    intro i x hi hx
    have hlt := (List.getElem?_eq_some_iff.mp hx).1
    have hieq : i = before.length := by
      rw [haltChain, length_append, length_singleton] at hlt
      omega
    rw [haltChain, hieq, getElem?_concat_length] at hx
    cases hx
    rfl
  constructor
  · rfl
  · exact hmain
  · intro i x hi hx
    rw [hlast i x hi hx]
    exact mem_cons_self
  · intro i x hi hx
    rw [hlast i x hi hx]
    rw [find?_restrict]
    simp
  · intro i x hi hx
    have hxin : x ∈ before := by
      rw [haltChain, getElem?_append_left hi] at hx
      exact mem_of_getElem? hx
    have hne : env.getBlockHash x.block ≠ env.getBlockHash bei.block := by
      intro heq
      rw [haltChain, map_append, nodup_append] at hdistinct
      exact hdistinct.2.2 _ (mem_map_of_mem hxin) _ mem_cons_self heq
    rw [find?_restrict, if_pos (by simpa using hne)]
    change (restored.altBlocks.find? _).isSome = true
    rw [haltBlocks]
    refine hstored x ?_
    rw [haltChain]
    exact mem_append_left _ hxin

/-- A failed switch is atomic exactly when the block that is turned down is the last of
the alternative chain. -/
theorem failedSwitch_atomic_iff
    (push : Node P S N Blob -> Block P -> Option Checkpoint -> AltResult P S N Blob)
    (keepDisconnectedChain : Bool) {index : Nat} (hsound : Sound env node)
    (hfront : altChain.head? = some front)
    (hparent : env.blockExists node.main front.block.prevId = true)
    (hstored : forall bei, bei ∈ altChain ->
      (node.altBlocks.find? (env.getBlockHash bei.block)).isSome = true)
    (hdistinct : (altChain.map fun bei => env.getBlockHash bei.block).Nodup)
    (hfirst : FirstRejected env node front.block.prevId altChain index)
    (hreadmitted : Readmitted env node front.block.prevId altChain) :
    AtomicFailure env node altChain index
        (switchToAlternativeBlockchain env push node altChain keepDisconnectedChain) <->
      altChain.length = index + 1 := by
  rcases hsound.disconnect hparent with
    ⟨base, above, disconnected, hdisc, hmain, hblocks, hbase, hbaseKeeps⟩
  rcases hfirst base disconnected hdisc with ⟨stuck, bei, rest, hconn, hindex⟩
  rcases connectAlternative_eq_rejected hbase hconn with
    ⟨⟨before, haltChain⟩, ⟨joined, hjoined⟩, hstuck, hstuckKeeps⟩
  rcases rollback_restores hsound hmain hblocks hbase hstuck hjoined
      (fun popped => hreadmitted base disconnected stuck bei rest popped hdisc
        hconn) with ⟨restored, hrollback, hrestored, hrestoredKeeps⟩
  have hkeeps := (hbaseKeeps.trans hstuckKeeps).trans hrestoredKeeps
  unfold switchToAlternativeBlockchain
  simp only [hfront, hparent, Bool.not_true, Bool.false_eq_true, if_false, hdisc, hconn,
    undoSwitch, hrollback]
  have hbef : before.length = index := by
    rw [haltChain, length_append, length_cons] at hindex
    omega
  cases rest with
  | cons next others =>
    -- the second deletion throws
    have hthrows : (discardAlternative env restored bei (next :: others)).2 = false :=
      discardAlternative_throws next
    constructor
    · intro hatomic
      have hret := hatomic.returned
      simp only [hthrows] at hret
      cases hret
    · intro hlen
      rw [hlen, length_cons] at hindex
      omega
  | nil =>
    refine iff_of_true ?_ hindex
    rw [<- hbef]
    exact atomicFailure_last haltChain hrestored hkeeps.altBlocks hstored hdistinct

end

/-! ## A switch that fails at its last block, and one that fails before -/

def pickyDatabase : Environment Unit Unit Unit PlainBlob :=
  { plainEnvironment with
    addBlock := fun _ block => if block.nonce = 7 then .error [nullHash] else .ok () }

def asAlternative (block : Block Unit) : BlockExtendedInfo Unit :=
  ⟨block, getBlockHeight block, 0, none⟩

def forkedNode (altChain : List (Block Unit)) : Node Unit Unit Unit PlainBlob :=
  { plainNode [plainBlock 1 0 0, plainBlock 2 1 1] empty with
    altBlocks := altChain.foldl (fun store block =>
      store.set (pickyDatabase.getBlockHash block) ⟨getBlockHeight block, 0, block, none⟩)
      empty }

def failsLast : List (Block Unit) :=
  [plainBlock 5 1 1, plainBlock 7 2 5]

def failsFirst : List (Block Unit) :=
  [plainBlock 7 1 1, plainBlock 8 2 7]

theorem forkedNode_sound (altChain : List (Block Unit)) :
    Sound pickyDatabase (forkedNode altChain) where
  built := @Built.add _ _ _ _ _ [⟨plainBlock 1 0 0, ⟨0, 0, 0, 0⟩⟩] _ (.genesis rfl) rfl
  tokens := .empty

def switchForked (altChain : List (Block Unit)) :=
  switchToAlternativeBlockchain pickyDatabase (fun node _ _ => ⟨node, .orphaned, []⟩)
    (forkedNode altChain) (altChain.map asAlternative) false

theorem failedSwitch_atomic_iff_failsLast :
    AtomicFailure pickyDatabase (forkedNode failsLast) (failsLast.map asAlternative) 1
        (switchForked failsLast) <->
      (failsLast.map asAlternative).length = 1 + 1 := by
  refine failedSwitch_atomic_iff _ _ (forkedNode_sound _) rfl rfl (by decide) (by decide) ?_ ?_
  · intro base disconnected h
    cases h
    exact ⟨_, _, _, rfl, rfl⟩
  · intro base disconnected stuck bei rest popped h hconn hpop
    cases h
    cases hconn
    cases hpop
    exact ⟨_, rfl⟩

/-- The first of two alternative blocks is turned down, the old chain is put back, and
then an exception is thrown with the second block still stored. -/
theorem failedSwitch_throws :
    FirstRejected pickyDatabase (forkedNode failsFirst) ⟨1⟩ (failsFirst.map asAlternative) 0 ∧
    Readmitted pickyDatabase (forkedNode failsFirst) ⟨1⟩ (failsFirst.map asAlternative) ∧
    (switchForked failsFirst).outcome = .threw ∧
    ((switchForked failsFirst).node.altBlocks.find? ⟨8⟩).isSome = true := by
  refine ⟨?_, ?_, rfl, rfl⟩
  · intro base disconnected h
    cases h
    exact ⟨_, _, _, rfl, rfl⟩
  · intro base disconnected stuck bei rest popped h hconn hpop
    cases h
    cases hconn
    cases hpop
    exact ⟨_, rfl⟩

end Beldex.Chain
