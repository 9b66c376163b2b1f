import Beldex.Foundation.Bisection
import Beldex.NodeList.Reorg

/-!
# The quorums of old states

When asked to, the list keeps the quorums of the states that left its history, in
the order in which they left it, and finds them by bisection.  Detaching blocks
winds the states back but not these quorums.
-/

namespace Beldex.NodeList

open Basic Chain Foundation Foundation.Bisection Voting Table List

variable {P N Blob : Type}

/-! ## Records -/

structure QuorumsByHeight where
  height : Nat
  quorums : QuorumManager

structure RecordedList where
  list : MasterNodeList Nodes
  oldQuorumStates : List QuorumsByHeight

/-- How many old quorums a node keeps, and those that it reads back from its database
together with the list. -/
structure HistoryStorage (P : Type) where
  storeQuorumHistory : UInt64
  loadOldQuorumStates : List (ChainBlock P) -> List QuorumsByHeight

/-- A size of one asks for the quorums of all old states. -/
def setQuorumHistoryStorage (histSize : UInt64) : UInt64 :=
  if histSize = 1 then UInt64.ofNat (2 ^ 64 - 1) else histSize

def QuorumManager.get (quorums : QuorumManager) : QuorumType -> Option Quorum
  | .obligations => quorums.obligations
  | .checkpointing => quorums.checkpointing
  | .flash => quorums.flash
  | .pos => quorums.pos

/-! ## Processing and detaching blocks -/

def statesInOrder {S : Type} (states : Table Nat (MasterNodeState S)) : List (MasterNodeState S) :=
  (states.entries.insertionSort fun a b => a.1 <= b.1).map Prod.snd

def statesUpTo {S : Type} (states : Table Nat (MasterNodeState S)) (height : Nat) :
    List (MasterNodeState S) :=
  statesInOrder (states.restrict fun h => h <= height)

/-- Append the quorums of the states that leave the history, and drop the oldest quorums
when there are too many. -/
def recordCulled (storeQuorumHistory : UInt64) (culled : List (MasterNodeState Nodes))
    (oldQuorumStates : List QuorumsByHeight) : List QuorumsByHeight :=
  let recorded :=
    if storeQuorumHistory = 0 then
      oldQuorumStates
    else
      oldQuorumStates ++ culled.map fun state => ⟨state.height, state.nodes.quorums⟩
  recorded.drop (recorded.length - storeQuorumHistory.toNat)

variable (env : Environment P Nodes N Blob) (storage : HistoryStorage P) (recorded : RecordedList)

def RecordedList.processBlock (block : Block P) : RecordedList :=
  if block.majorVersion < Hf.hf9MasterNodes then
    recorded
  else
    let cullHeight := shortTermStateCullHeight (getBlockHeight block).toNat
    { list := (recorded.list.processBlock env block).1
      oldQuorumStates :=
        recordCulled storage.storeQuorumHistory (statesUpTo recorded.list.stateHistory cullHeight)
          recorded.oldQuorumStates }

inductive DetachSource (S : Type) where
  | unchanged
  | history (state : MasterNodeState S)
  | archive (interval : Nat) (state : MasterNodeState S)
  | reinitialise

def detachSource {S : Type} (list : MasterNodeList S) (height : Nat) : DetachSource S :=
  if list.state.height < height then
    .unchanged
  else
    let revert := height - 1
    match (list.stateHistory.find? revert).filter fun state => !state.onlyLoadedQuorums with
    | some state => .history state
    | none =>
      let interval := revert - revert % storeLongTermStateInterval
      match (list.stateArchive.find? interval).filter fun state =>
          !state.onlyLoadedQuorums with
      | some state => .archive interval state
      | none => .reinitialise

/-- Only a list that starts anew gets other old quorums. -/
def RecordedList.blockchainDetached (main : List (ChainBlock P)) (height : Nat) : RecordedList where
  list := recorded.list.blockchainDetached env main height
  oldQuorumStates :=
    match detachSource recorded.list height with
    | .reinitialise =>
      if env.networkVersion main.length < Hf.hf9MasterNodes then []
      else storage.loadOldQuorumStates main
    | _ => recorded.oldQuorumStates

/-! ## Looking quorums up -/

/-- The quorums of a height, among the states and then among the old quorums. -/
def RecordedList.quorumsAt (height : Nat) (includeOld : Bool) : Option QuorumManager :=
  let states :=
    if height = recorded.list.state.height then
      some recorded.list.state
    else
      (recorded.list.stateHistory.find? height).or (recorded.list.stateArchive.find? height)
  match states with
  | some state => some state.nodes.quorums
  | none =>
    if includeOld then
      let place := lowerBound (fun entry => decide (entry.height < height))
        recorded.oldQuorumStates
      ((recorded.oldQuorumStates[place]?).filter fun entry => entry.height == height).map
        QuorumsByHeight.quorums
    else
      none

def RecordedList.getQuorum (type : QuorumType) (height : UInt64) (includeOld : Bool) :
    Option Quorum :=
  (recorded.quorumsAt (offsetTestingQuorumHeight type height).toNat includeOld).bind fun
    quorums => quorums.get type

/-! ## Runs -/

/-- A call that follows the main chain.  The first block never leaves the chain, so that a
detached list always has a height to go back to. -/
inductive ListEvent (P : Type) where
  | processBlock (block : Block P)
  | blockchainDetached (main : List (ChainBlock P)) (revertToHeight : Nat)

/-- A list beside the quorums that were generated for the heights of the current chain. -/
structure Tracked where
  generated : Nat -> Option QuorumManager
  recorded : RecordedList

/-- A block generates the quorums of its height; detached blocks take theirs along. -/
def Tracked.apply (t : Tracked) :
    ListEvent P -> Tracked
  | .processBlock block =>
    let recorded := t.recorded.processBlock env storage block
    { generated :=
        if block.majorVersion < Hf.hf9MasterNodes then
          t.generated
        else
          Function.update t.generated recorded.list.state.height
            (some recorded.list.state.nodes.quorums)
      recorded := recorded }
  | .blockchainDetached main revertToHeight =>
    { generated := fun height => if height <= revertToHeight then t.generated height else none
      recorded := t.recorded.blockchainDetached env storage main (revertToHeight + 1) }

def Tracked.run (t : Tracked) (events : List (ListEvent P)) : Tracked :=
  events.foldl (Tracked.apply env storage) t

/-- The old quorums are in order and of the current chain, so that whatever is found for a
height was generated for it on the current chain, and every old quorum is found. -/
structure LooksUp (t : Tracked) : Prop where
  increasing : t.recorded.oldQuorumStates.Pairwise fun a b => a.height < b.height
  onChain : forall entry, entry ∈ t.recorded.oldQuorumStates ->
    t.generated entry.height = some entry.quorums
  found : forall entry, entry ∈ t.recorded.oldQuorumStates ->
    t.recorded.quorumsAt entry.height true = some entry.quorums
  lookup : forall type height quorum, t.recorded.getQuorum type height true = some quorum ->
    exists quorums, t.generated (offsetTestingQuorumHeight type height).toNat = some quorums ∧
      quorums.get type = some quorum

/-! ## Sound lists -/

def RecordedList.Recent (height : Nat) : Prop :=
  height = recorded.list.state.height ∨ (recorded.list.stateHistory.find? height).isSome

/-- Everything that the list knows is of the current chain; the archive and the old quorums
lie below the history. -/
structure Sound (t : Tracked) : Prop where
  ordered : Ordered t.recorded.list
  state : t.generated t.recorded.list.state.height = some t.recorded.list.state.nodes.quorums
  history : forall h state, t.recorded.list.stateHistory.find? h = some state ->
    t.generated h = some state.nodes.quorums
  archive : forall h state, t.recorded.list.stateArchive.find? h = some state ->
    t.generated h = some state.nodes.quorums
  old : forall entry, entry ∈ t.recorded.oldQuorumStates ->
    t.generated entry.height = some entry.quorums
  increasing : t.recorded.oldQuorumStates.Pairwise fun a b => a.height < b.height
  archive_below : forall h state, t.recorded.list.stateArchive.find? h = some state ->
    forall r, t.recorded.Recent r -> h < r
  old_below : forall entry, entry ∈ t.recorded.oldQuorumStates ->
    forall r, t.recorded.Recent r -> entry.height < r

variable {height : Nat} {quorums : QuorumManager}

theorem RecordedList.quorumsAt_eq_some {recorded : RecordedList}
    (h : recorded.quorumsAt height true = some quorums) :
    (height = recorded.list.state.height ∧ quorums = recorded.list.state.nodes.quorums) ∨
      (exists state, (recorded.list.stateHistory.find? height = some state ∨
          recorded.list.stateArchive.find? height = some state) ∧
        quorums = state.nodes.quorums) ∨
      exists entry, entry ∈ recorded.oldQuorumStates ∧ entry.height = height ∧
        quorums = entry.quorums := by
  unfold RecordedList.quorumsAt at h
  simp only at h
  split at h
  next state hst =>
    have hquors := (Option.some.inj h).symm
    split at hst
    next hht =>
      cases hst
      exact Or.inl ⟨hht, hquors⟩
    · refine Or.inr (Or.inl ⟨state, ?_, hquors⟩)
      rcases Option.or_eq_some_iff.mp hst with hfind | ⟨_, hfind⟩
      · exact Or.inl hfind
      · exact Or.inr hfind
  · rw [if_pos True.intro] at h
    rcases Option.map_eq_some_iff.mp h with ⟨entry, hent, hquors⟩
    rcases Option.filter_eq_some_iff.mp hent with ⟨hget, hht⟩
    exact Or.inr (Or.inr ⟨entry, mem_of_getElem? hget, beq_iff_eq.mp hht, hquors.symm⟩)

variable {t : Tracked}

theorem Sound.generated_quorumsAt (ht : Sound t)
    (h : t.recorded.quorumsAt height true = some quorums) : t.generated height = some quorums := by
  rcases RecordedList.quorumsAt_eq_some h with ⟨rfl, rfl⟩ | ⟨state, hfind, rfl⟩ |
    ⟨entry, hent, rfl, rfl⟩
  · exact ht.state
  · rcases hfind with hfind | hfind
    · exact ht.history height state hfind
    · exact ht.archive height state hfind
  · exact ht.old entry hent

variable {entry : QuorumsByHeight}

theorem Sound.quorumsAt_old (ht : Sound t) (hent : entry ∈ t.recorded.oldQuorumStates) :
    t.recorded.quorumsAt entry.height true = some entry.quorums := by
  have hsome : exists quorums, t.recorded.quorumsAt entry.height true = some quorums := by
    unfold RecordedList.quorumsAt
    simp only
    split
    · exact ⟨_, rfl⟩
    · refine ⟨entry.quorums, ?_⟩
      rw [if_pos True.intro, getElem?_lowerBound ht.increasing hent, Option.filter_some,
        if_pos (beq_iff_eq.mpr rfl)]
      rfl
  rcases hsome with ⟨quorums, hquors⟩
  rw [hquors, <- ht.generated_quorumsAt hquors]
  exact ht.old entry hent

theorem Sound.looksUp (ht : Sound t) : LooksUp t where
  increasing := ht.increasing
  onChain := ht.old
  found := fun _ hent => ht.quorumsAt_old hent
  lookup := by
    intro type height quorum hquor
    rcases Option.bind_eq_some_iff.mp hquor with ⟨quorums, hquors, hget⟩
    exact ⟨quorums, ht.generated_quorumsAt hquors, hget⟩

/-! ## The states that leave the history -/

variable {states : Table Nat (MasterNodeState Nodes)} {state : MasterNodeState Nodes}

theorem mem_statesInOrder :
    state ∈ statesInOrder states <-> exists height, states.find? height = some state := by
  constructor
  · intro h
    rcases mem_map.mp h with ⟨entry, hent, rfl⟩
    rw [mem_insertionSort] at hent
    exact ⟨entry.1, states.find?_eq_some_of_mem hent⟩
  · rintro ⟨height, hfind⟩
    refine mem_map.mpr ⟨(height, state), ?_, rfl⟩
    rw [mem_insertionSort]
    exact states.mem_of_find?_eq_some hfind

theorem pairwise_statesInOrder
    (hkeyed : forall h state, states.find? h = some state -> state.height = h) :
    (statesInOrder states).Pairwise fun a b => a.height < b.height := by
  have hkeys : (statesInOrder states).map MasterNodeState.height =
      (states.entries.map Prod.fst).insertionSort (fun a b => a <= b) := by
    rw [<- map_insertionSort (fun a b => a.1 <= b.1) _ Prod.fst _ fun _ _ _ _ => Iff.rfl]
    unfold statesInOrder
    rw [map_map]
    refine map_congr_left ?_
    intro entry hent
    rw [mem_insertionSort] at hent
    exact hkeyed _ _ (states.find?_eq_some_of_mem hent)
  refine pairwise_map.mp (?_ : List.Pairwise (fun a b : Nat => a < b) _)
  rw [hkeys]
  have hsort := pairwise_insertionSort (fun a b : Nat => a <= b) (states.entries.map Prod.fst)
  have hnodup := (perm_insertionSort (fun a b : Nat => a <= b) _).nodup_iff.mpr states.nodup
  exact (hsort.and hnodup).imp fun hab => Nat.lt_of_le_of_ne hab.1 hab.2

theorem mem_statesUpTo {bound : Nat} :
    state ∈ statesUpTo states bound <->
      exists height, height <= bound ∧ states.find? height = some state := by
  refine mem_statesInOrder.trans (exists_congr ?_)
  intro height
  rw [find?_restrict_eq_some, decide_eq_true_eq]

theorem pairwise_statesUpTo
    (hkeyed : forall h state, states.find? h = some state -> state.height = h) (bound : Nat) :
    (statesUpTo states bound).Pairwise fun a b => a.height < b.height := by
  refine pairwise_statesInOrder ?_
  exact fun h state hfind => hkeyed h state (find?_restrict_eq_some.mp hfind).2

variable {culled : List (MasterNodeState Nodes)} {old : List QuorumsByHeight}

theorem mem_recordCulled {store : UInt64} (h : entry ∈ recordCulled store culled old) :
    entry ∈ old ∨ exists state, state ∈ culled ∧ entry = ⟨state.height, state.nodes.quorums⟩ := by
  have hmem := mem_of_mem_drop h
  split at hmem
  · exact Or.inl hmem
  · rcases mem_append.mp hmem with hmem | hmem
    · exact Or.inl hmem
    · rcases mem_map.mp hmem with ⟨state, hst, rfl⟩
      exact Or.inr ⟨state, hst, rfl⟩

theorem pairwise_recordCulled (hold : old.Pairwise fun a b => a.height < b.height)
    (hculled : culled.Pairwise fun a b => a.height < b.height)
    (hbelow : forall entry, entry ∈ old -> forall state, state ∈ culled ->
      entry.height < state.height) (store : UInt64) :
    (recordCulled store culled old).Pairwise fun a b => a.height < b.height := by
  refine List.Pairwise.sublist (drop_sublist _ _) ?_
  split
  · exact hold
  · refine pairwise_append.mpr ⟨hold, pairwise_map.mpr hculled, ?_⟩
    intro entry hent new hnew
    rcases mem_map.mp hnew with ⟨state, hst, rfl⟩
    exact hbelow entry hent state hst

/-! ## Steps -/

def KeepsQuorums : Prop :=
  forall nodes, (env.stripNodes nodes).quorums = nodes.quorums

section Steps

variable {env : Environment P Nodes N Blob} {storage : HistoryStorage P}

theorem KeepsQuorums.archived (hkeeps : KeepsQuorums env) {state kept : MasterNodeState Nodes}
    (h : archived env state = some kept) : kept.nodes.quorums = state.nodes.quorums := by
  unfold Chain.archived at h
  simp only at h
  split at h
  · cases h
    exact hkeeps state.nodes
  · split at h
    · cases h
      rfl
    · cases h

theorem recent_processBlock {list : MasterNodeList Nodes} {old : List QuorumsByHeight}
    {block : Block P} {r : Nat} (h : RecordedList.Recent ⟨(list.processBlock env block).1, old⟩ r) :
    r = list.state.height + 1 ∨ r = list.state.height ∨
      cullHeightOf block < r ∧ (list.stateHistory.find? r).isSome := by
  rcases h with h | h
  · exact Or.inl h
  · rcases Option.isSome_iff_exists.mp h with ⟨state, hst⟩
    rcases history_processBlock_cases hst with ⟨hcull, hst⟩ | ⟨hr, _⟩
    · exact Or.inr (Or.inr ⟨hcull, Option.isSome_of_eq_some hst⟩)
    · exact Or.inr (Or.inl hr)

/-- Nothing that the list knows is above its state. -/
theorem Sound.agree {t : Tracked} (ht : Sound t) {generated : Nat -> Option QuorumManager}
    (hsame : forall h, h <= t.recorded.list.state.height -> generated h = t.generated h) :
    Sound ⟨generated, t.recorded⟩ := by
  refine ⟨ht.ordered, ?_, ?_, ?_, ?_, ht.increasing, ht.archive_below, ht.old_below⟩
  · exact (hsame _ (le_refl _)).trans ht.state
  · intro h state hfind
    have hlt := (ht.ordered.history h state hfind).2
    exact (hsame h (le_of_lt hlt)).trans (ht.history h state hfind)
  · intro h state hfind
    have hlt := ht.archive_below h state hfind _ (Or.inl rfl)
    exact (hsame h (le_of_lt hlt)).trans (ht.archive h state hfind)
  · intro entry hent
    have hlt := ht.old_below entry hent _ (Or.inl rfl)
    exact (hsame _ (le_of_lt hlt)).trans (ht.old entry hent)

theorem Sound.processBlock (hkeeps : KeepsQuorums env) {t : Tracked} (ht : Sound t)
    (block : Block P) : Sound (t.apply env storage (.processBlock block)) := by
  rcases t with ⟨generated, list, old⟩
  unfold Tracked.apply RecordedList.processBlock
  dsimp only
  split
  · exact ht
  dsimp only
  -- what was generated for the heights up to the one before the block stays
  replace ht := ht.agree fun h (hle : h <= list.state.height) =>
    Function.update_of_ne (Nat.ne_of_lt (Nat.lt_succ_of_le hle))
      (some (list.processBlock env block).1.state.nodes.quorums) generated
  have hkeyed : forall h state, list.stateHistory.find? h = some state ->
      state.height = h ∧ h < list.state.height := ht.ordered.history
  -- what lay below the states that were there in full lies below those that are
  have hbelow : forall h, (forall r, RecordedList.Recent ⟨list, old⟩ r -> h < r) ->
      forall kept r, RecordedList.Recent ⟨(list.processBlock env block).1, kept⟩ r -> h < r := by
    intro h hrecent kept r hr
    have hst := hrecent list.state.height (Or.inl rfl)
    rcases recent_processBlock hr with hr | hr | ⟨_, hr⟩
    · omega
    · omega
    · exact hrecent r (Or.inr hr)
  have hculled : forall h state, list.stateHistory.find? h = some state ->
      h <= cullHeightOf block ->
      forall kept r, RecordedList.Recent ⟨(list.processBlock env block).1, kept⟩ r -> h < r := by
    intro h state hfind hcull kept r hr
    have hlt := (hkeyed h state hfind).2
    rcases recent_processBlock hr with hr | hr | ⟨hr, _⟩
    · omega
    · omega
    · omega
  refine ⟨ht.ordered.processBlock block, ?_, ?_, ?_, ?_, ?_, ?_, ?_⟩
  · exact Function.update_self _ _ _
  · intro h state hfind
    rcases history_processBlock_cases hfind with ⟨_, hfind⟩ | ⟨rfl, rfl⟩
    · exact ht.history h state hfind
    · exact ht.state
  · intro h state hfind
    rcases ht.ordered.archive_processBlock_cases hfind with hfind | ⟨_, left, hleft, hkept⟩
    · exact ht.archive h state hfind
    · rw [hkeeps.archived hkept]
      exact ht.history h left hleft
  · intro entry hent
    rcases mem_recordCulled hent with hent | ⟨state, hst, rfl⟩
    · exact ht.old entry hent
    · rcases mem_statesUpTo.mp hst with ⟨h, _, hfind⟩
      rcases (hkeyed h state hfind).1 with rfl
      exact ht.history _ state hfind
  · refine pairwise_recordCulled ht.increasing
      (pairwise_statesUpTo (fun h state hfind => (hkeyed h state hfind).1) _) ?_ _
    intro entry hent state hst
    rcases mem_statesUpTo.mp hst with ⟨h, _, hfind⟩
    rw [(hkeyed h state hfind).1]
    exact ht.old_below entry hent h (Or.inr (Option.isSome_of_eq_some hfind))
  · intro h state hfind
    rcases ht.ordered.archive_processBlock_cases hfind with hfind | ⟨hcull, left, hleft, _⟩
    · exact hbelow h (ht.archive_below h state hfind) _
    · exact hculled h left hleft hcull _
  · intro entry hent
    rcases mem_recordCulled hent with hent | ⟨state, hst, rfl⟩
    · exact hbelow _ (ht.old_below entry hent) _
    · rcases mem_statesUpTo.mp hst with ⟨h, hcull, hfind⟩
      rcases (hkeyed h state hfind).1 with rfl
      exact hculled _ state hfind hcull _

end Steps

/-! ## Detaching -/

theorem blockchainDetached_eq (list : MasterNodeList Nodes) (main : List (ChainBlock P))
    (height : Nat) :
    list.blockchainDetached env main height =
      match detachSource list height with
      | .unchanged => list
      | .history state =>
        { list with
          state := state
          stateHistory := list.stateHistory.restrict fun h => h < height - 1 }
      | .archive interval state =>
        { list with
          state := state
          stateHistory := empty
          stateArchive := list.stateArchive.restrict fun h => h < interval }
      | .reinitialise => initMasterNodeList env main := by
  unfold MasterNodeList.blockchainDetached
  fun_cases detachSource list height with
  | case1 hht => simp only [if_pos hht]
  | case2 hht revert state hhist => simp only [if_neg hht, hhist, revert]
  | case3 hht revert hhist interval state harchive | case4 hht revert hhist interval harchive =>
    simp only [if_neg hht, hhist, harchive, revert, interval]

theorem detachSource_spec (list : MasterNodeList Nodes) (height : Nat) :
    match detachSource list height with
    | .unchanged => list.state.height < height
    | .history state => list.stateHistory.find? (height - 1) = some state
    | .archive interval state =>
      interval = height - 1 - (height - 1) % storeLongTermStateInterval ∧
        list.stateArchive.find? interval = some state
    | .reinitialise => height <= list.state.height := by
  fun_cases detachSource list height with
  | case1 hht => exact hht
  | case2 hht revert state hhist => exact (Option.filter_eq_some_iff.mp hhist).1
  | case3 hht revert hhist interval state harchive =>
    exact ⟨rfl, (Option.filter_eq_some_iff.mp harchive).1⟩
  | case4 hht => exact not_lt.mp hht

/-- The states and the old quorums in the database are of the chain, and not above a
height. -/
structure HoldsChain (generated : Nat -> Option QuorumManager) (main : List (ChainBlock P))
    (revertToHeight : Nat) : Prop where
  height_le : (env.loadMasterNodeList main).state.height <= revertToHeight
  sound : Sound ⟨generated, env.loadMasterNodeList main, storage.loadOldQuorumStates main⟩

/-- A detached list that goes back to the archive must not have old quorums from there on.
One that starts anew must be of the chain, as a fresh list or as the one that the database
holds. -/
def Clean (t : Tracked) : ListEvent P -> Prop
  | .processBlock _ => True
  | .blockchainDetached main revertToHeight =>
    match detachSource t.recorded.list (revertToHeight + 1) with
    | .archive interval _ =>
      forall entry, entry ∈ t.recorded.oldQuorumStates -> entry.height < interval
    | .reinitialise =>
      if env.networkVersion main.length < Hf.hf9MasterNodes then
        env.initialState.height <= revertToHeight ∧
          t.generated env.initialState.height = some env.initialState.nodes.quorums
      else
        HoldsChain env storage t.generated main revertToHeight
    | _ => True

section Detaching

variable {env : Environment P Nodes N Blob} {storage : HistoryStorage P}
  {t : Tracked} {revert : Nat}

theorem Sound.detached (ht : Sound t) (hbehind : t.recorded.list.state.height <= revert) :
    Sound ⟨fun height => if height <= revert then t.generated height else none, t.recorded⟩ :=
  ht.agree fun _ hle => if_pos (hle.trans hbehind)

theorem sound_reset {generated : Nat -> Option QuorumManager}
    (h : generated env.initialState.height = some env.initialState.nodes.quorums) :
    Sound ⟨generated, resetMasterNodeList env, []⟩ where
  ordered := ⟨(fun _ _ hfind => nomatch hfind), fun _ _ hfind => nomatch hfind⟩
  state := h
  history := fun _ _ hfind => nomatch hfind
  archive := fun _ _ hfind => nomatch hfind
  old := fun _ hent => nomatch hent
  increasing := List.Pairwise.nil
  archive_below := fun _ _ hfind => nomatch hfind
  old_below := fun _ hent => nomatch hent

variable {state : MasterNodeState Nodes}

theorem Sound.fromHistory (ht : Sound t)
    (hst : t.recorded.list.stateHistory.find? revert = some state) :
    Sound ⟨t.generated,
      { list :=
          { t.recorded.list with
            state := state
            stateHistory := t.recorded.list.stateHistory.restrict fun h => h < revert }
        oldQuorumStates := t.recorded.oldQuorumStates }⟩ := by
  rcases t with ⟨generated, list, old⟩
  have hkeyed : state.height = revert := (ht.ordered.history revert state hst).1
  have hrevert : RecordedList.Recent ⟨list, old⟩ revert := Or.inr (Option.isSome_of_eq_some hst)
  have hrecent : forall r, RecordedList.Recent
      ⟨{ list with
          state := state
          stateHistory := list.stateHistory.restrict fun h => h < revert }, old⟩ r ->
      RecordedList.Recent ⟨list, old⟩ r := by
    intro r hr
    rcases hr with hr | hr
    · rw [hr, hkeyed]
      exact hrevert
    · rcases Option.isSome_iff_exists.mp hr with ⟨older, holder⟩
      exact Or.inr (Option.isSome_of_eq_some (find?_restrict_eq_some.mp holder).2)
  refine ⟨⟨?_, ht.ordered.archive⟩, ?_, ?_, ht.archive, ht.old, ht.increasing, ?_, ?_⟩
  · intro h older hfind
    rcases find?_restrict_eq_some.mp hfind with ⟨hlt, hfind⟩
    exact ⟨(ht.ordered.history h older hfind).1, hkeyed.symm ▸ of_decide_eq_true hlt⟩
  · rw [hkeyed]
    exact ht.history revert state hst
  · intro h older hfind
    exact ht.history h older (find?_restrict_eq_some.mp hfind).2
  · intro h older hfind r hr
    exact ht.archive_below h older hfind r (hrecent r hr)
  · intro entry hent r hr
    exact ht.old_below entry hent r (hrecent r hr)

theorem Sound.fromArchive (ht : Sound t) {interval : Nat}
    (hst : t.recorded.list.stateArchive.find? interval = some state)
    (hclean : forall entry, entry ∈ t.recorded.oldQuorumStates -> entry.height < interval) :
    Sound ⟨t.generated,
      { list :=
          { t.recorded.list with
            state := state
            stateHistory := empty
            stateArchive := t.recorded.list.stateArchive.restrict fun h => h < interval }
        oldQuorumStates := t.recorded.oldQuorumStates }⟩ := by
  rcases t with ⟨generated, list, old⟩
  have hkeyed : state.height = interval := ht.ordered.archive interval state hst
  have hrecent : forall r, RecordedList.Recent
      ⟨{ list with
          state := state
          stateHistory := empty
          stateArchive := list.stateArchive.restrict fun h => h < interval }, old⟩ r ->
      r = interval := by
    intro r hr
    rcases hr with hr | hr
    · exact hr.trans hkeyed
    · cases hr
  refine ⟨⟨?_, ?_⟩, ?_, ?_, ?_, ht.old, ht.increasing, ?_, ?_⟩
  · intro h older hfind
    cases hfind
  · intro h older hfind
    exact ht.ordered.archive h older (find?_restrict_eq_some.mp hfind).2
  · rw [hkeyed]
    exact ht.archive interval state hst
  · intro h older hfind
    cases hfind
  · intro h older hfind
    exact ht.archive h older (find?_restrict_eq_some.mp hfind).2
  · intro h older hfind r hr
    rw [hrecent r hr]
    exact of_decide_eq_true (find?_restrict_eq_some.mp hfind).1
  · intro entry hent r hr
    rw [hrecent r hr]
    exact hclean entry hent

theorem Sound.apply (hkeeps : KeepsQuorums env) (ht : Sound t) {event : ListEvent P}
    (hclean : Clean env storage t event) : Sound (t.apply env storage event) := by
  cases event with
  | processBlock block => exact ht.processBlock hkeeps block
  | blockchainDetached main revert =>
    have hspec := detachSource_spec t.recorded.list (revert + 1)
    unfold Clean at hclean
    cases hsource : detachSource t.recorded.list (revert + 1) with
    | reinitialise =>
      simp only [hsource] at hclean
      unfold Tracked.apply RecordedList.blockchainDetached
      simp only [blockchainDetached_eq, hsource, initMasterNodeList]
      split at hclean
      next hver =>
        simp only [if_pos hver]
        exact (sound_reset hclean.2).detached hclean.1
      next hver =>
        simp only [if_neg hver]
        -- the alternative states play no part
        have hsound := hclean.sound
        have hloaded : Sound ⟨t.generated,
            { env.loadMasterNodeList main with altState := empty },
            storage.loadOldQuorumStates main⟩ :=
          ⟨⟨hsound.ordered.history, hsound.ordered.archive⟩, hsound.state, hsound.history,
            hsound.archive, hsound.old, hsound.increasing, hsound.archive_below,
            hsound.old_below⟩
        exact hloaded.detached hclean.height_le
    | unchanged =>
      simp only [hsource] at hspec
      unfold Tracked.apply RecordedList.blockchainDetached
      simp only [blockchainDetached_eq, hsource]
      exact ht.detached (Nat.lt_succ_iff.mp hspec)
    | history state =>
      simp only [hsource, Nat.add_sub_cancel] at hspec
      unfold Tracked.apply RecordedList.blockchainDetached
      simp only [blockchainDetached_eq, hsource, Nat.add_sub_cancel]
      exact (ht.fromHistory hspec).detached (le_of_eq (ht.ordered.history revert state hspec).1)
    | archive interval state =>
      simp only [hsource, Nat.add_sub_cancel] at hspec hclean
      unfold Tracked.apply RecordedList.blockchainDetached
      simp only [blockchainDetached_eq, hsource]
      refine (ht.fromArchive hspec.2 hclean).detached ?_
      rw [ht.ordered.archive interval state hspec.2, hspec.1]
      exact Nat.sub_le _ _

/-! ## Whole runs -/

variable (env storage) in
def CleanRun : Tracked -> List (ListEvent P) -> Prop
  | _, [] => True
  | t, event :: rest => Clean env storage t event ∧ CleanRun (t.apply env storage event) rest

theorem Sound.run (hkeeps : KeepsQuorums env) (ht : Sound t) {events : List (ListEvent P)}
    (hclean : CleanRun env storage t events) : Sound (t.run env storage events) := by
  induction events generalizing t with
  | nil => exact ht
  | cons event rest ih => exact ih (ht.apply hkeeps hclean.1) hclean.2

theorem cleanRun_processBlocks (t : Tracked) (blocks : List (Block P)) :
    CleanRun env storage t (blocks.map ListEvent.processBlock) := by
  induction blocks generalizing t with
  | nil => exact True.intro
  | cons block rest ih => exact ⟨True.intro, ih _⟩

def Tracked.start (env : Environment P Nodes N Blob) : Tracked where
  generated := fun height =>
    if height = env.initialState.height then some env.initialState.nodes.quorums else none
  recorded := ⟨resetMasterNodeList env, []⟩

variable (env) in
theorem sound_start : Sound (Tracked.start env) :=
  sound_reset (if_pos rfl)

end Detaching

end Beldex.NodeList
