import Beldex.NodeList.QuorumHistory

/-!
# Old quorums after going back to the archive

A list that goes back to an archived state processes the blocks above it again, and
their states leave the history once more.  Unless the old quorums end below the
archived state, they are then out of order.
-/

namespace Beldex.NodeList

open Basic Chain Crypto Foundation Voting Table List

variable {P N Blob : Type}

theorem blocksAfter_append (height count count' : Nat) :
    (blocksAfter height (count + count') : List (Block P)) =
      blocksAfter height count ++ blocksAfter (height + count) count' := by
  induction count generalizing height with
  | zero => rw [zero_add]; rfl
  | succ count ih =>
    rw [Nat.succ_add, blocksAfter, ih, blocksAfter, add_right_comm height 1 count]
    rfl

/-! ## Waiting for a state to leave the history again -/

section

variable {env : Environment P Nodes N Blob} {storage : HistoryStorage P}

theorem recordCulled_append {store : UInt64} (hstore : 2 <= store.toNat)
    {culled : List (MasterNodeState Nodes)} {old first last : List QuorumsByHeight}
    (h : old ++ culled.map (fun state => ⟨state.height, state.nodes.quorums⟩) = first ++ last)
    (hlast : last.length <= 2) :
    exists kept, recordCulled store culled old = kept ++ last := by
  have henabled : store ≠ 0 := by
    rintro rfl
    exact absurd hstore (by decide)
  unfold recordCulled
  simp only [if_neg henabled, h]
  refine ⟨first.drop ((first ++ last).length - store.toNat), drop_append_of_le_length ?_⟩
  rw [length_append]
  omega

theorem recorded_run (t : Tracked) (blocks : List (Block P)) :
    (t.run env storage (blocks.map ListEvent.processBlock)).recorded =
      blocks.foldl (RecordedList.processBlock env storage) t.recorded := by
  induction blocks generalizing t with
  | nil => rfl
  | cons block rest ih => exact ih _

variable {block : Block P}

theorem RecordedList.processBlock_of_le (recorded : RecordedList)
    (hver : Hf.hf9MasterNodes <= block.majorVersion) :
    recorded.processBlock env storage block =
      { list := (recorded.list.processBlock env block).1
        oldQuorumStates :=
          recordCulled storage.storeQuorumHistory
            (statesUpTo recorded.list.stateHistory (cullHeightOf block))
            recorded.oldQuorumStates } :=
  if_neg fun hlt => (Hf.lt_iff_not_le _ _).mp hlt hver

/-- The state of a height is the lowest one in the history, while the last of the old
quorums is not below it. -/
structure Waiting (height : Nat) (recorded : RecordedList) : Prop where
  ordered : Ordered recorded.list
  present : (recorded.list.stateHistory.find? height).isSome
  lowest : forall h state, recorded.list.stateHistory.find? h = some state -> height <= h
  last : exists first entry, recorded.oldQuorumStates = first ++ [entry] ∧ height <= entry.height

theorem statesUpTo_eq_nil {states : Table Nat (MasterNodeState Nodes)} {bound : Nat}
    (h : forall height state, states.find? height = some state -> bound < height) :
    statesUpTo states bound = [] := by
  refine eq_nil_iff_forall_not_mem.mpr ?_
  intro state hst
  rcases mem_statesUpTo.mp hst with ⟨height, hle, hfind⟩
  have hlt := h height state hfind
  omega

variable {height : Nat} {recorded : RecordedList} (hstore : 2 <= storage.storeQuorumHistory.toNat)
include hstore

variable (env) in
theorem last_processBlock (hver : Hf.hf9MasterNodes <= block.majorVersion)
    (hquiet : forall h state, recorded.list.stateHistory.find? h = some state ->
      cullHeightOf block < h)
    (hlast : exists first entry, recorded.oldQuorumStates = first ++ [entry] ∧
      height <= entry.height) :
    exists first entry,
      (recorded.processBlock env storage block).oldQuorumStates = first ++ [entry] ∧
        height <= entry.height := by
  rcases hlast with ⟨first, entry, hold, hle⟩
  rw [recorded.processBlock_of_le hver]
  simp only [statesUpTo_eq_nil hquiet]
  rcases recordCulled_append hstore
      (show recorded.oldQuorumStates ++ map _ [] = _ from (append_nil _).trans hold)
      (Nat.le_succ 1) with ⟨kept, hkept⟩
  exact ⟨kept, entry, hkept, hle⟩

theorem Waiting.processBlock (h : Waiting height recorded)
    (hver : Hf.hf9MasterNodes <= block.majorVersion) (hcull : cullHeightOf block < height) :
    Waiting height (recorded.processBlock env storage block) := by
  have hquiet : forall r state, recorded.list.stateHistory.find? r = some state ->
      cullHeightOf block < r := by
    intro r state hfind
    have hle := h.lowest r state hfind
    omega
  have hlast := last_processBlock env hstore hver hquiet h.last
  rw [recorded.processBlock_of_le hver] at hlast ⊢
  refine ⟨h.ordered.processBlock block, ?_, ?_, hlast⟩
  · rcases Option.isSome_iff_exists.mp h.present with ⟨state, hst⟩
    rw [find?_history_processBlock, if_pos hcull, hst]
    rfl
  · intro r state hfind
    rcases history_processBlock_cases hfind with ⟨_, hfind⟩ | ⟨hr, _⟩
    · exact h.lowest r state hfind
    · rcases Option.isSome_iff_exists.mp h.present with ⟨lowest, hlowest⟩
      rw [hr]
      exact le_of_lt (h.ordered.history height lowest hlowest).2

theorem Waiting.processBlocks (h : Waiting height recorded) {blocks : List (Block P)}
    (hblocks : OnTop recorded.list.state.height blocks) (hcull : blocks = [] ∨
      shortTermStateCullHeight (recorded.list.state.height + blocks.length) < height) :
    Waiting height (blocks.foldl (RecordedList.processBlock env storage) recorded) := by
  induction blocks generalizing recorded with
  | nil => exact h
  | cons block rest ih =>
    have hlast : shortTermStateCullHeight
        (recorded.list.state.height + (rest.length + 1)) < height :=
      hcull.resolve_left (cons_ne_nil _ _)
    have hstep : Waiting height (recorded.processBlock env storage block) := by
      refine h.processBlock hstore hblocks.1.2 (lt_of_le_of_lt ?_ hlast)
      rw [cullHeightOf, hblocks.1.1]
      exact shortTermStateCullHeight_mono (by omega)
    have hht : (recorded.processBlock env storage block).list.state.height =
        recorded.list.state.height + 1 := by
      rw [recorded.processBlock_of_le hblocks.1.2]
      rfl
    refine ih hstep (by rw [hht]; exact hblocks.2) (Or.inr ?_)
    rw [hht, add_assoc, add_comm 1]
    exact hlast

omit hstore in
theorem Waiting.statesUpTo_eq (h : Waiting height recorded) :
    exists state, statesUpTo recorded.list.stateHistory height = [state] ∧
      state.height = height := by
  have hkeyed : forall r state, recorded.list.stateHistory.find? r = some state ->
      state.height = r :=
    fun r state hfind => (h.ordered.history r state hfind).1
  have hhts : forall state, state ∈ statesUpTo recorded.list.stateHistory height ->
      state.height = height := by
    intro state hst
    rcases mem_statesUpTo.mp hst with ⟨r, hle, hfind⟩
    rw [hkeyed r state hfind]
    exact le_antisymm hle (h.lowest r state hfind)
  have hsort := pairwise_statesUpTo hkeyed height
  rcases Option.isSome_iff_exists.mp h.present with ⟨lowest, hlowest⟩
  have hmem := mem_statesUpTo.mpr ⟨height, le_refl _, hlowest⟩
  cases hstates : statesUpTo recorded.list.stateHistory height with
  | nil =>
    rw [hstates] at hmem
    cases hmem
  | cons state rest =>
    rw [hstates] at hhts hsort
    have hst := hhts state mem_cons_self
    cases rest with
    | nil => exact ⟨state, rfl, hst⟩
    | cons other rest =>
      have hother := hhts other (mem_cons_of_mem _ mem_cons_self)
      have hlt := rel_of_pairwise_cons hsort mem_cons_self
      omega

theorem Waiting.disorders (h : Waiting height recorded)
    (hver : Hf.hf9MasterNodes <= block.majorVersion) (hcull : cullHeightOf block = height) :
    ¬ (recorded.processBlock env storage block).oldQuorumStates.Pairwise
      fun a b => a.height < b.height := by
  rcases h.statesUpTo_eq with ⟨state, hculled, hst⟩
  rcases h.last with ⟨first, entry, hold, hle⟩
  rw [recorded.processBlock_of_le hver, hcull]
  simp only [hculled]
  have happend : recorded.oldQuorumStates ++
      [state].map (fun state => (⟨state.height, state.nodes.quorums⟩ : QuorumsByHeight)) =
      first ++ [entry, ⟨state.height, state.nodes.quorums⟩] := by
    rw [hold, append_assoc]
    rfl
  rcases recordCulled_append hstore happend (le_refl 2) with ⟨kept, hkept⟩
  rw [hkept]
  intro hsort
  have hpair := (pairwise_append.mp hsort).2.1
  have hlt := rel_of_pairwise_cons hpair mem_cons_self
  change entry.height < state.height at hlt
  omega

/-! ## Going back to the archive -/

variable (hordered : Ordered recorded.list) (hempty : recorded.list.stateHistory = empty)
  (hlast : exists first entry, recorded.oldQuorumStates = first ++ [entry] ∧
    recorded.list.state.height <= entry.height)
include hordered hempty hlast

theorem waiting_processBlock (hver : Hf.hf9MasterNodes <= block.majorVersion) :
    Waiting recorded.list.state.height (recorded.processBlock env storage block) := by
  have hnone : forall h state, recorded.list.stateHistory.find? h ≠ some state := by
    intro h state hfind
    rw [hempty] at hfind
    cases hfind
  have hnext := last_processBlock env hstore hver
    (fun h state hfind => absurd hfind (hnone h state)) hlast
  rw [recorded.processBlock_of_le hver] at hnext ⊢
  have hfind : forall h,
      (recorded.list.processBlock env block).1.stateHistory.find? h =
        if h = recorded.list.state.height then some recorded.list.state else none := by
    intro h
    rw [find?_history_processBlock, hempty, find?_empty, ite_self]
    exact Option.none_or
  refine ⟨hordered.processBlock block, ?_, ?_, hnext⟩
  · rw [hfind, if_pos rfl]
    rfl
  · intro h state hst
    rw [hfind] at hst
    split at hst
    next hh =>
      exact le_of_eq hh.symm
    · cases hst

/-- How many blocks there are between the one that saves the archived state and the one
that culls it. -/
def blocksBetween (interval : Nat) : Nat :=
  if interval = 0 then 0 else 6 * voteLifetime.toNat - 2

omit hstore hordered hempty hlast in
theorem blocksBetween_spec (interval : Nat) :
    blocksBetween interval + 2 <= 6 * voteLifetime.toNat ∧
      (blocksBetween interval = 0 ∨
        shortTermStateCullHeight (interval + 1 + blocksBetween interval) < interval) ∧
      shortTermStateCullHeight (interval + 1 + blocksBetween interval + 1) = interval := by
  have hlifetime : 6 * voteLifetime.toNat = 1440 := by
    decide
  unfold shortTermStateCullHeight blocksBetween
  split
  · omega
  · omega

theorem disordered_after_archive
    (hroom : recorded.list.state.height + 6 * voteLifetime.toNat < 2 ^ 64) :
    exists blocks, OnTop recorded.list.state.height blocks ∧
      ¬ (blocks.foldl (RecordedList.processBlock env storage)
        recorded).oldQuorumStates.Pairwise fun a b => a.height < b.height := by
  let interval := recorded.list.state.height
  rcases blocksBetween_spec interval with ⟨hbetween, hquiet, hcull⟩
  generalize blocksBetween interval = count at hbetween hquiet hcull
  have hsplit : (blocksAfter interval (1 + (count + 1)) : List (Block P)) =
      blockAt (interval + 1) :: (blocksAfter (interval + 1) count ++
        [blockAt (interval + 1 + count + 1)]) := by
    rw [add_comm 1, blocksAfter, blocksAfter_append]
    rfl
  refine ⟨blocksAfter interval (1 + (count + 1)), onTop_blocksAfter (by omega), ?_⟩
  have hver : Hf.hf9MasterNodes <= Hf.hf22PrivacyTokens := by
    decide
  let next := recorded.processBlock env storage (blockAt (interval + 1))
  have hfirst : Waiting interval next :=
    waiting_processBlock hstore hordered hempty hlast hver
  have hht : next.list.state.height = interval + 1 := by
    unfold next
    rw [recorded.processBlock_of_le hver]
    rfl
  have hmiddle : Waiting interval ((blocksAfter (interval + 1) count).foldl
      (RecordedList.processBlock env storage) next) := by
    refine hfirst.processBlocks hstore ?_ ?_
    · rw [hht]
      exact onTop_blocksAfter (by omega)
    · rw [hht, length_blocksAfter]
      refine hquiet.imp_left ?_
      rintro rfl
      rfl
  rw [hsplit, foldl_cons, foldl_append, foldl_cons, foldl_nil]
  refine hmiddle.disorders hstore hver ?_
  rw [cullHeightOf, getBlockHeight_blockAt (by omega)]
  exact hcull

end

/-! ## Whole runs -/

theorem two_le_setQuorumHistoryStorage {histSize : UInt64} (h : histSize ≠ 0) :
    2 <= (setQuorumHistoryStorage histSize).toNat := by
  have hzero : histSize.toNat ≠ 0 := fun heq => h (UInt64.toNat_inj.mp heq)
  unfold setQuorumHistoryStorage
  split
  · decide
  next hone =>
    have hne : histSize.toNat ≠ 1 := fun heq => hone (UInt64.toNat_inj.mp heq)
    omega

/-- In a list in order whose last item is the highest, an item that reaches up to a height
is found at the end. -/
theorem exists_last_of_mem {old : List QuorumsByHeight}
    (hsort : old.Pairwise fun a b => a.height < b.height) {entry : QuorumsByHeight}
    (hent : entry ∈ old) (hle : height <= entry.height) :
    exists first last, old = first ++ [last] ∧ height <= last.height := by
  have hne : old ≠ [] := ne_nil_of_mem hent
  have hsplit := (dropLast_append_getLast hne).symm
  refine ⟨old.dropLast, old.getLast hne, hsplit, ?_⟩
  rw [hsplit] at hent hsort
  rcases mem_append.mp hent with hfirst | hlast
  · have hlt := (pairwise_append.mp hsort).2.2 entry hfirst _ mem_cons_self
    omega
  · rw [<- mem_singleton.mp hlast]
    exact hle

/-- A list that goes back to the archive and stays in order under all further blocks had no
old quorums from there on. -/
theorem clean_of_looksUp {env : Environment P Nodes N Blob} {storage : HistoryStorage P}
    (hstore : 2 <= storage.storeQuorumHistory.toNat) {t : Tracked} (ht : Sound t)
    {main : List (ChainBlock P)} {revert interval : Nat} {state : MasterNodeState Nodes}
    (hsource : detachSource t.recorded.list (revert + 1) = .archive interval state)
    (hroom : interval + 6 * voteLifetime.toNat < 2 ^ 64)
    (hall : forall blocks, OnTop interval blocks -> LooksUp (t.run env storage
      (.blockchainDetached main revert :: blocks.map .processBlock))) :
    Clean env storage t (.blockchainDetached main revert) := by
  have hspec := detachSource_spec t.recorded.list (revert + 1)
  simp only [hsource] at hspec
  have hht : state.height = interval := ht.ordered.archive interval state hspec.2
  unfold Clean
  simp only [hsource]
  intro entry hent
  by_contra hnot
  -- the list right after going back
  let back : RecordedList :=
    { list :=
        { t.recorded.list with
          state := state
          stateHistory := empty
          stateArchive := t.recorded.list.stateArchive.restrict fun h => h < interval }
      oldQuorumStates := t.recorded.oldQuorumStates }
  have hback : (t.apply env storage (.blockchainDetached main revert)).recorded = back := by
    unfold Tracked.apply RecordedList.blockchainDetached
    simp only [blockchainDetached_eq, hsource]
    rfl
  have hordered : Ordered back.list := by
    refine ⟨?_, ?_⟩
    · intro h older hfind
      cases hfind
    · intro h older hfind
      exact ht.ordered.archive h older (find?_restrict_eq_some.mp hfind).2
  have hlast : exists first last, back.oldQuorumStates = first ++ [last] ∧
      back.list.state.height <= last.height :=
    exists_last_of_mem ht.increasing hent (hht.trans_le (not_lt.mp hnot))
  have hbackRoom : back.list.state.height + 6 * voteLifetime.toNat < 2 ^ 64 := by
    rw [hht]
    exact hroom
  have hdisord : exists blocks : List (Block P), OnTop state.height blocks ∧
      ¬ (blocks.foldl (RecordedList.processBlock env storage)
        back).oldQuorumStates.Pairwise fun a b => a.height < b.height :=
    disordered_after_archive hstore hordered rfl hlast hbackRoom
  rcases hdisord with ⟨blocks, htop, hdisord⟩
  rw [hht] at htop
  have hlooks : LooksUp ((t.apply env storage (.blockchainDetached main revert)).run env storage
      (blocks.map .processBlock)) := hall blocks htop
  have hincreasing := hlooks.increasing
  rw [recorded_run, hback] at hincreasing
  exact hdisord hincreasing

/-- As long as every call finds the list clean, the old quorums stay in order and on the
current chain and lookups give what the current chain generated.  A list that goes back to
the archive stays so under all further blocks exactly when it was clean. -/
theorem oldQuorumStates_correct {env : Environment P Nodes N Blob} {storage : HistoryStorage P}
    (hkeeps : KeepsQuorums env) {histSize : UInt64} (henabled : histSize ≠ 0)
    (hstore : storage.storeQuorumHistory = setQuorumHistoryStorage histSize) {t : Tracked}
    (ht : Sound t) :
    (forall events, CleanRun env storage t events -> LooksUp (t.run env storage events)) ∧
      forall main revert interval state,
        detachSource t.recorded.list (revert + 1) = .archive interval state ->
        interval + 6 * voteLifetime.toNat < 2 ^ 64 ->
        ((forall blocks, OnTop interval blocks -> LooksUp (t.run env storage
            (.blockchainDetached main revert :: blocks.map .processBlock))) <->
          Clean env storage t (.blockchainDetached main revert)) := by
  have htwo : 2 <= storage.storeQuorumHistory.toNat := by
    rw [hstore]
    exact two_le_setQuorumHistoryStorage henabled
  refine ⟨fun events hclean => (ht.run hkeeps hclean).looksUp, ?_⟩
  intro main revert interval state hsource hroom
  constructor
  · exact clean_of_looksUp htwo ht hsource hroom
  · intro hclean blocks _
    have hrun : CleanRun env storage t
        (.blockchainDetached main revert :: blocks.map .processBlock) :=
      ⟨hclean, cleanRun_processBlocks _ blocks⟩
    exact (ht.run hkeeps hrun).looksUp

/-! ## A list that goes back to its first state -/

def fullStorage : HistoryStorage Int where
  storeQuorumHistory := setQuorumHistoryStorage 1
  loadOldQuorumStates := fun _ => []

theorem keepsQuorums_listEnvironment : KeepsQuorums listEnvironment :=
  fun _ => rfl

def shortReorg : List (ListEvent Int) :=
  [.processBlock (blockAt 1), .processBlock (blockAt 2), .blockchainDetached [] 1,
    .processBlock (blockAt 2)]

theorem oldQuorumStates_correct_shortReorg :
    CleanRun listEnvironment fullStorage (Tracked.start listEnvironment) shortReorg ∧
      LooksUp ((Tracked.start listEnvironment).run listEnvironment fullStorage shortReorg) := by
  have hclean : CleanRun listEnvironment fullStorage (Tracked.start listEnvironment)
      shortReorg := by
    refine ⟨True.intro, True.intro, ?_, True.intro, True.intro⟩
    exact True.intro
  have hcorrect := oldQuorumStates_correct keepsQuorums_listEnvironment
    (by decide : (1 : UInt64) ≠ 0) (rfl : fullStorage.storeQuorumHistory = _)
    (sound_start listEnvironment)
  exact ⟨hclean, hcorrect.1 shortReorg hclean⟩

/-- Both blocks are replaced; the second one has put the first state into the archive. -/
def deepReorg : List (ListEvent Int) :=
  [.processBlock (blockAt 1), .processBlock (blockAt 2), .blockchainDetached [] 0,
    .processBlock (blockAt 1), .processBlock (blockAt 2)]

/-- The quorums of the first state are recorded twice. -/
theorem deepReorg_repeats :
    Sound (Tracked.start listEnvironment) ∧
      ((Tracked.start listEnvironment).run listEnvironment fullStorage
        deepReorg).recorded.oldQuorumStates.map QuorumsByHeight.height = [0, 0] ∧
      ¬ LooksUp ((Tracked.start listEnvironment).run listEnvironment fullStorage deepReorg) := by
  have hhts : ((Tracked.start listEnvironment).run listEnvironment fullStorage
      deepReorg).recorded.oldQuorumStates.map QuorumsByHeight.height = [0, 0] := rfl
  refine ⟨sound_start listEnvironment, hhts, ?_⟩
  intro hlooks
  have hsort : ([0, 0] : List Nat).Pairwise fun a b => a < b := by
    rw [<- hhts]
    exact pairwise_map.mpr hlooks.increasing
  exact absurd hsort (by decide)

end Beldex.NodeList
