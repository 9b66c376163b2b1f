import Beldex.Chain.Subsystems

/-!
# The history of the master node list

Every block saves the state before it and culls the states that have become too
old, some of which go to the archive.  Detaching goes back to a saved state.  What
the detached blocks culled does not come back, so a list that went forth and back
trails behind one that stayed where it was; both go on alike as long as no block
asks for the part that is lost.
-/

namespace Beldex.Chain

open Basic Foundation Voting Table Option List

variable {P S N Blob : Type} {env : Environment P S N Blob}

/-! ## Lookups -/

theorem find?_insertNew {κ υ : Type} [DecidableEq κ] (t : Table κ υ) (k k' : κ) (v : υ) :
    (insertNew t k v).find? k' = (t.find? k').or (if k' = k then some v else none) := by
  unfold insertNew
  cases hfind : t.find? k with
  | some old =>
    change t.find? k' = _
    by_cases hk : k' = k
    · rw [hk, hfind]
      rfl
    · rw [if_neg hk, or_none]
  | none =>
    change (t.set k v).find? k' = _
    rw [find?_set]
    split
    next hk =>
      rw [hk, hfind]
      rfl
    · exact or_none.symm

variable {state : MasterNodeState S}

theorem height_archived {kept : MasterNodeState S} (h : archived env state = some kept) :
    kept.height = state.height := by
  unfold archived at h
  simp only at h
  split at h
  · cases h
    rfl
  · split at h
    · cases h
      rfl
    · cases h

def archiveOne (env : Environment P S N Blob) (archive : Table Nat (MasterNodeState S))
    (entry : Nat × MasterNodeState S) : Table Nat (MasterNodeState S) :=
  match archived env entry.2 with
  | some state => insertNew archive state.height state
  | none => archive

theorem find?_archiveOne (archive : Table Nat (MasterNodeState S))
    {entry : Nat × MasterNodeState S} (hkeyed : entry.2.height = entry.1) (h : Nat) :
    (archiveOne env archive entry).find? h =
      (archive.find? h).or (if h = entry.1 then archived env entry.2 else none) := by
  unfold archiveOne
  cases hkept : archived env entry.2 with
  | none =>
    rw [ite_self, or_none]
  | some state =>
    rw [find?_insertNew, height_archived hkept, hkeyed]

theorem find_eq_none_of_not_mem {κ υ : Type} [DecidableEq κ] {k : κ} {entries : List (κ × υ)}
    (h : k ∉ entries.map Prod.fst) : find k entries = none := by
  cases hfind : find k entries with
  | none => rfl
  | some v => exact absurd (mem_map_of_mem (mem_of_find_eq_some hfind)) h

theorem find?_archiveAll {entries : List (Nat × MasterNodeState S)}
    (hnodup : (entries.map Prod.fst).Nodup)
    (hkeyed : forall entry, entry ∈ entries -> entry.2.height = entry.1)
    (archive : Table Nat (MasterNodeState S)) (h : Nat) :
    (entries.foldl (archiveOne env) archive).find? h =
      (archive.find? h).or ((find h entries).bind (archived env)) := by
  induction entries generalizing archive with
  | nil => exact (or_none).symm
  | cons entry rest ih =>
    rw [map_cons, nodup_cons] at hnodup
    have hrest := ih hnodup.2 (fun e he => hkeyed e (mem_cons_of_mem _ he))
      (archiveOne env archive entry)
    rw [foldl_cons, hrest, find?_archiveOne archive (hkeyed entry mem_cons_self), Option.or_assoc]
    congr 1
    have hcons : find h (entry :: rest) = if entry.1 = h then some entry.2 else find h rest := rfl
    rw [hcons]
    by_cases hh : h = entry.1
    · rw [if_pos hh, if_pos hh.symm, hh, find_eq_none_of_not_mem hnodup.1]
      exact or_none
    · rw [if_neg hh, if_neg (Ne.symm hh)]
      rfl

/-! ## Ordered lists -/

/-- States are stored under their heights, and the history lies behind the list. -/
structure Ordered (list : MasterNodeList S) : Prop where
  history : forall h state, list.stateHistory.find? h = some state ->
    state.height = h ∧ h < list.state.height
  archive : forall h state, list.stateArchive.find? h = some state -> state.height = h

variable {list : MasterNodeList S}

theorem Ordered.find?_history_eq_none (h : Ordered list) {height : Nat}
    (hle : list.state.height <= height) : list.stateHistory.find? height = none := by
  cases hfind : list.stateHistory.find? height with
  | none => rfl
  | some state =>
    have hlt := (h.history height state hfind).2
    omega

theorem Ordered.find?_archive_cull (hlist : Ordered list) (cullHeight h : Nat) :
    (list.cull env cullHeight).stateArchive.find? h = (list.stateArchive.find? h).or
      (if h <= cullHeight then (list.stateHistory.find? h).bind (archived env) else none) := by
  have hkeyed : forall entry, entry ∈ list.stateHistory.entries.filter
      (fun entry => decide (entry.1 <= cullHeight)) -> entry.2.height = entry.1 := by
    intro entry hent
    have hmem := (mem_filter.mp hent).1
    exact (hlist.history _ _ (list.stateHistory.find?_eq_some_of_mem hmem)).1
  have hnodup : ((list.stateHistory.entries.filter
      fun entry => decide (entry.1 <= cullHeight)).map Prod.fst).Nodup :=
    list.stateHistory.nodup.sublist (filter_sublist.map Prod.fst)
  have hall : (list.cull env cullHeight).stateArchive.find? h = _ :=
    find?_archiveAll hnodup hkeyed list.stateArchive h
  have hfilter := find_filter (fun height => decide (height <= cullHeight)) h
    list.stateHistory.entries
  simp only [decide_eq_true_eq] at hfilter
  rw [hfilter] at hall
  refine hall.trans ?_
  split <;> rfl

abbrev cullHeightOf (block : Block P) : Nat :=
  shortTermStateCullHeight (getBlockHeight block).toNat

theorem find?_history_processBlock (list : MasterNodeList S) (block : Block P) (h : Nat) :
    (list.processBlock env block).1.stateHistory.find? h =
      (if cullHeightOf block < h then
        list.stateHistory.find? h else none).or
      (if h = list.state.height then some list.state else none) := by
  change (insertNew (list.stateHistory.restrict _) _ _).find? h = _
  rw [find?_insertNew, find?_restrict]
  simp only [decide_eq_true_eq]

variable {block : Block P}

theorem history_processBlock_cases {h : Nat} {state : MasterNodeState S}
    (hfind : (list.processBlock env block).1.stateHistory.find? h = some state) :
    (cullHeightOf block < h ∧
      list.stateHistory.find? h = some state) ∨ (h = list.state.height ∧ state = list.state) := by
  rw [find?_history_processBlock, or_eq_some_iff, ite_none_right_eq_some,
    ite_none_right_eq_some] at hfind
  rcases hfind with hfind | ⟨_, hh, hst⟩
  · exact Or.inl hfind
  · exact Or.inr ⟨hh, (some.inj hst).symm⟩

section

variable (hlist : Ordered list)
include hlist

theorem Ordered.find?_archive_processBlock (block : Block P) (h : Nat) :
    (list.processBlock env block).1.stateArchive.find? h = (list.stateArchive.find? h).or
      (if h <= cullHeightOf block then
        (list.stateHistory.find? h).bind (archived env) else none) :=
  hlist.find?_archive_cull _ _

theorem Ordered.archive_processBlock_cases {h : Nat} {state : MasterNodeState S}
    (hfind : (list.processBlock env block).1.stateArchive.find? h = some state) :
    list.stateArchive.find? h = some state ∨
      h <= cullHeightOf block ∧
        exists culled, list.stateHistory.find? h = some culled ∧
          archived env culled = some state := by
  rw [hlist.find?_archive_processBlock, or_eq_some_iff, ite_none_right_eq_some,
    bind_eq_some_iff] at hfind
  exact hfind.imp_right And.right

theorem Ordered.processBlock (block : Block P) : Ordered (list.processBlock env block).1 where
  history := by
    intro h state hfind
    change state.height = h ∧ h < list.state.height + 1
    rcases history_processBlock_cases hfind with ⟨_, hfind⟩ | ⟨rfl, rfl⟩
    · have hold := hlist.history h state hfind
      omega
    · omega
  archive := by
    intro h state hfind
    rcases hlist.archive_processBlock_cases hfind with hfind | ⟨_, culled, hculled, hkept⟩
    · exact hlist.archive h state hfind
    · rw [height_archived hkept]
      exact (hlist.history h culled hculled).1

theorem Ordered.blockchainDetached (main : List (ChainBlock P))
    (hinit : Ordered (initMasterNodeList env main)) (height : Nat) :
    Ordered (list.blockchainDetached env main height) := by
  unfold MasterNodeList.blockchainDetached
  split
  · exact hlist
  · simp only
    split
    next state hst =>
      have hfind := (filter_eq_some_iff.mp hst).1
      refine ⟨?_, hlist.archive⟩
      intro h old hold
      rcases find?_restrict_eq_some.mp hold with ⟨hbelow, hold⟩
      rw [(hlist.history _ _ hfind).1]
      exact ⟨(hlist.history h old hold).1, of_decide_eq_true hbelow⟩
    · split
      · refine ⟨?_, ?_⟩
        · intro h old hold
          cases hold
        · intro h old hold
          exact hlist.archive h old (find?_restrict_eq_some.mp hold).2
      · exact hinit

end

/-- The lists of a node that starts afresh or from its database, where what the database
gives back is ordered. -/
inductive ReachableList (env : Environment P S N Blob) : MasterNodeList S -> Prop where
  | start (main : List (ChainBlock P)) (h : Ordered (initMasterNodeList env main)) :
      ReachableList env (initMasterNodeList env main)
  | processed {list : MasterNodeList S} (block : Block P) :
      ReachableList env list -> ReachableList env (list.processBlock env block).1
  | alternative {list : MasterNodeList S} (main : List (ChainBlock P)) (block : Block P)
      (checkpoint : Option Checkpoint) :
      ReachableList env list -> ReachableList env (list.altBlockAdd env main block checkpoint).1
  | detached {list : MasterNodeList S} (main : List (ChainBlock P)) (height : Nat)
      (h : Ordered (initMasterNodeList env main)) :
      ReachableList env list -> ReachableList env (list.blockchainDetached env main height)

theorem Ordered.altBlockAdd (hlist : Ordered list) (main : List (ChainBlock P)) (block : Block P)
    (checkpoint : Option Checkpoint) : Ordered (list.altBlockAdd env main block checkpoint).1 := by
  have hkept : forall altState, Ordered { list with altState := altState } :=
    fun _ => ⟨hlist.history, hlist.archive⟩
  unfold MasterNodeList.altBlockAdd
  split
  · exact hlist
  · split
    · exact hlist
    · split
      · exact hlist
      · split
        · exact hlist
        · simp only
          split
          · exact hkept _
          · exact hlist

theorem ReachableList.ordered (h : ReachableList env list) : Ordered list := by
  induction h with
  | start main h => exact h
  | processed block _ ih => exact ih.processBlock block
  | alternative main block checkpoint _ ih => exact ih.altBlockAdd main block checkpoint
  | detached main height h _ ih => exact ih.blockchainDetached main h height

/-! ## Going forth -/

/-- The blocks follow on the height of a list.  The list ignores the blocks of the versions
before there were master nodes. -/
def OnTop : Nat -> List (Block P) -> Prop
  | _, [] => True
  | height, block :: rest =>
    ((getBlockHeight block).toNat = height + 1 ∧ Hf.hf9MasterNodes <= block.majorVersion) ∧
      OnTop (height + 1) rest

def processBlocks (env : Environment P S N Blob) (list : MasterNodeList S)
    (blocks : List (Block P)) : MasterNodeList S :=
  blocks.foldl (fun list block => (list.processBlock env block).1) list

theorem processBlocks_cons (list : MasterNodeList S) (block : Block P) (rest : List (Block P)) :
    processBlocks env list (block :: rest) =
      processBlocks env (list.processBlock env block).1 rest :=
  rfl

theorem height_processBlocks (list : MasterNodeList S) (blocks : List (Block P)) :
    (processBlocks env list blocks).state.height = list.state.height + blocks.length := by
  induction blocks generalizing list with
  | nil => rfl
  | cons block rest ih =>
    have hstep : (list.processBlock env block).1.state.height = list.state.height + 1 := rfl
    rw [processBlocks_cons, ih, hstep, length_cons]
    omega

theorem shortTermStateCullHeight_mono {h h' : Nat} (hle : h <= h') :
    shortTermStateCullHeight h <= shortTermStateCullHeight h' :=
  Nat.sub_le_sub_right hle _

/-- What a list has become of an earlier one: the states of before are there down to
the cull height, the culled ones are in the archive if they go there. -/
structure Grown (env : Environment P S N Blob) (cullHeight : Nat)
    (old new : MasterNodeList S) : Prop where
  ordered : Ordered new
  ahead : old.state.height < new.state.height
  fork : new.stateHistory.find? old.state.height = some old.state ∨
    old.state.height <= cullHeight ∧ new.stateHistory.find? old.state.height = none
  history : forall h, h < old.state.height -> new.stateHistory.find? h =
    if cullHeight < h then old.stateHistory.find? h else none
  archive : forall h, h < old.state.height -> new.stateArchive.find? h =
    (old.stateArchive.find? h).or
      (if h <= cullHeight then (old.stateHistory.find? h).bind (archived env) else none)
  archive_above : (new.stateHistory.find? old.state.height).isSome ->
    forall h, old.state.height <= h -> new.stateArchive.find? h = old.stateArchive.find? h

theorem Ordered.grown (hlist : Ordered list) (block : Block P) : Grown env (cullHeightOf block) list
      (list.processBlock env block).1 where
  ordered := hlist.processBlock block
  ahead := Nat.lt_succ_self _
  fork := by
    rw [find?_history_processBlock, hlist.find?_history_eq_none (le_refl _), ite_self, if_pos rfl]
    exact Or.inl rfl
  history := by
    intro h hh
    have hne : ¬ h = list.state.height := by
      omega
    rw [find?_history_processBlock, if_neg hne, or_none]
  archive := by
    intro h _
    exact hlist.find?_archive_processBlock block h
  archive_above := by
    intro _ h hh
    rw [hlist.find?_archive_processBlock, hlist.find?_history_eq_none hh]
    exact (congrArg _ (ite_self none)).trans or_none

variable {cullHeight : Nat} {new old : MasterNodeList S}

theorem Grown.processBlock (hnew : Grown env cullHeight old new)
    (hcull : cullHeight <= cullHeightOf block) :
    Grown env (cullHeightOf block) old (new.processBlock env block).1 := by
  have hahead := hnew.ahead
  -- what was saved by then is only culled further
  have hhist : forall h, h <= old.state.height ->
      (new.processBlock env block).1.stateHistory.find? h =
        if cullHeightOf block < h then
          new.stateHistory.find? h else none := by
    intro h hh
    have hne : ¬ h = new.state.height := by
      omega
    rw [find?_history_processBlock, if_neg hne, or_none]
  refine ⟨hnew.ordered.processBlock block, Nat.lt_succ_of_lt hahead, ?_, ?_, ?_, ?_⟩
  · rw [hhist _ (le_refl _)]
    split
    · rcases hnew.fork with hfork | ⟨hculled, _⟩
      · exact Or.inl hfork
      · omega
    next hkept =>
      exact Or.inr ⟨not_lt.mp hkept, rfl⟩
  · intro h hh
    rw [hhist h (by omega), hnew.history h hh]
    split
    · rw [if_pos (by omega)]
    · rfl
  · intro h hh
    rw [hnew.ordered.find?_archive_processBlock, hnew.archive h hh, hnew.history h hh,
      Option.or_assoc]
    congr 1
    by_cases hbef : h <= cullHeight
    · have hculled : h <= cullHeightOf block := by
        omega
      rw [if_pos hbef, if_pos hculled, if_pos hculled, if_neg (not_lt.mpr hbef)]
      exact or_none
    · rw [if_neg hbef, if_pos (not_le.mp hbef)]
      exact none_or
  · intro hfork h hh
    rw [hhist _ (le_refl _)] at hfork
    split at hfork
    next hkept =>
      rw [hnew.ordered.find?_archive_processBlock, if_neg (by omega), or_none]
      exact hnew.archive_above hfork h hh
    · cases hfork

theorem Grown.eq_of_fork (hnew : Grown env cullHeight old new)
    (hfork : new.stateHistory.find? old.state.height = some state) : state = old.state := by
  rcases hnew.fork with hold | ⟨_, hnone⟩
  · exact some.inj (hfork.symm.trans hold)
  · rw [hfork] at hnone
    cases hnone

theorem Grown.processBlocks (hnew : Grown env (shortTermStateCullHeight new.state.height) old new)
    {blocks : List (Block P)} (hblocks : OnTop new.state.height blocks) :
    Grown env (shortTermStateCullHeight (new.state.height + blocks.length)) old
      (processBlocks env new blocks) := by
  induction blocks generalizing new with
  | nil => exact hnew
  | cons block rest ih =>
    have hht : (new.processBlock env block).1.state.height = new.state.height + 1 := rfl
    have hstep : Grown env (shortTermStateCullHeight (new.processBlock env block).1.state.height)
        old (new.processBlock env block).1 := by
      rw [hht, <- hblocks.1.1]
      refine hnew.processBlock (shortTermStateCullHeight_mono ?_)
      rw [hblocks.1.1]
      exact Nat.le_succ _
    have hrest := ih hstep (by rw [hht]; exact hblocks.2)
    rw [hht] at hrest
    rw [processBlocks_cons, length_cons, add_comm rest.length 1, <- add_assoc]
    exact hrest

theorem Ordered.grown_processBlocks (hlist : Ordered list) {blocks : List (Block P)}
    (hne : blocks ≠ []) (hblocks : OnTop list.state.height blocks) :
    Grown env (shortTermStateCullHeight (list.state.height + blocks.length)) list
      (Chain.processBlocks env list blocks) := by
  cases blocks with
  | nil => exact absurd rfl hne
  | cons block rest =>
    have hht : (list.processBlock env block).1.state.height = list.state.height + 1 := rfl
    have hfirst : Grown env _ list (list.processBlock env block).1 := hlist.grown block
    rw [cullHeightOf, hblocks.1.1, <- hht] at hfirst
    have hrest : OnTop (list.processBlock env block).1.state.height rest := by
      rw [hht]
      exact hblocks.2
    have hall := hfirst.processBlocks hrest
    rw [hht] at hall
    rw [processBlocks_cons, length_cons, add_comm rest.length 1, <- add_assoc]
    exact hall

/-! ## Coming back -/

/-- The second list is the first one without the part of its history below a height;
what of that part goes to the archive is there. -/
structure Trails (env : Environment P S N Blob) (bound : Nat)
    (list behind : MasterNodeList S) : Prop where
  state : behind.state = list.state
  history : forall h, bound <= h -> behind.stateHistory.find? h = list.stateHistory.find? h
  archive : forall h, bound <= h -> behind.stateArchive.find? h = list.stateArchive.find? h
  lost : forall h, h < bound -> behind.stateHistory.find? h = none
  archive_lost : forall h, h < bound -> behind.stateArchive.find? h =
    (list.stateArchive.find? h).or ((list.stateHistory.find? h).bind (archived env))

theorem Trails.ordered {bound : Nat} {behind : MasterNodeList S} (h : Trails env bound list behind)
    (hlist : Ordered list) : Ordered behind where
  history := by
    intro r state hfind
    rw [h.state]
    by_cases hr : bound <= r
    · rw [h.history r hr] at hfind
      exact hlist.history r state hfind
    · rw [h.lost r (by omega)] at hfind
      cases hfind
  archive := by
    intro r state hfind
    by_cases hr : bound <= r
    · rw [h.archive r hr] at hfind
      exact hlist.archive r state hfind
    · rw [h.archive_lost r (by omega), or_eq_some_iff] at hfind
      rcases hfind with hfind | ⟨_, hfind⟩
      · exact hlist.archive r state hfind
      · rcases bind_eq_some_iff.mp hfind with ⟨culled, hculled, hkept⟩
        rw [height_archived hkept]
        exact (hlist.history r culled hculled).1

theorem Grown.blockchainDetached (hold : Ordered old) (hnew : Grown env cullHeight old new)
    (main : List (ChainBlock P)) (hfork : new.stateHistory.find? old.state.height = some state)
    (hloaded : state.onlyLoadedQuorums = false) :
    Trails env (min (cullHeight + 1) old.state.height) old
      (new.blockchainDetached env main (old.state.height + 1)) := by
  have hahead := hnew.ahead
  cases hnew.eq_of_fork hfork
  have hdetached : new.blockchainDetached env main (old.state.height + 1) = { new with
        state := old.state
        stateHistory := new.stateHistory.restrict fun h => h < old.state.height } := by
    unfold MasterNodeList.blockchainDetached
    rw [if_neg (by omega)]
    simp only [Nat.add_sub_cancel, hfork, filter_some, hloaded, Bool.not_false, if_true]
  have harchive_fork : forall h, old.state.height <= h ->
      new.stateArchive.find? h = old.stateArchive.find? h :=
    hnew.archive_above (by rw [hfork]; rfl)
  rw [hdetached]
  refine ⟨rfl, ?_, ?_, ?_, ?_⟩
  · intro h hh
    rw [find?_restrict]
    simp only [decide_eq_true_eq]
    split
    · rw [hnew.history h (by omega), if_pos (by omega)]
    · rw [hold.find?_history_eq_none (by omega)]
  · intro h hh
    by_cases hlow : h < old.state.height
    · rw [hnew.archive h hlow, if_neg (by omega), or_none]
    · exact harchive_fork h (by omega)
  · intro h hh
    have hculled : ¬ cullHeight < h := by
      omega
    rw [find?_restrict, hnew.history h (by omega), if_neg hculled, ite_self]
  · intro h hh
    rw [hnew.archive h (by omega), if_pos (by omega)]

/-! ## Going on -/

theorem Trails.processBlock {bound : Nat} {behind : MasterNodeList S} (hlist : Ordered list)
    (h : Trails env bound list behind) (hbound : bound <= list.state.height)
    (hst : (behind.processBlock env block).1.state = (list.processBlock env block).1.state) :
    Trails env bound (list.processBlock env block).1 (behind.processBlock env block).1 where
  state := hst
  history := by
    intro r hr
    rw [find?_history_processBlock, find?_history_processBlock, h.history r hr, h.state]
  archive := by
    intro r hr
    rw [(h.ordered hlist).find?_archive_processBlock, hlist.find?_archive_processBlock,
      h.history r hr, h.archive r hr]
  lost := by
    intro r hr
    have hne : ¬ r = behind.state.height := by
      rw [h.state]
      omega
    rw [find?_history_processBlock, h.lost r hr, if_neg hne, ite_self]
    rfl
  archive_lost := by
    intro r hr
    have hne : ¬ r = list.state.height := by
      omega
    rw [(h.ordered hlist).find?_archive_processBlock, hlist.find?_archive_processBlock,
      find?_history_processBlock, h.lost r hr, h.archive_lost r hr, if_neg hne, or_none,
      bind_none, ite_self, or_none, Option.or_assoc]
    congr 1
    split
    · rw [if_neg (by omega)]
      exact or_none.symm
    · rw [if_pos (by omega), none_or]

end Beldex.Chain
