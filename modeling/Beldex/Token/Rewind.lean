import Beldex.Token.State

/-!
# Rewinding undoes applying

The undo record of a height holds the state that every touched token had before
the block, once per token and whatever the operations in between did.  Rewinding
the height therefore restores the two tables exactly, and popping any number of
blocks in reverse order restores the tables before the first of them.
-/

namespace Beldex.Token

open Basic Crypto Foundation Foundation.Fallible Table List Function

variable {P Blob : Type} {codec : TokenCodec P Blob}

/-! ## Stored rows -/

def Stored (codec : TokenCodec P Blob) (db : TokenDb Blob) : Prop :=
  forall id blob, db.tokenHistories id = some blob ->
    exists s, s.existing = true ∧ blob = codec.dumpState s

theorem stored_empty : Stored codec (TokenDb.empty : TokenDb Blob) := by
  intro id blob h
  cases h

variable {db : TokenDb Blob} {id : TokenId}

theorem tokenHistories_of_load (hdb : Stored codec db) {s : TokenConsensusState}
    (h : loadTokenState codec db id = .ok s) :
    db.tokenHistories id = if s.existing then some (codec.dumpState s) else none := by
  unfold loadTokenState at h
  cases hrow : db.tokenHistories id with
  | none =>
    rw [hrow] at h
    cases h
    rfl
  | some blob =>
    rcases hdb id blob hrow with ⟨s', hexisting, rfl⟩
    rw [hrow] at h
    simp only [within_eq_ok, codec.parse_dumpState] at h
    cases h
    rw [if_pos hexisting]

theorem restoreEntry_tokenHistories (codec : TokenCodec P Blob) (db : TokenDb Blob)
    (entry : TokenUndoEntry) :
    (restoreEntry codec db entry).tokenHistories = update db.tokenHistories entry.tokenId
        (if entry.prevState.existing then some (codec.dumpState entry.prevState)
          else none) := by
  unfold restoreEntry
  split
  · rfl
  · rfl

theorem foldl_restoreEntry_tokenUndo (undo : List TokenUndoEntry) (db : TokenDb Blob) :
    (undo.foldl (restoreEntry codec) db).tokenUndo = db.tokenUndo := by
  induction undo generalizing db with
  | nil => rfl
  | cons entry rest ih =>
    rw [foldl_cons, ih]
    unfold restoreEntry
    split
    · rfl
    · rfl

/-! ## The working copies of a block -/

structure Consistent (codec : TokenCodec P Blob) (db : TokenDb Blob) (work : BlockWork) : Prop where
  recorded : forall id s, work.states.find? id = some s ->
    exists entry, entry ∈ work.undo ∧ entry.tokenId = id
  loaded : forall entry, entry ∈ work.undo ->
    loadTokenState codec db entry.tokenId = .ok entry.prevState
  existing : forall id s, work.states.find? id = some s -> s.existing = true

theorem consistent_empty (db : TokenDb Blob) :
    Consistent codec db { states := empty, undo := [] } where
  recorded := fun _ _ h => by cases h
  loaded := fun _ h => by cases h
  existing := fun _ _ h => by cases h

variable {work : BlockWork} {undo : List TokenUndoEntry}

theorem touch_cases {state : TokenConsensusState} (h : work.touch codec db id = .ok (state, undo)) :
    (work.states.find? id = some state ∧ undo = work.undo) ∨ (work.states.find? id = none ∧
        loadTokenState codec db id = .ok state ∧
        undo = work.undo ++ [{ tokenId := id, prevState := state }]) := by
  unfold BlockWork.touch at h
  cases hfind : work.states.find? id with
  | some found =>
    rw [hfind] at h
    cases h
    exact Or.inl ⟨rfl, rfl⟩
  | none =>
    rw [hfind] at h
    rcases within_bind_ok.mp h with ⟨loadedState, hload, hok⟩
    cases hok
    exact Or.inr ⟨rfl, hload, rfl⟩

variable {work' : BlockWork} {tdo : TokenDescriptorOperation P}

theorem applyBlockOperation_eq_ok (h : applyBlockOperation codec db work tdo = .ok work') :
    exists state next undo, getOrCalculateTokenId codec tdo ≠ nullTid ∧
      work.touch codec db (getOrCalculateTokenId codec tdo) = .ok (state, undo) ∧
      applyTokenOperationToState (getOrCalculateTokenId codec tdo) tdo state = .ok next ∧ work' =
        { states := work.states.set (getOrCalculateTokenId codec tdo)
            { next with
              opCount := next.opCount + 1
              lastOpHash := codec.operationHash tdo }
          undo := undo } := by
  unfold applyBlockOperation at h
  rw [rejectIf_bind_ok] at h
  rcases h with ⟨hid, hbind⟩
  rcases bind_ok.mp hbind with ⟨⟨state, undo⟩, htouch, hrest⟩
  rcases within_bind_ok.mp hrest with ⟨next, happly, hok⟩
  cases hok
  exact ⟨state, next, undo, by simpa using hid, htouch, happly, rfl⟩

theorem consistent_step (hstep : applyBlockOperation codec db work tdo = .ok work')
    (h : Consistent codec db work) : Consistent codec db work' := by
  rcases applyBlockOperation_eq_ok hstep with
    ⟨state, next, undo, _, htouch, happly, rfl⟩
  generalize hid : getOrCalculateTokenId codec tdo = id at *
  have hsub : forall entry, entry ∈ work.undo -> entry ∈ undo := by
    intro entry hent
    rcases touch_cases htouch with ⟨_, rfl⟩ | ⟨_, _, rfl⟩
    · exact hent
    · exact mem_append_left _ hent
  constructor
  · intro id' s hfind
    rcases find?_set_cases hfind with ⟨rfl, _⟩ | ⟨_, hfind⟩
    · rcases touch_cases htouch with ⟨hold, rfl⟩ | ⟨_, _, rfl⟩
      · exact h.recorded id' state hold
      · exact ⟨_, mem_append_right _ (mem_singleton.mpr rfl), rfl⟩
    · rcases h.recorded id' s hfind with ⟨entry, hmem, hent⟩
      exact ⟨entry, hsub entry hmem, hent⟩
  · intro entry hmem
    rcases touch_cases htouch with ⟨_, rfl⟩ | ⟨_, hload, rfl⟩
    · exact h.loaded entry hmem
    · rcases mem_append.mp hmem with hmem | hmem
      · exact h.loaded entry hmem
      · rw [mem_singleton.mp hmem]
        exact hload
  · intro id' s hfind
    rcases find?_set_cases hfind with ⟨_, rfl⟩ | ⟨_, hfind⟩
    · exact (applyTokenOperationToState_step happly).existing_eq_true
    · exact h.existing id' s hfind

variable {db' : TokenDb Blob} {height : Nat} {txs : List (Transaction P)}

theorem applyTokensFromBlock_eq_ok (h : applyTokensFromBlock codec db height txs = .ok db') :
    exists work, Consistent codec db work ∧ db' = work.persist codec db height := by
  rcases bind_ok.mp h with ⟨work, hrun, hpersist⟩
  cases hpersist
  exact ⟨work, run_preserves consistent_step hrun (consistent_empty db), rfl⟩

theorem persist_tokenHistories (codec : TokenCodec P Blob) (work : BlockWork)
    (db : TokenDb Blob) (height : Nat) :
    (work.persist codec db height).tokenHistories =
      work.states.writeAll codec.dumpState db.tokenHistories := by
  unfold BlockWork.persist
  split
  · rfl
  · rfl

theorem persist_tokenUndo (codec : TokenCodec P Blob) (work : BlockWork)
    (db : TokenDb Blob) (height : Nat) :
    (work.persist codec db height).tokenUndo = if work.undo.isEmpty then db.tokenUndo
      else update db.tokenUndo height (some (codec.dumpUndo work.undo)) := by
  unfold BlockWork.persist
  split
  · rfl
  · rfl

/-! ## The round trip -/

theorem foldl_restoreEntry (hdb : Stored codec db) (hundo : forall entry, entry ∈ undo ->
      loadTokenState codec db entry.tokenId = .ok entry.prevState) (db1 : TokenDb Blob)
    (id : TokenId) : (undo.foldl (restoreEntry codec) db1).tokenHistories id =
      if id ∈ undo.map TokenUndoEntry.tokenId then db.tokenHistories id
      else db1.tokenHistories id := by
  induction undo generalizing db1 with
  | nil => rfl
  | cons entry rest ih =>
    have hrow := tokenHistories_of_load hdb (hundo entry mem_cons_self)
    rw [foldl_cons, ih (fun e he => hundo e (mem_cons_of_mem _ he)),
      restoreEntry_tokenHistories, <- hrow]
    by_cases hin : id ∈ rest.map TokenUndoEntry.tokenId
    · simp [hin]
    · by_cases heq : id = entry.tokenId
      · simp [heq]
      · simp [heq]

theorem rewind_applyTokensFromBlock (hdb : Stored codec db) (hnone : db.tokenUndo height = none)
    (h : applyTokensFromBlock codec db height txs = .ok db') :
    rewindTokensForHeight codec db' height = .ok db := by
  rcases applyTokensFromBlock_eq_ok h with ⟨work, hwork, rfl⟩
  have hrows : forall id, id ∉ work.undo.map TokenUndoEntry.tokenId ->
      (work.persist codec db height).tokenHistories id = db.tokenHistories id := by
    intro id h
    rw [persist_tokenHistories, writeAll_apply]
    cases hfind : work.states.find? id with
    | none => rfl
    | some s =>
      rcases hwork.recorded id s hfind with ⟨entry, hmem, rfl⟩
      exact absurd (mem_map_of_mem hmem) h
  have hundo := persist_tokenUndo codec work db height
  unfold rewindTokensForHeight
  split at hundo
  next hempty =>
    rw [hundo, hnone]
    apply congrArg Except.ok
    apply TokenDb.ext
    · intro id
      apply hrows
      simp [isEmpty_iff.mp hempty]
    · intro height'
      rw [hundo]
  · rw [hundo, update_self]
    apply within_bind_ok.mpr
    refine ⟨work.undo, codec.parse_dumpUndo _, ?_⟩
    apply congrArg Except.ok
    apply TokenDb.ext
    · intro id
      change (work.undo.foldl (restoreEntry codec) _).tokenHistories id = _
      rw [foldl_restoreEntry hdb hwork.loaded]
      split
      · rfl
      next hin =>
        exact hrows id hin
    · intro height'
      change update (work.undo.foldl (restoreEntry codec) _).tokenUndo height none height' = _
      rw [foldl_restoreEntry_tokenUndo, hundo, update_idem]
      by_cases heq : height' = height
      · rw [heq, update_self, hnone]
      · rw [update_of_ne heq]

/-! ## Every database the node can hold -/

theorem stored_applyTokensFromBlock (hdb : Stored codec db)
    (h : applyTokensFromBlock codec db height txs = .ok db') : Stored codec db' := by
  rcases applyTokensFromBlock_eq_ok h with ⟨work, hwork, rfl⟩
  intro id blob hrow
  rw [persist_tokenHistories, writeAll_apply] at hrow
  cases hfind : work.states.find? id with
  | none =>
    rw [hfind] at hrow
    exact hdb id blob hrow
  | some s =>
    rw [hfind] at hrow
    cases hrow
    exact ⟨s, hwork.existing id s hfind, rfl⟩

theorem stored_restoreEntry (hdb : Stored codec db) (entry : TokenUndoEntry) :
    Stored codec (restoreEntry codec db entry) := by
  intro id blob hrow
  rw [restoreEntry_tokenHistories] at hrow
  by_cases heq : id = entry.tokenId
  · rw [heq, update_self] at hrow
    split at hrow
    next hex =>
      cases hrow
      exact ⟨entry.prevState, hex, rfl⟩
    · cases hrow
  · rw [update_of_ne heq] at hrow
    exact hdb id blob hrow

theorem stored_foldl_restoreEntry (undo : List TokenUndoEntry) (hdb : Stored codec db) :
    Stored codec (undo.foldl (restoreEntry codec) db) := by
  induction undo generalizing db with
  | nil => exact hdb
  | cons entry rest ih => exact ih (stored_restoreEntry hdb entry)

theorem rewindTokensForHeight_cases (h : rewindTokensForHeight codec db height = .ok db') :
    db' = db ∨ exists undo : List TokenUndoEntry,
      db' = (undo.foldl (restoreEntry codec) db).delTokenUndo height := by
  unfold rewindTokensForHeight at h
  split at h
  · cases h
    exact Or.inl rfl
  · rcases bind_ok.mp h with ⟨undo, _, hok⟩
    cases hok
    exact Or.inr ⟨undo, rfl⟩

theorem stored_rewindTokensForHeight (hdb : Stored codec db)
    (h : rewindTokensForHeight codec db height = .ok db') : Stored codec db' := by
  rcases rewindTokensForHeight_cases h with rfl | ⟨undo, rfl⟩
  · exact hdb
  · exact stored_foldl_restoreEntry undo hdb

inductive ReachableDb (codec : TokenCodec P Blob) : TokenDb Blob -> Prop where
  | empty : ReachableDb codec TokenDb.empty
  | apply {db db' : TokenDb Blob} {height : Nat} {txs : List (Transaction P)} :
      ReachableDb codec db -> applyTokensFromBlock codec db height txs = .ok db' ->
      ReachableDb codec db'
  | rewind {db db' : TokenDb Blob} {height : Nat} :
      ReachableDb codec db -> rewindTokensForHeight codec db height = .ok db' ->
      ReachableDb codec db'

theorem ReachableDb.stored (h : ReachableDb codec db) : Stored codec db := by
  induction h with
  | empty => exact stored_empty
  | apply _ happly ih => exact stored_applyTokensFromBlock ih happly
  | rewind _ hrewind ih => exact stored_rewindTokensForHeight ih hrewind

theorem ReachableDb.exists_undo (h : ReachableDb codec db) {blob : Blob}
    (hrow : db.tokenUndo height = some blob) : exists undo, blob = codec.dumpUndo undo := by
  induction h generalizing blob with
  | empty => cases hrow
  | @apply db db' height' txs _ happly ih =>
    rcases applyTokensFromBlock_eq_ok happly with ⟨work, _, rfl⟩
    rw [persist_tokenUndo] at hrow
    split at hrow
    · exact ih hrow
    · by_cases heq : height = height'
      · rw [heq, update_self] at hrow
        cases hrow
        exact ⟨work.undo, rfl⟩
      · rw [update_of_ne heq] at hrow
        exact ih hrow
  | @rewind db db' height' _ hrewind ih =>
    rcases rewindTokensForHeight_cases hrewind with rfl | ⟨undo, rfl⟩
    · exact ih hrow
    · change update (undo.foldl (restoreEntry codec) db).tokenUndo height' none
        height = some blob at hrow
      rw [foldl_restoreEntry_tokenUndo] at hrow
      by_cases heq : height = height'
      · rw [heq, update_self] at hrow
        cases hrow
      · rw [update_of_ne heq] at hrow
        exact ih hrow

/-! ## Popping blocks -/

def addBlockTokens (codec : TokenCodec P Blob) (networkVersion : Nat -> Hf) (db : TokenDb Blob)
    (height : Nat) (txs : List (Transaction P)) : Except String (TokenDb Blob) :=
  if featurePrivacyTokens <= networkVersion height then
    applyTokensFromBlock codec db height txs
  else
    .ok db

def popBlockTokens (codec : TokenCodec P Blob) (networkVersion : Nat -> Hf)
    (db : TokenDb Blob) (height : Nat) : Except String (TokenDb Blob) :=
  if featurePrivacyTokens <= networkVersion height then
    rewindTokensForHeight codec db height
  else
    .ok db

def addBlocks (codec : TokenCodec P Blob) (networkVersion : Nat -> Hf) :
    TokenDb Blob -> Nat -> List (List (Transaction P)) -> Except String (TokenDb Blob)
  | db, _, [] => .ok db
  | db, height, txs :: rest => do
      let db1 <- addBlockTokens codec networkVersion db height txs
      addBlocks codec networkVersion db1 (height + 1) rest

def popBlocks (codec : TokenCodec P Blob) (networkVersion : Nat -> Hf)
    (db : TokenDb Blob) (height : Nat) : Nat -> Except String (TokenDb Blob)
  | 0 => .ok db
  | count + 1 => do
      let db1 <- popBlocks codec networkVersion db (height + 1) count
      popBlockTokens codec networkVersion db1 height

section

variable {networkVersion : Nat -> Hf}
  {db db' : TokenDb Blob} {height : Nat} {txs : List (Transaction P)}

theorem addBlockTokens_cases (h : addBlockTokens codec networkVersion db height txs = .ok db') :
    applyTokensFromBlock codec db height txs = .ok db' ∨ db' = db := by
  unfold addBlockTokens at h
  split at h
  · exact Or.inl h
  · cases h
    exact Or.inr rfl

theorem stored_addBlockTokens (hdb : Stored codec db)
    (h : addBlockTokens codec networkVersion db height txs = .ok db') : Stored codec db' := by
  rcases addBlockTokens_cases h with h | rfl
  · exact stored_applyTokensFromBlock hdb h
  · exact hdb

theorem ReachableDb.addBlockTokens (hdb : ReachableDb codec db)
    (h : addBlockTokens codec networkVersion db height txs = .ok db') : ReachableDb codec db' := by
  rcases addBlockTokens_cases h with h | rfl
  · exact .apply hdb h
  · exact hdb

theorem ReachableDb.of_popBlockTokens (hdb : ReachableDb codec db)
    (h : popBlockTokens codec networkVersion db height = .ok db') : ReachableDb codec db' := by
  unfold popBlockTokens at h
  split at h
  · exact .rewind hdb h
  · cases h
    exact hdb

theorem ReachableDb.exists_popBlockTokens (hdb : ReachableDb codec db) (height : Nat) :
    exists db', popBlockTokens codec networkVersion db height = .ok db' := by
  unfold popBlockTokens rewindTokensForHeight
  split
  · cases hundo : db.tokenUndo height with
    | none => exact ⟨db, rfl⟩
    | some blob =>
      rcases hdb.exists_undo hundo with ⟨undo, rfl⟩
      refine ⟨(undo.foldl (restoreEntry codec) db).delTokenUndo height, ?_⟩
      simp only [codec.parse_dumpUndo]
      rfl
  · exact ⟨db, rfl⟩

theorem addBlockTokens_tokenUndo (h : addBlockTokens codec networkVersion db height txs = .ok db')
    {height' : Nat} (hne : height' ≠ height) : db'.tokenUndo height' = db.tokenUndo height' := by
  rcases addBlockTokens_cases h with h | rfl
  · rcases applyTokensFromBlock_eq_ok h with ⟨work, _, rfl⟩
    rw [persist_tokenUndo]
    split
    · rfl
    · rw [update_of_ne hne]
  · rfl

theorem popBlockTokens_addBlockTokens (hdb : Stored codec db) (hnone : db.tokenUndo height = none)
    (h : addBlockTokens codec networkVersion db height txs = .ok db') :
    popBlockTokens codec networkVersion db' height = .ok db := by
  unfold addBlockTokens at h
  fun_cases popBlockTokens with
  | case1 hfork =>
    rw [if_pos hfork] at h
    exact rewind_applyTokensFromBlock hdb hnone h
  | case2 hfork =>
    rw [if_neg hfork] at h
    cases h
    rfl

variable {blocks : List (List (Transaction P))}

theorem popBlocks_addBlocks (hdb : Stored codec db)
    (hnone : forall i, i < blocks.length -> db.tokenUndo (height + i) = none)
    (h : addBlocks codec networkVersion db height blocks = .ok db') :
    popBlocks codec networkVersion db' height blocks.length = .ok db := by
  induction blocks generalizing db height with
  | nil =>
    cases h
    rfl
  | cons txs rest ih =>
    rcases bind_ok.mp h with ⟨db1, hfirst, hrest⟩
    have hnone1 : forall i, i < rest.length -> db1.tokenUndo (height + 1 + i) = none := by
      intro i hi
      rw [addBlockTokens_tokenUndo hfirst (by omega), add_assoc, add_comm 1]
      exact hnone (i + 1) (Nat.succ_lt_succ hi)
    have hpop := ih (stored_addBlockTokens hdb hfirst) hnone1 hrest
    apply bind_ok.mpr
    exact ⟨db1, hpop, popBlockTokens_addBlockTokens hdb (hnone 0 (Nat.succ_pos _)) hfirst⟩

theorem addBlocks_append (hdb : Stored codec db) {suffix : List (List (Transaction P))}
    (h : addBlocks codec networkVersion db height (blocks ++ suffix) = .ok db') :
    exists mid, addBlocks codec networkVersion db height blocks = .ok mid ∧
      addBlocks codec networkVersion mid (height + blocks.length) suffix = .ok db' ∧
      Stored codec mid ∧ forall height', height + blocks.length <= height' ->
        mid.tokenUndo height' = db.tokenUndo height' := by
  induction blocks generalizing db height with
  | nil => exact ⟨db, rfl, h, hdb, fun _ _ => rfl⟩
  | cons txs rest ih =>
    rcases bind_ok.mp h with ⟨db1, hfirst, hrest⟩
    rcases ih (stored_addBlockTokens hdb hfirst) hrest with
      ⟨mid, hmid, hsuffix, hstored, hkeep⟩
    have hlen : height + 1 + rest.length = height + (txs :: rest).length := by
      rw [length_cons]
      omega
    rw [hlen] at hsuffix hkeep
    refine ⟨mid, bind_ok.mpr ⟨db1, hfirst, hmid⟩, hsuffix, hstored, ?_⟩
    intro height' hle
    rw [hkeep height' hle, addBlockTokens_tokenUndo hfirst]
    rw [length_cons] at hle
    omega

end

/-- Rewinding is the inverse of applying, for one block and for every suffix of a
chain, over every database the node can hold. -/
theorem tokenReorg_roundtrip (codec : TokenCodec P Blob) (networkVersion : Nat -> Hf) :
    (forall db : TokenDb Blob, ReachableDb codec db -> Stored codec db) ∧
    (forall (db db' : TokenDb Blob) (height : Nat) (txs : List (Transaction P)),
      Stored codec db -> db.tokenUndo height = none ->
      applyTokensFromBlock codec db height txs = .ok db' ->
      rewindTokensForHeight codec db' height = .ok db) ∧
    (forall (db db' : TokenDb Blob) (height : Nat)
      (blocks suffix : List (List (Transaction P))), Stored codec db ->
      (forall i, i < (blocks ++ suffix).length -> db.tokenUndo (height + i) = none) ->
      addBlocks codec networkVersion db height (blocks ++ suffix) = .ok db' -> exists mid,
        addBlocks codec networkVersion db height blocks = .ok mid ∧
        popBlocks codec networkVersion db' (height + blocks.length) suffix.length = .ok mid) := by
  refine ⟨fun _ h => h.stored, ?_, ?_⟩
  · intro db db' height txs hdb hnone h
    exact rewind_applyTokensFromBlock hdb hnone h
  · intro db db' height blocks suffix hdb hnone h
    rcases addBlocks_append hdb h with ⟨mid, hmid, hsuffix, hstored, hkeep⟩
    refine ⟨mid, hmid, popBlocks_addBlocks hstored ?_ hsuffix⟩
    intro i hi
    rw [hkeep _ (Nat.le_add_right _ _), add_assoc]
    apply hnone
    rw [length_append]
    omega

/-- Over every run of blocks and rewinds, token states load and any height can be rewound. -/
theorem tokenTables_readable (networkVersion : Nat -> Hf) (hdb : ReachableDb codec db)
    (id : TokenId) (height : Nat) : (exists s, loadTokenState codec db id = .ok s ∧
      (s.existing = true <-> (db.tokenHistories id).isSome)) ∧
    exists db', popBlockTokens codec networkVersion db height = .ok db' := by
  refine ⟨?_, hdb.exists_popBlockTokens height⟩
  unfold loadTokenState
  cases hrow : db.tokenHistories id with
  | none => exact ⟨_, rfl, by simp⟩
  | some blob =>
    rcases hdb.stored id blob hrow with ⟨s, hexisting, rfl⟩
    simp only [codec.parse_dumpState]
    exact ⟨s, rfl, by simp [hexisting]⟩

def createAndMint : List (Transaction Unit) :=
  [ { Transaction.setNull Unit with
      extra := some [.tokenDescriptorOperation
        { operationType := .registerToken, fields := 4, amountCommitment := ()
          descriptor :=
            { totalMaxSupply := 1000, currentSupply := 100
              ticker := [0x54], fullName := [0x54], owner := ⟨1⟩ } }] },
    { Transaction.setNull Unit with
      extra := some [.tokenDescriptorOperation
        { operationType := .mintToken, fields := 10, amountCommitment := ()
          tokenId := ⟨7⟩, amount := 50 }] } ]

theorem tokenReorg_roundtrip_createAndMint :
    exists db', applyTokensFromBlock (plainCodec Unit) TokenDb.empty 5 createAndMint = .ok db' ∧
      rewindTokensForHeight (plainCodec Unit) db' 5 = .ok TokenDb.empty :=
  ⟨_, rfl, (tokenReorg_roundtrip (plainCodec Unit) fun _ => .hf22PrivacyTokens).2.1
    TokenDb.empty _ 5 createAndMint stored_empty rfl rfl⟩

theorem tokenTables_readable_createAndMint :
    exists db', applyTokensFromBlock (plainCodec Unit) TokenDb.empty 5 createAndMint = .ok db' ∧
      exists s, loadTokenState (plainCodec Unit) db' ⟨7⟩ = .ok s := by
  refine Exists.imp (fun db' h => ⟨h, ?_⟩) ⟨_, rfl⟩
  have hread := tokenTables_readable (fun _ => .hf22PrivacyTokens) (.apply .empty h) ⟨7⟩ 5
  exact hread.1.imp fun _ hs => hs.1

end Beldex.Token
