import Beldex.Bns.Authorisation

/-!
# The name system over a reorganisation

Blocks only add rows, those of a block under its height and new owners under
new numbers.  Detaching to a height deletes the rows from that height on and
the owners to which no row refers any more.  The two together bring back the
name system as it was.
-/

namespace Beldex.Bns

open Basic Crypto Foundation Command UniqueRows List Meets Nat

/-! ## Numbers of owners -/

def MappingRow.NamesUpTo (row : MappingRow) (n : Nat) : Prop :=
  row.ownerId <= n ∧ forall id, row.backupOwnerId = some id -> id <= n

variable {row : MappingRow}

theorem MappingRow.NamesUpTo.mono {n m : Nat} (h : row.NamesUpTo n) (hnm : n <= m) :
    row.NamesUpTo m :=
  ⟨Nat.le_trans h.1 hnm, fun id hid => Nat.le_trans (h.2 id hid) hnm⟩

structure Numbered (t : Tables) : Prop where
  owners : forall owner, owner ∈ t.owners.rows -> owner.id <= t.ownerSequence
  mappings : forall row, row ∈ t.mappings.rows -> row.NamesUpTo t.ownerSequence

/-- The second tables have come from the first by adding rows with a property, and
owners with new numbers. -/
structure Extends (p : MappingRow -> Prop) (t t' : Tables) : Prop where
  mappings : Grows p t.mappings t'.mappings
  owners : Grows (fun owner => t.ownerSequence < owner.id) t.owners t'.owners
  sequence : t.ownerSequence <= t'.ownerSequence
  numbered : Numbered t'

variable {p q : MappingRow -> Prop} {t t' t'' : Tables}

theorem Extends.refl (p : MappingRow -> Prop) (h : Numbered t) : Extends p t t where
  mappings := Grows.refl p t.mappings
  owners := Grows.refl _ t.owners
  sequence := le_refl _
  numbered := h

theorem Extends.trans (h : Extends p t t') (h' : Extends p t' t'') : Extends p t t'' where
  mappings := h.mappings.trans h'.mappings
  owners := h.owners.trans (h'.owners.mono fun _ hid => lt_of_le_of_lt h.sequence hid)
  sequence := Nat.le_trans h.sequence h'.sequence
  numbered := h'.numbered

theorem Extends.mono (hpq : forall row, p row -> q row) (h : Extends p t t') : Extends q t t' :=
  { h with
    mappings := h.mappings.mono hpq }

theorem Extends.saveSettings (h : Extends p t t') (topHeight : Nat) (topHash : Hash)
    (version : Nat) : Extends p t (t'.saveSettings topHeight topHash version) :=
  { h with
    numbered := { owners := h.numbered.owners, mappings := h.numbered.mappings } }

/-! ## Writing rows -/

theorem Extends.saveOwner {owner : GenericOwner} {id : Nat} (h : Extends p t t')
    (hsave : t'.saveOwner owner = some (id, t'')) :
    Extends p t t'' ∧ id = t''.ownerSequence ∧ t'.ownerSequence <= t''.ownerSequence := by
  rcases Option.bind_eq_some_iff.mp hsave with ⟨owners, hinsert, hsaved⟩
  cases hsaved
  refine ⟨?_, rfl, le_succ _⟩
  have hgrows : Grows (fun owner => t'.ownerSequence < owner.id) t'.owners owners :=
    Grows.of_insert? (lt_succ_self _) hinsert
  have hstep : Extends p t' { t' with owners := owners, ownerSequence := t'.ownerSequence + 1 } :=
    { mappings := Grows.refl p t'.mappings
      owners := hgrows
      sequence := le_succ _
      numbered :=
        { owners := by
            intro owner howner
            rw [rows_insert? hinsert, mem_append, mem_singleton] at howner
            rcases howner with hold | rfl
            · exact le_succ_of_le (h.numbered.owners owner hold)
            · exact le_refl _
          mappings := fun row hrow => (h.numbered.mappings row hrow).mono (le_succ _) } }
  exact h.trans hstep

theorem Extends.insertMapping {u : Unit} (h : Extends p t t')
    (hp : p { row with id := t'.nextRowid }) (hnames : row.NamesUpTo t'.ownerSequence)
    (hinsert : t'.insertMapping row = some (u, t'')) : Extends p t t'' := by
  rcases Option.bind_eq_some_iff.mp hinsert with ⟨mappings, hrow, hsaved⟩
  cases hsaved
  have hgrows : Grows p t'.mappings mappings :=
    Grows.of_insert? hp hrow
  have hstep : Extends p t' { t' with mappings := mappings } :=
    { mappings := hgrows
      owners := Grows.refl _ t'.owners
      sequence := le_refl _
      numbered :=
        { owners := h.numbered.owners
          mappings := by
            intro old hold
            rw [rows_insert? hrow, mem_append, mem_singleton] at hold
            rcases hold with hold | rfl
            · exact h.numbered.mappings old hold
            · exact hnames } }
  exact h.trans hstep

def AtHeight (height : Nat) (row : MappingRow) : Prop :=
  row.updateHeight = height

variable {height : Nat}

/-- The state of a command that writes rows of a height over the tables `t`, when the
numbers up to `n` are in use. -/
def Writing (height : Nat) (t : Tables) (n : Nat) (s : Tables) : Prop :=
  Extends (AtHeight height) t s ∧ n <= s.ownerSequence

theorem saveOwnerUnlessFound_meets (key : GenericOwner) (found n : Nat) :
    Meets (Writing height t (max n found)) (saveOwnerUnlessFound key found)
      fun id s => Writing height t (max n id) s := by
  unfold saveOwnerUnlessFound
  split
  · refine modify? ?_
    intro s id s' hs hsave
    rcases hs.1.saveOwner hsave with ⟨hextends, hid, hle⟩
    refine ⟨hextends, Nat.max_le.mpr ⟨?_, le_of_eq hid⟩⟩
    exact Nat.le_trans (Nat.le_trans (Nat.le_max_left _ _) hs.2) hle
  · exact pure fun s hs => hs

theorem addOrGetOwnerId_meets (key : GenericOwner) (n : Nat) :
    Meets (Writing height t n) (addOrGetOwnerId key) fun id s => Writing height t (max n id) s := by
  refine bind
    (Q := fun owner s => Writing height t (max n ((owner.map OwnerRow.id).getD 0)) s) ?_ ?_
  · refine inspect ?_
    intro s hs
    refine ⟨hs.1, Nat.max_le.mpr ⟨hs.2, ?_⟩⟩
    cases hfind : s.getOwnerByKey key with
    | none => exact zero_le _
    | some owner => exact hs.1.numbered.owners owner (mem_of_find?_eq_some hfind)
  · intro owner
    refine bind (saveOwnerUnlessFound_meets key _ n) ?_
    intro id
    split
    · exact fail
    · exact pure fun s hs => hs

theorem givenOwnerId_meets (given : Bool) (key : GenericOwner) (n : Nat) :
    Meets (Writing height t n) (givenOwnerId given key)
      fun id s => Writing height t (max n (id.getD 0)) s := by
  unfold givenOwnerId
  split
  · refine bind (addOrGetOwnerId_meets key n) ?_
    intro id
    exact pure fun s hs => hs
  · refine pure ?_
    intro s hs
    exact ⟨hs.1, Nat.max_le.mpr ⟨hs.2, zero_le _⟩⟩

theorem saveMapping_meets (txHash : Hash) (src : BnsExtra) (expiration ownerId : Nat)
    (backupOwnerId : Option Nat) (n : Nat) (howner : ownerId <= n)
    (hbackup : forall id, backupOwnerId = some id -> id <= n) :
    Meets (Writing height t n)
      (saveMapping txHash src height expiration ownerId backupOwnerId)
      fun _ s => Extends (AtHeight height) t s := by
  unfold saveMapping
  split
  · exact fail
  · refine modify? ?_
    intro s u s' hs hinsert
    refine hs.1.insertMapping ?_ ?_ hinsert
    · exact rfl
    · exact ⟨Nat.le_trans howner hs.2, fun id hid => Nat.le_trans (hbackup id hid) hs.2⟩

/-- A change makes a row of a height out of any row, and names no new owners. -/
def Changes (height : Nat) (t : Tables) (change : MappingRow -> MappingRow) (s : Tables) : Prop :=
  Extends (AtHeight height) t s ∧
    forall row, row.NamesUpTo s.ownerSequence ->
      AtHeight height (change row) ∧ (change row).NamesUpTo s.ownerSequence

theorem updateRecordQuery_meets (env : NameEnvironment) (entry : BnsExtra) (txHash : Hash) :
    Meets (Extends (AtHeight height) t) (updateRecordQuery env height entry txHash)
      (Changes height t) := by
  unfold updateRecordQuery
  split
  · refine pure ?_
    intro s hs
    exact ⟨hs, fun row hrow => ⟨rfl, hrow⟩⟩
  · refine bind
      (Q := fun ownerId s => Writing height t (max 0 (ownerId.getD 0)) s) ?_ ?_
    · intro s ownerId s' hs hrun
      exact givenOwnerId_meets _ entry.owner 0 s ownerId s' ⟨hs, zero_le _⟩ hrun
    · intro ownerId
      refine bind (givenOwnerId_meets _ entry.backupOwner _) ?_
      intro backupOwnerId
      refine pure ?_
      intro s hs
      refine ⟨hs.1, ?_⟩
      intro row hrow
      refine ⟨rfl, ?_, ?_⟩
      · cases ownerId with
        | none => exact hrow.1
        | some id =>
          exact Nat.le_trans (Nat.le_trans (le_max_right 0 id) (Nat.le_max_left _ _)) hs.2
      · intro id hid
        cases backupOwnerId with
        | none => exact hrow.2 id hid
        | some backup =>
          cases hid
          exact Nat.le_trans (le_max_right _ _) hs.2

theorem insertChanged_meets (nameHash : Hash) (change : MappingRow -> MappingRow) :
    Meets (Changes height t change) (insertChanged nameHash change)
      fun _ s => Extends (AtHeight height) t s := by
  refine modify? ?_
  intro s u s' hs hinsert
  cases hnewest : s.newestRow nameHash with
  | none =>
    rw [hnewest] at hinsert
    cases hinsert
    exact hs.1
  | some row =>
    rw [hnewest] at hinsert
    have hmem : row ∈ s.mappings.rows :=
      (mem_filter.mp (argmax_mem hnewest)).1
    rcases hs.2 row (hs.1.numbered.mappings row hmem) with ⟨hht, hnames⟩
    exact hs.1.insertMapping hht hnames hinsert

theorem addBnsEntry_meets (env : NameEnvironment) (entry : BnsExtra) (txHash : Hash) :
    Meets (Extends (AtHeight height) t) (addBnsEntry env height entry txHash)
      fun _ s => Extends (AtHeight height) t s := by
  unfold addBnsEntry
  split
  · refine bind (Q := fun ownerId s => Writing height t (max 0 ownerId) s) ?_ ?_
    · intro s ownerId s' hs hrun
      exact addOrGetOwnerId_meets entry.owner 0 s ownerId s' ⟨hs, zero_le _⟩ hrun
    · intro ownerId
      refine bind (givenOwnerId_meets _ entry.backupOwner _) ?_
      intro backup
      apply saveMapping_meets
      · exact Nat.le_trans (le_max_right 0 ownerId) (Nat.le_max_left _ _)
      · intro id hid
        rw [hid]
        exact le_max_right _ _
  · exact bind (updateRecordQuery_meets env entry txHash)
      (insertChanged_meets entry.nameHash)

theorem addTxs_meets (env : NameEnvironment) (hfVersion : Hf) (parsed : Bool) (txs : List NameTx) :
    Meets (Extends (AtHeight height) t) (addTxs env hfVersion height parsed txs)
      fun _ s => Extends (AtHeight height) t s := by
  induction txs generalizing parsed with
  | nil => exact pure fun s hs => hs
  | cons tx rest ih =>
    unfold addTxs
    split
    · exact ih parsed
    · refine bind (Q := fun _ s => Extends (AtHeight height) t s)
        (inspect fun s hs => hs) ?_
      intro validated
      refine bind (Q := fun _ s => Extends (AtHeight height) t s)
        (ofOption fun s entry hs _ => hs) ?_
      intro entry
      refine bind (addBnsEntry_meets env entry tx.hash) ?_
      intro _
      exact ih true

/-! ## Blocks -/

structure Sound (db : NameSystemDb) : Prop where
  numbered : Numbered db.tables
  processed : forall row, row ∈ db.tables.mappings.rows ->
    row.updateHeight <= db.lastProcessedHeight

theorem sound_fresh : Sound NameSystemDb.fresh where
  numbered :=
    { owners := fun _ h => absurd h not_mem_nil
      mappings := fun _ h => absurd h not_mem_nil }
  processed := fun _ h => absurd h not_mem_nil

def Above (height : Nat) (row : MappingRow) : Prop :=
  height < row.updateHeight

/-- The three ends of `add_block`: the block is old, it fails and leaves everything as it
was, or its rows are written. -/
theorem addBlock_cases (env : NameEnvironment) (db : NameSystemDb) (block : NameBlock) :
    (block.height <= db.lastProcessedHeight ∧ db.addBlock env block = (true, db)) ∨
      (db.addBlock env block = (false, db)) ∨
      (db.lastProcessedHeight < block.height ∧ exists txs parsed tables tables',
        addTxs env block.majorVersion block.height false txs db.tables = (some parsed, tables) ∧
        (tables' = db.tables ∨ tables' = tables.saveSettings block.height block.hash dbVersion) ∧
        db.addBlock env block = (true,
          { tables := tables', lastProcessedHeight := block.height
            lastProcessedHash := block.hash, transactionBegun := false })) := by
  fun_cases NameSystemDb.addBlock env db block with
  | case1 hold => exact Or.inl ⟨hold, rfl⟩
  | case2 => exact Or.inr (Or.inl rfl)
  | case3 hold hbegun begun opened txs tables hrun =>
    refine Or.inr (Or.inl ?_)
    rcases db with ⟨begun, last, hash, transactionBegun⟩
    rw [Bool.not_eq_true] at hbegun
    cases hbegun
    rfl
  | case4 hold hbegun begun opened txs parsed tables hrun =>
    exact Or.inr (Or.inr ⟨lt_of_not_ge hold, txs, parsed, tables, _, hrun, Or.inr rfl, rfl⟩)
  | case5 hold hbegun begun opened txs parsed tables hrun =>
    exact Or.inr (Or.inr ⟨lt_of_not_ge hold, txs, parsed, tables, _, hrun, Or.inl rfl, rfl⟩)

variable {env : NameEnvironment} {db : NameSystemDb}

theorem addBlock_eq_false {block : NameBlock} (h : (db.addBlock env block).1 = false) :
    (db.addBlock env block).2 = db := by
  rcases addBlock_cases env db block with ⟨_, heq⟩ | heq | ⟨_, _, _, _, _, _, _, heq⟩
  · rw [heq]
  · rw [heq]
  · rw [heq] at h
    cases h

theorem Sound.addBlock {db' : NameSystemDb} {block : NameBlock} (hdb : Sound db)
    (h : db.addBlock env block = (true, db')) :
    Extends (Above db.lastProcessedHeight) db.tables db'.tables ∧ Sound db' ∧
      db.lastProcessedHeight <= db'.lastProcessedHeight := by
  rcases addBlock_cases env db block with ⟨_, heq⟩ | heq |
    ⟨hnew, txs, parsed, tables, tables', hrun, htables, heq⟩
  · cases heq.symm.trans h
    exact ⟨Extends.refl _ hdb.numbered, hdb, le_refl _⟩
  · cases heq.symm.trans h
  · cases heq.symm.trans h
    have hextends : Extends (AtHeight block.height) db.tables tables :=
      addTxs_meets env block.majorVersion false txs db.tables parsed tables
        (Extends.refl _ hdb.numbered) hrun
    have hextends' : Extends (AtHeight block.height) db.tables tables' := by
      rcases htables with rfl | rfl
      · exact Extends.refl _ hdb.numbered
      · exact hextends.saveSettings block.height block.hash dbVersion
    refine ⟨hextends'.mono ?_, ?_, le_of_lt hnew⟩
    · intro row hrow
      unfold Above
      rw [show row.updateHeight = block.height from hrow]
      exact hnew
    · refine { numbered := hextends'.numbered, processed := ?_ }
      refine hextends'.mappings.forall_rows ?_ ?_
      · intro row hrow
        exact Nat.le_trans (hdb.processed row hrow) (le_of_lt hnew)
      · intro row hrow
        exact le_of_eq hrow

theorem Sound.addBlocks {db' : NameSystemDb} {blocks : List NameBlock} (hdb : Sound db)
    (h : db.addBlocks env blocks = some db') :
    Extends (Above db.lastProcessedHeight) db.tables db'.tables := by
  induction blocks generalizing db with
  | nil =>
    cases h
    exact Extends.refl _ hdb.numbered
  | cons block rest ih =>
    unfold NameSystemDb.addBlocks at h
    split at h
    next next hblock =>
      rcases hdb.addBlock hblock with ⟨hextends, hnext, hle⟩
      refine hextends.trans ((ih hnext h).mono ?_)
      intro row hrow
      exact lt_of_le_of_lt hle hrow
    · cases h

/-! ## Detaching -/

variable {t : Tables}

theorem Numbered.prune (h : Numbered t) (height : Nat) :
    Numbered (t.pruneMappings height).pruneOwners where
  owners := fun owner howner => h.owners owner (mem_rows_deleteWhere.mp howner).1
  mappings := fun row hrow => h.mappings row (mem_rows_deleteWhere.mp hrow).1

theorem Sound.blockDetach (hdb : Sound db) (height : Nat) : Sound (db.blockDetach height) where
  numbered := hdb.numbered.prune height
  processed := by
    intro row hrow
    have hkept := (mem_rows_deleteWhere.mp hrow).2
    rw [decide_eq_false_iff_not, not_le] at hkept
    change row.updateHeight <= if height = 0 then 2 ^ 64 - 1 else height - 1
    rw [if_neg (ne_of_gt (zero_lt_of_lt hkept))]
    exact le_sub_one_of_lt hkept

inductive Reachable (env : NameEnvironment) : NameSystemDb -> Prop where
  | fresh : Reachable env NameSystemDb.fresh
  | addBlock {db : NameSystemDb} (block : NameBlock) :
      Reachable env db -> Reachable env (db.addBlock env block).2
  | blockDetach {db : NameSystemDb} (height : Nat) :
      Reachable env db -> Reachable env (db.blockDetach height)

theorem Reachable.sound (h : Reachable env db) : Sound db := by
  induction h with
  | fresh => exact sound_fresh
  | @addBlock db block _ ih =>
    cases hres : (db.addBlock env block).1 with
    | false =>
      rw [addBlock_eq_false hres]
      exact ih
    | true => exact (ih.addBlock (Prod.ext hres rfl)).2.1
  | blockDetach height _ ih => exact ih.blockDetach height

def Tables.reachableOwners (t : Tables) : List OwnerRow :=
  t.owners.rows.filter t.refersTo

theorem not_refersTo (h : Numbered t) {owner : OwnerRow}
    (hnew : t.ownerSequence < owner.id) : t.refersTo owner = false := by
  unfold Tables.refersTo
  rw [any_eq_false]
  intro row hrow
  rcases h.mappings row hrow with ⟨howner, hbackup⟩
  rw [Bool.or_eq_true, beq_iff_eq, beq_iff_eq]
  rintro (hid | hid)
  · omega
  · have hle := hbackup owner.id hid
    omega

theorem Extends.pruneMappings_eq (hdb : Sound db)
    (h : Extends (Above db.lastProcessedHeight) db.tables t) :
    (t.pruneMappings (db.lastProcessedHeight + 1)).mappings = db.tables.mappings := by
  have hgrows : Grows
      (fun row => decide (db.lastProcessedHeight + 1 <= row.updateHeight) = true)
      db.tables.mappings t.mappings :=
    h.mappings.mono fun _ hrow => decide_eq_true (succ_le_of_lt hrow)
  refine hgrows.deleteWhere_eq.trans (deleteWhere_eq_self ?_)
  intro row hrow
  have hle := hdb.processed row hrow
  exact decide_eq_false (Nat.not_le_of_lt (lt_succ_of_le hle))

theorem Extends.prunedOwners_eq (hdb : Sound db)
    (h : Extends (Above db.lastProcessedHeight) db.tables t) :
    (t.pruneMappings (db.lastProcessedHeight + 1)).pruneOwners.owners.rows =
      db.tables.reachableOwners := by
  rcases h.owners with ⟨added, hrows, hadded⟩
  have hrefers : (t.pruneMappings (db.lastProcessedHeight + 1)).refersTo = db.tables.refersTo := by
    funext owner
    unfold Tables.refersTo
    rw [h.pruneMappings_eq hdb]
  have hnone : added.filter db.tables.refersTo = [] := by
    apply filter_eq_nil_iff.mpr
    intro owner howner
    rw [not_refersTo hdb.numbered (hadded owner howner)]
    exact Bool.false_ne_true
  unfold Tables.pruneOwners deleteWhere
  simp only [Bool.not_not, hrefers]
  change t.owners.rows.filter db.tables.refersTo = _
  rw [hrows, filter_append, hnone, append_nil]
  rfl

/-! ## Reading what was restored -/

/-- Tables with the same mappings, of which one has lost the owners nobody refers to. -/
structure Restored (t t' : Tables) : Prop where
  mappings : t'.mappings = t.mappings
  owners : t'.owners.rows = t.reachableOwners

section

variable (h : Restored t t')
include h

theorem Restored.reachableOwners : t'.reachableOwners = t.reachableOwners := by
  unfold Tables.reachableOwners
  have hrefers : t'.refersTo = t.refersTo := by
    funext owner
    unfold Tables.refersTo
    rw [h.mappings]
  rw [h.owners, hrefers]
  unfold Tables.reachableOwners
  rw [filter_filter]
  simp

theorem Restored.getOwnerById (hrow : row ∈ t.mappings.rows) {id : Nat}
    (hid : row.ownerId = id ∨ row.backupOwnerId = some id) :
    t'.getOwnerById id = t.getOwnerById id := by
  unfold Tables.getOwnerById
  rw [h.owners, Tables.reachableOwners, find?_filter]
  congr 1
  funext owner
  cases heq : owner.id == id with
  | false => simp
  | true =>
    rw [beq_iff_eq] at heq
    have hrefers : t.refersTo owner = true := by
      unfold Tables.refersTo
      rw [any_eq_true]
      refine ⟨row, hrow, ?_⟩
      rw [Bool.or_eq_true, beq_iff_eq, beq_iff_eq, heq]
      exact hid
    simp [hrefers]

theorem Restored.join (hrow : row ∈ t.mappings.rows) : t'.join row = t.join row := by
  unfold Tables.join
  rw [h.getOwnerById hrow (Or.inl rfl)]
  have hbackup : row.backupOwnerId.bind t'.getOwnerById =
      row.backupOwnerId.bind t.getOwnerById := by
    cases hid : row.backupOwnerId with
    | none => rfl
    | some id => exact h.getOwnerById hrow (Or.inr hid)
  rw [hbackup]

theorem Restored.getMapping (nameHash : Hash) (height : Option Nat) :
    t'.getMapping nameHash height = t.getMapping nameHash height := by
  have hselect : t'.selectMapping nameHash = t.selectMapping nameHash := by
    unfold Tables.selectMapping
    rw [h.mappings]
    congr 1
    apply filterMap_congr
    intro row hrow
    exact h.join (mem_filter.mp hrow).1
  unfold Tables.getMapping
  rw [hselect]

theorem Restored.resolve (type : MappingType) (nameHash : Hash)
    (height : Nat) : t'.resolve type nameHash height = t.resolve type nameHash height := by
  unfold Tables.resolve
  rw [h.mappings]

end

/-- Blocks that are accepted on top of a reachable state are taken back by a detach to
the height at which they began, and a block that is not accepted changes nothing. -/
theorem nameReorg_restores {env : NameEnvironment} {db : NameSystemDb} (hdb : Reachable env db) :
    (forall blocks db', db.addBlocks env blocks = some db' ->
      (db'.blockDetach (db.lastProcessedHeight + 1)).tables.mappings = db.tables.mappings ∧
      (db'.blockDetach (db.lastProcessedHeight + 1)).tables.reachableOwners =
        db.tables.reachableOwners ∧
      (db'.blockDetach (db.lastProcessedHeight + 1)).lastProcessedHeight = db.lastProcessedHeight ∧
      (forall nameHash height,
        (db'.blockDetach (db.lastProcessedHeight + 1)).tables.getMapping nameHash height =
          db.tables.getMapping nameHash height) ∧
      (forall type nameHash height,
        (db'.blockDetach (db.lastProcessedHeight + 1)).tables.resolve type nameHash height =
          db.tables.resolve type nameHash height)) ∧
    (forall block, (db.addBlock env block).1 = false -> (db.addBlock env block).2 = db) := by
  have hsound := hdb.sound
  refine ⟨?_, fun block hblock => addBlock_eq_false hblock⟩
  intro blocks db' hblocks
  have hextends := hsound.addBlocks hblocks
  have hrestored : Restored db.tables
      (db'.blockDetach (db.lastProcessedHeight + 1)).tables :=
    { mappings := hextends.pruneMappings_eq hsound
      owners := hextends.prunedOwners_eq hsound }
  exact ⟨hrestored.mappings, hrestored.reachableOwners, rfl, hrestored.getMapping,
    hrestored.resolve⟩

def trustingEnvironment : NameEnvironment where
  nettype := .fakechain
  checkSignature := fun _ _ _ => true
  cryptoSignVerifyDetached := fun _ _ _ => true
  cryptoGenerichash := fun data => ⟨BitVec.ofNat 256 (Bytes.ofBytes data)⟩

def purchaseBlock : NameBlock where
  majorVersion := .hf18Bns
  height := 1
  hash := ⟨1⟩
  txs :=
    [{ type := .beldexNameSystem
       hash := ⟨9⟩
       bnsExtra := some
         { nameHash := ⟨7⟩
           fields := ExtraField.owner ||| ExtraField.encryptedBelnetValue
           owner := .ed25519 ⟨1⟩
           encryptedBelnetValue := replicate 72 0
           years_read := handOver.years_read }
       burnedAmount := burnNeeded .hf18Bns .bns1Year }]

def saleBlock : NameBlock where
  majorVersion := .hf18Bns
  height := 2
  hash := ⟨2⟩
  txs :=
    [{ type := .beldexNameSystem
       hash := ⟨10⟩
       bnsExtra := some handOver
       burnedAmount := burnNeeded .hf18Bns .updateOwnerRecord }]

def boughtName : NameSystemDb :=
  (NameSystemDb.fresh.addBlock trustingEnvironment purchaseBlock).2

section Samples

set_option maxRecDepth 4000

theorem nameReorg_restores_sale :
    exists db', boughtName.addBlocks trustingEnvironment [saleBlock] = some db' ∧
      db'.tables.mappings.rows.length = 2 ∧ db'.tables.owners.rows.length = 2 ∧
      (db'.blockDetach 2).tables.mappings = boughtName.tables.mappings ∧
      (db'.blockDetach 2).tables.getMapping ⟨7⟩ none = boughtName.tables.getMapping ⟨7⟩ none := by
  have hreachable : Reachable trustingEnvironment boughtName :=
    Reachable.fresh.addBlock purchaseBlock
  refine ⟨(boughtName.addBlock trustingEnvironment saleBlock).2, rfl, rfl, rfl, ?_⟩
  have hrestored := (nameReorg_restores hreachable).1 [saleBlock] _ rfl
  exact ⟨hrestored.1, hrestored.2.2.2.1 _ _⟩

end Samples

end Beldex.Bns
