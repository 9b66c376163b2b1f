import Beldex.Voting.Checkpoint

/-!
# The checkpoints of a node

The stored checkpoints decide which alternative blocks are still looked at.
New blocks cull old checkpoints in steps of the checkpoint interval and bring
their own, and detached blocks take the checkpoints above them away in such
steps, whatever their type is.
-/

namespace Beldex.Chain

open Basic Crypto Foundation Foundation.Ranked Voting

variable {P : Type}

section

/-- The stored checkpoints, and what is kept of them in memory only. -/
structure Checkpoints where
  db : CheckpointDb
  lastCullHeight : Nat
  immutableHeight : Nat

def checkpointStorePersistentlyInterval : Nat := 60

def checkpointNumCheckpointsForChainFinality : Nat := 2

/-! ## Queries -/

/-- The stored checkpoints with their heights, from the lowest to the highest. -/
def byHeight (db : CheckpointDb) : List (UInt64 × Checkpoint) :=
  sortByRank (fun entry => entry.1.toNat) db.entries

def getTopCheckpoint (db : CheckpointDb) : Option (UInt64 × Checkpoint) :=
  (byHeight db).getLast?

/-- At most `count` stored checkpoints on the way from one height to another, after
both ends are moved between the lowest and the highest stored height. -/
def getCheckpointsRange (db : CheckpointDb) (start stop count : Nat) : List (UInt64 × Checkpoint) :=
  match (byHeight db).head?, getTopCheckpoint db with
  | some bottom, some top =>
    let start := max bottom.1.toNat (min start top.1.toNat)
    let stop := max bottom.1.toNat (min stop top.1.toNat)
    if start <= stop then
      ((byHeight db).filter fun entry =>
        start <= entry.1.toNat && entry.1.toNat <= stop).take count
    else
      ((byHeight db).reverse.filter fun entry =>
        stop <= entry.1.toNat && entry.1.toNat <= start).take count
  | _, _ => []

/-- The checkpoint below which nothing is reorganized: the last one when it is
hardcoded, and otherwise the one before it. -/
def getImmutableCheckpoint (db : CheckpointDb) (blockHeight : Nat) : Option (UInt64 × Checkpoint) :=
  match getCheckpointsRange db blockHeight 0 checkpointNumCheckpointsForChainFinality with
  | [] => none
  | last :: rest => if last.2.type = .masterNode then rest.head? else some last

def isInCheckpointZone (db : CheckpointDb) (height : Nat) : Bool :=
  match getTopCheckpoint db with
  | some top => height <= top.1.toNat
  | none => height <= 0

def heightIsCheckpointed (db : CheckpointDb) (height : UInt64) : Bool :=
  (db.find? height).isSome

def checkBlock (db : CheckpointDb) (height : UInt64) (hash : Hash) : Bool :=
  match db.find? height with
  | some checkpoint => checkpoint.blockHash == hash
  | none => true

def isMasterNodeCheckpoint (db : CheckpointDb) (height : UInt64) : Bool :=
  match db.find? height with
  | some checkpoint => checkpoint.type == .masterNode
  | none => false

/-! ## The reorganization window -/

variable (checkpoints : Checkpoints) (blockchainHeight : Nat)

/-- The height up to which alternative blocks are refused by a chain of this height. -/
def Checkpoints.barrier : Nat :=
  max ((getImmutableCheckpoint checkpoints.db blockchainHeight).elim 0 fun entry =>
    entry.1.toNat) checkpoints.immutableHeight

def Checkpoints.isUnchecked : Bool :=
  match getCheckpointsRange checkpoints.db 0 blockchainHeight 1 with
  | [] => true
  | first :: _ => blockchainHeight < first.1.toNat

/-- The answer, and the checkpoints with the immutable height it left behind. -/
def Checkpoints.isAlternativeBlockAllowed (blockHeight : Nat) : Bool × Checkpoints :=
  if blockHeight = 0 then
    (false, checkpoints)
  else if checkpoints.isUnchecked blockchainHeight then
    (true, checkpoints)
  else
    (checkpoints.barrier blockchainHeight < blockHeight,
      { checkpoints with immutableHeight := checkpoints.barrier blockchainHeight })

/-! ## Updates -/

def Checkpoints.updateCheckpoint (checkpoint : Checkpoint) : Checkpoints :=
  { checkpoints with db := checkpoints.db.set checkpoint.height checkpoint.asStored }

def startCullHeight (stop : Nat) : Nat :=
  let start := stop - checkpointStorePersistentlyInterval
  let excess := start % checkpointInterval.toNat
  if 0 < excess then start + (checkpointInterval.toNat - excess) else start

def isCulled (start stop height : Nat) : Bool :=
  start <= height && height < stop && (height - start) % checkpointInterval.toNat == 0 &&
    height % checkpointStorePersistentlyInterval != 0

def cullEnd (start stop : Nat) : Nat :=
  let interval := checkpointInterval.toNat
  start + interval * ((stop - start + (interval - 1)) / interval)

def Checkpoints.cull (height : Nat) : Checkpoints :=
  let stop := (getImmutableCheckpoint checkpoints.db (height + 1)).elim 0 fun entry =>
    entry.1.toNat
  let start := max checkpoints.lastCullHeight (startCullHeight stop)
  { checkpoints with
    db := checkpoints.db.restrict fun h => !isCulled start stop h.toNat
    lastCullHeight := cullEnd start stop }

def Checkpoints.attach (checkpoint : Option Checkpoint) : Checkpoints :=
  match checkpoint with
  | some checkpoint =>
    if checkpoint.height = exemptHeight then checkpoints
    else checkpoints.updateCheckpoint checkpoint
  | none => checkpoints

def Checkpoints.blockAdd (block : Block P) (checkpoint : Option Checkpoint) : Checkpoints :=
  let height := (getBlockHeight block).toNat
  if height < checkpointStorePersistentlyInterval ∨ block.majorVersion < Hf.hf13Checkpointing then
    checkpoints
  else
    (checkpoints.cull height).attach checkpoint

/-- The heights that a detach deletes: every fourth one from the top down. -/
def isDetached (top height h : Nat) : Bool :=
  height <= h && checkpointInterval.toNat <= h && h <= top &&
    (top - h) % checkpointInterval.toNat == 0

def Checkpoints.blockchainDetached (height : Nat) : Checkpoints where
  lastCullHeight := min checkpoints.lastCullHeight height
  immutableHeight := checkpoints.immutableHeight
  db :=
    match getTopCheckpoint checkpoints.db with
    | some top => checkpoints.db.restrict fun h => !isDetached top.1.toNat height h.toNat
    | none => checkpoints.db

/-! ## Asking again -/

theorem isAlternativeBlockAllowed_db (blockHeight : Nat) :
    (checkpoints.isAlternativeBlockAllowed blockchainHeight blockHeight).2.db = checkpoints.db := by
  unfold Checkpoints.isAlternativeBlockAllowed
  split
  · rfl
  · split
    · rfl
    · rfl

variable {blockHeight : Nat}

/-- After a question about a block every other answer is as before, and the immutable
height does not move any more. -/
theorem isAlternativeBlockAllowed_again (h : blockHeight ≠ 0) (other : Nat) :
    (checkpoints.isAlternativeBlockAllowed blockchainHeight
        blockHeight).2.isAlternativeBlockAllowed blockchainHeight other =
      ((checkpoints.isAlternativeBlockAllowed blockchainHeight other).1,
        (checkpoints.isAlternativeBlockAllowed blockchainHeight blockHeight).2) := by
  unfold Checkpoints.isAlternativeBlockAllowed
  rw [if_neg h]
  cases hunchk : checkpoints.isUnchecked blockchainHeight with
  | true =>
    simp only [if_true, hunchk]
    split <;> rfl
  | false =>
    have hunchk' : ({ checkpoints with
        immutableHeight := checkpoints.barrier blockchainHeight } :
          Checkpoints).isUnchecked blockchainHeight = false := hunchk
    have hbarrier : ({ checkpoints with
        immutableHeight := checkpoints.barrier blockchainHeight } :
          Checkpoints).barrier blockchainHeight = checkpoints.barrier blockchainHeight := by
      unfold Checkpoints.barrier
      dsimp only
      omega
    simp only [Bool.false_eq_true, if_false, hunchk', hbarrier]
    split <;> rfl

def Checkpoints.threshold : Nat :=
  if checkpoints.isUnchecked blockchainHeight then 0
  else checkpoints.barrier blockchainHeight

theorem threshold_lt_of_allowed {checkpoints : Checkpoints} {blockchainHeight : Nat}
    (h : (checkpoints.isAlternativeBlockAllowed blockchainHeight blockHeight).1 = true) :
    checkpoints.threshold blockchainHeight < blockHeight := by
  unfold Checkpoints.isAlternativeBlockAllowed at h
  unfold Checkpoints.threshold
  split at h
  · cases h
  next hht =>
    split at h
    next hunchk =>
      rw [if_pos hunchk]
      exact Nat.pos_of_ne_zero hht
    next hchk =>
      rw [if_neg hchk]
      exact of_decide_eq_true h

/-! ## What a detach takes away -/

variable {db : CheckpointDb}

theorem getTopCheckpoint_eq_some {top : UInt64 × Checkpoint} (h : getTopCheckpoint db = some top) :
    db.find? top.1 = some top.2 ∧ forall height checkpoint, db.find? height = some checkpoint ->
        height.toNat <= top.1.toNat := by
  rcases getLast?_sortByRank h with ⟨htop, hle⟩
  refine ⟨db.find?_eq_some_of_mem htop, ?_⟩
  intro height checkpoint hfind
  exact hle _ (db.mem_of_find?_eq_some hfind)

theorem getTopCheckpoint_eq_none (h : getTopCheckpoint db = none) (height : UInt64) :
    db.find? height = none := by
  have hnil : byHeight db = [] := List.getLast?_eq_none_iff.mp h
  cases hfind : db.find? height with
  | none => rfl
  | some checkpoint =>
    have hmem : (height, checkpoint) ∈ byHeight db :=
      (sortByRank_perm _).mem_iff.mpr (db.mem_of_find?_eq_some hfind)
    rw [hnil] at hmem
    cases hmem

/-- No stored checkpoint is at the height or above it, where a detach looks. -/
def Checkpoints.endsBelow (height : Nat) : Prop :=
  forall h checkpoint, checkpoints.db.find? h = some checkpoint ->
    h.toNat < height ∨ h.toNat < checkpointInterval.toNat

theorem find?_blockchainDetached_eq_iff (height : Nat) :
    (forall h, (checkpoints.blockchainDetached height).db.find? h = checkpoints.db.find? h) <->
      checkpoints.endsBelow height := by
  unfold Checkpoints.blockchainDetached Checkpoints.endsBelow
  cases htop : getTopCheckpoint checkpoints.db with
  | none =>
    simp [getTopCheckpoint_eq_none htop]
  | some top =>
    rcases getTopCheckpoint_eq_some htop with ⟨hfind, hle⟩
    simp only [Table.find?_restrict_eq_iff, Bool.not_eq_true']
    constructor
    · intro h k checkpoint hk
      -- the top one is deleted as soon as any other is high enough
      have hbelow := h top.1 top.2 hfind
      have hk' := hle k checkpoint hk
      simp only [isDetached, le_refl, Nat.sub_self, Nat.zero_mod, beq_self_eq_true, decide_true,
        Bool.and_true, Bool.and_eq_false_iff, decide_eq_false_iff_not, not_le] at hbelow
      omega
    · intro h k checkpoint hk
      simp only [isDetached, Bool.and_eq_false_iff, decide_eq_false_iff_not, not_le]
      rcases h k checkpoint hk with hlt | hlt
      · exact Or.inl (Or.inl (Or.inl hlt))
      · exact Or.inl (Or.inl (Or.inr hlt))

/-- No stored checkpoint is among those that a block of this height culls. -/
def Checkpoints.cullsNothing (height : Nat) : Prop :=
  let stop := (getImmutableCheckpoint checkpoints.db (height + 1)).elim 0 fun entry =>
    entry.1.toNat
  forall h checkpoint, checkpoints.db.find? h = some checkpoint ->
    isCulled (max checkpoints.lastCullHeight (startCullHeight stop)) stop h.toNat = false

/-- The block finds no checkpoint to cull, and the one it brings is not below it. -/
def Checkpoints.addsOnTop (block : Block P) (checkpoint : Option Checkpoint) : Prop :=
  let height := (getBlockHeight block).toNat
  height < checkpointStorePersistentlyInterval ∨ block.majorVersion < Hf.hf13Checkpointing ∨
    checkpoints.cullsNothing height ∧ forall own, checkpoint = some own ->
      own.height = exemptHeight ∨ height <= own.height.toNat

variable {checkpoints : Checkpoints} {height : Nat} {own : Checkpoint}

theorem find?_cull (h : checkpoints.cullsNothing height) (k : UInt64) :
    (checkpoints.cull height).db.find? k = checkpoints.db.find? k := by
  refine (checkpoints.db.find?_restrict_eq_iff _).mpr ?_ k
  intro k checkpoint hk
  rw [h k checkpoint hk]
  rfl

/-- A checkpoint that is set above all others is the one that the detach deletes. -/
theorem find?_updateCheckpoint_blockchainDetached (hends : checkpoints.endsBelow height)
    (hlow : checkpointInterval.toNat <= height) (habove : height <= own.height.toNat) (k : UInt64) :
    ((checkpoints.updateCheckpoint own).blockchainDetached height).db.find? k =
      checkpoints.db.find? k := by
  have hfresh : forall h checkpoint, checkpoints.db.find? h = some checkpoint ->
      h.toNat < height := fun h checkpoint hfind => by
    rcases hends h checkpoint hfind with hlt | hlt <;> omega
  unfold Checkpoints.blockchainDetached Checkpoints.updateCheckpoint
  cases htop : getTopCheckpoint (checkpoints.db.set own.height own.asStored) with
  | none =>
    have hnone := getTopCheckpoint_eq_none htop own.height
    rw [Table.find?_set_self] at hnone
    cases hnone
  | some top =>
    rcases getTopCheckpoint_eq_some htop with ⟨hfind, hle⟩
    have hown := hle own.height own.asStored (Table.find?_set_self _ _ _)
    have hheight : top.1 = own.height := by
      by_contra hne
      rw [Table.find?_set_of_ne _ _ hne] at hfind
      have := hfresh top.1 top.2 hfind
      omega
    simp only [hheight, Table.find?_restrict]
    by_cases hk : k = own.height
    · subst hk
      rw [if_neg (by simp [isDetached]; omega)]
      cases hold : checkpoints.db.find? own.height with
      | none => rfl
      | some checkpoint =>
        have := hfresh own.height checkpoint hold
        omega
    · rw [Table.find?_set_of_ne _ _ hk]
      cases hold : checkpoints.db.find? k with
      | none => exact ite_self none
      | some checkpoint =>
        have hlt := hfresh k checkpoint hold
        rw [if_pos (by simp only [isDetached, Bool.not_eq_true', Bool.and_eq_false_iff,
          decide_eq_false_iff_not, not_le]; exact Or.inl (Or.inl (Or.inl hlt)))]

theorem find?_blockAdd_blockchainDetached {block : Block P} {checkpoint : Option Checkpoint}
    (hends : checkpoints.endsBelow (getBlockHeight block).toNat)
    (hadds : checkpoints.addsOnTop block checkpoint) (k : UInt64) :
    ((checkpoints.blockAdd block checkpoint).blockchainDetached
      (getBlockHeight block).toNat).db.find? k = checkpoints.db.find? k := by
  unfold Checkpoints.blockAdd
  dsimp only
  split
  · exact (find?_blockchainDetached_eq_iff _ _).mpr hends k
  next hlate =>
    rcases not_or.mp hlate with ⟨hheight, hver⟩
    rcases hadds with hlt | hlt | ⟨hculls, hown⟩
    · exact absurd hlt hheight
    · exact absurd hlt hver
    have hculled : (checkpoints.cull (getBlockHeight block).toNat).endsBelow
        (getBlockHeight block).toNat := fun h checkpoint hfind =>
      hends h checkpoint ((find?_cull hculls h).symm.trans hfind)
    rw [<- find?_cull hculls k]
    have hkept := (find?_blockchainDetached_eq_iff _ _).mpr hculled k
    cases checkpoint with
    | none => exact hkept
    | some own =>
      unfold Checkpoints.attach
      dsimp only
      split
      · exact hkept
      next hexempt =>
        have hinterval : checkpointInterval.toNat <= checkpointStorePersistentlyInterval := by
          decide
        exact find?_updateCheckpoint_blockchainDetached hculled (by omega)
          ((hown own rfl).resolve_left hexempt) k

end

/-! ## Through the life of a chain -/

inductive CheckpointCall (P : Type) where
  | blockAdd (block : Block P) (checkpoint : Option Checkpoint)
  | blockchainDetached (height : Nat)

namespace Checkpoints

variable (checkpoints : Checkpoints)

def apply : CheckpointCall P -> Checkpoints
  | .blockAdd block checkpoint => checkpoints.blockAdd block checkpoint
  | .blockchainDetached height => checkpoints.blockchainDetached height

/-- The height below which a new block culls; zero if there is no immutable checkpoint. -/
def endCullHeight (block : Block P) : Nat :=
  (getImmutableCheckpoint checkpoints.db ((getBlockHeight block).toNat + 1)).elim 0 fun entry =>
    entry.1.toNat

def culls (block : Block P) (h : UInt64) : Bool :=
  let stop := checkpoints.endCullHeight block
  isCulled (max checkpoints.lastCullHeight (startCullHeight stop)) stop h.toNat

def KeepsHardcoded (after : Checkpoints) : Prop :=
  forall h checkpoint, checkpoints.db.find? h = some checkpoint -> checkpoint.type = .hardcoded ->
    after.db.find? h = some checkpoint

def Maintains : CheckpointCall P -> Prop
  | .blockAdd block new =>
    checkpoints.KeepsHardcoded (checkpoints.blockAdd block new) ∧
      forall h, (checkpoints.db.find? h).isSome ->
        h.toNat % checkpointStorePersistentlyInterval = 0 ∨
          checkpoints.endCullHeight block <= h.toNat ->
        ((checkpoints.blockAdd block new).db.find? h).isSome
  | .blockchainDetached height =>
    checkpoints.KeepsHardcoded (checkpoints.blockchainDetached height) ∧
      forall h checkpoint, (checkpoints.blockchainDetached height).db.find? h = some checkpoint ->
        checkpoint.type = .masterNode -> h.toNat < height

def storedWith (new : Option Checkpoint) (h : UInt64) : Option Checkpoint :=
  (new.filter fun new => new.height == h && new.height != exemptHeight).map Checkpoint.asStored

def skips (block : Block P) : Prop :=
  (getBlockHeight block).toNat < checkpointStorePersistentlyInterval ∨
    block.majorVersion < Hf.hf13Checkpointing

/-- Hardcoded checkpoints lie off the steps of the call and are not replaced, and those of the
master nodes lie on the steps from the top one down. -/
def InStep : CheckpointCall P -> Prop
  | .blockAdd block new =>
    ¬ skips block -> forall h checkpoint, checkpoints.db.find? h = some checkpoint ->
      checkpoint.type = .hardcoded ->
        match storedWith new h with
        | some new => new = checkpoint
        | none => checkpoints.culls block h = false
  | .blockchainDetached height =>
    forall top h checkpoint, getTopCheckpoint checkpoints.db = some top ->
      checkpoints.db.find? h = some checkpoint -> height <= h.toNat ->
        (checkpoint.type = .masterNode <->
          checkpointInterval.toNat <= h.toNat ∧
            (top.1.toNat - h.toNat) % checkpointInterval.toNat = 0)

theorem find?_blockAdd {block : Block P} (new : Option Checkpoint) (hskips : ¬ skips block)
    (h : UInt64) :
    (checkpoints.blockAdd block new).db.find? h = (storedWith new h).or
      (if checkpoints.culls block h then none else checkpoints.db.find? h) := by
  have hculled : (checkpoints.cull (getBlockHeight block).toNat).db.find? h =
      if checkpoints.culls block h then none else checkpoints.db.find? h := by
    refine (checkpoints.db.find?_restrict _ h).trans ?_
    change (if (!checkpoints.culls block h) = true then _ else _) = _
    cases checkpoints.culls block h with
    | true => rfl
    | false => rfl
  have hadd : checkpoints.blockAdd block new = _ := if_neg hskips
  rw [hadd]
  unfold storedWith
  cases new with
  | none => exact hculled
  | some new =>
    unfold attach updateCheckpoint
    dsimp only
    split
    · rw [hculled]
      grind
    · rw [Table.find?_set, hculled]
      grind

theorem find?_blockchainDetached {top : UInt64 × Checkpoint} {height : Nat}
    (htop : getTopCheckpoint checkpoints.db = some top) (h : UInt64) :
    (checkpoints.blockchainDetached height).db.find? h =
      if height <= h.toNat ∧ checkpointInterval.toNat <= h.toNat ∧
        (top.1.toNat - h.toNat) % checkpointInterval.toNat = 0 then none
      else checkpoints.db.find? h := by
  unfold blockchainDetached
  simp only [htop, Table.find?_restrict]
  cases hfind : checkpoints.db.find? h with
  | none => simp
  | some checkpoint =>
    have hle := (getTopCheckpoint_eq_some htop).2 h checkpoint hfind
    unfold isDetached
    grind

theorem maintains_iff (call : CheckpointCall P) :
    checkpoints.Maintains call <-> checkpoints.InStep call := by
  cases call with
  | blockAdd block new =>
    by_cases hskips : skips block
    · have hsame : checkpoints.blockAdd block new = checkpoints := if_pos hskips
      simp only [Maintains, KeepsHardcoded, hsame]
      exact iff_of_true ⟨fun _ _ hfind _ => hfind, fun _ hsome _ => hsome⟩ (absurd hskips)
    · have hfind := checkpoints.find?_blockAdd new hskips
      have hkeeps : checkpoints.KeepsHardcoded (checkpoints.blockAdd block new) <->
          checkpoints.InStep (.blockAdd block new) := by
        refine Iff.trans ?_ (forall_prop_of_true hskips).symm
        refine forall₂_congr fun h checkpoint => forall₂_congr fun hstored _ => ?_
        rw [hfind]
        split <;> grind
      refine and_iff_left_of_imp (fun _ h hsome hkept => ?_) |>.trans hkeeps
      rw [hfind]
      unfold culls isCulled
      grind
  | blockchainDetached height =>
    cases htop : getTopCheckpoint checkpoints.db with
    | none =>
      have hnone := getTopCheckpoint_eq_none htop
      simp [Maintains, KeepsHardcoded, InStep, blockchainDetached, htop, hnone]
    | some top =>
      unfold Maintains KeepsHardcoded InStep
      simp only [checkpoints.find?_blockchainDetached htop]
      constructor
      · rintro ⟨hhard, hmaster⟩ _ h checkpoint hsome hstored habove
        cases htop.symm.trans hsome
        have hhard := hhard h checkpoint hstored
        have hmaster := hmaster h checkpoint
        cases htype : checkpoint.type <;> grind
      · intro hstep
        constructor
        · intro h checkpoint hstored htype
          have hstep := hstep top h checkpoint htop hstored
          grind
        · intro h checkpoint hstored htype
          have hstep := hstep top h checkpoint htop
          grind

end Checkpoints

/-- Along every sequence of calls the checkpoints are maintained exactly if each call finds the
hardcoded checkpoints off its steps, and a detach finds those of the master nodes on them. -/
theorem checkpoints_maintained_iff (checkpoints : Checkpoints) (calls : List (CheckpointCall P)) :
    (forall before call after, calls = before ++ call :: after ->
      (before.foldl Checkpoints.apply checkpoints).Maintains call) <->
    (forall before call after, calls = before ++ call :: after ->
      (before.foldl Checkpoints.apply checkpoints).InStep call) := by
  simp only [Checkpoints.maintains_iff]

def mixedCheckpoints : Checkpoints where
  db := (Table.empty.set 8 ⟨.masterNode, 8, nullHash, [⟨0, nullSignature⟩]⟩).set 10
    ⟨.hardcoded, 10, nullHash, []⟩
  lastCullHeight := 0
  immutableHeight := 0

/-- A hardcoded checkpoint above one of the master nodes is removed in its place. -/
theorem mixedCheckpoints_detached :
    (mixedCheckpoints.blockchainDetached 7).db.find? 10 = none ∧
    ((mixedCheckpoints.blockchainDetached 7).db.find? 8).map Checkpoint.type =
      some .masterNode := by
  decide +kernel

end Beldex.Chain
