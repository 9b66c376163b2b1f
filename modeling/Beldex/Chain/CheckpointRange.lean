import Beldex.Chain.CheckpointStore

/-!
# Ranges of checkpoints

The database answers a range of heights by a search for the first checkpoint and a
cursor that goes on from there.  Both ends are moved to the stored heights before.
The immutable checkpoint is read off such a range.
-/

namespace Beldex.Chain

open Foundation.Ranked Voting List

variable (db : CheckpointDb) (start stop count : Nat)

def getBlockCheckpoint (height : Nat) : Option (UInt64 × Checkpoint) :=
  (byHeight db).find? fun entry => entry.1.toNat == height

def searchedHeights : List Nat :=
  if start <= stop then range' start (stop - start + 1)
  else (range' stop (start - stop + 1)).reverse

/-- The stored checkpoints as a cursor meets them on the way from one height to another. -/
def inOrder : List (UInt64 × Checkpoint) :=
  if start <= stop then byHeight db else (byHeight db).reverse

def isBetween (entry : UInt64 × Checkpoint) : Bool :=
  min start stop <= entry.1.toNat && entry.1.toNat <= max start stop

def walkCursor : Nat -> List (UInt64 × Checkpoint) -> List (UInt64 × Checkpoint)
  | _, [] => []
  | 0, _ => []
  | limit + 1, entry :: rest =>
    if isBetween start stop entry then entry :: walkCursor limit rest
    else walkCursor (limit + 1) rest

def clamp (height bottom top : Nat) : Nat :=
  max bottom (min height top)

/-- The count zero becomes the largest number, which no database reaches. -/
def limitOf : Nat :=
  if count = 0 then (byHeight db).length else count

def Lmdb.getCheckpointsRange : List (UInt64 × Checkpoint) :=
  match (byHeight db).head?, getTopCheckpoint db with
  | some bottom, some top =>
    let start := clamp start bottom.1.toNat top.1.toNat
    let stop := clamp stop bottom.1.toNat top.1.toNat
    if stop < start ∧ start < bottom.1.toNat ∨ start <= stop ∧ top.1.toNat < start then []
    else
      match (searchedHeights start stop).findSome? (getBlockCheckpoint db) with
      | none => []
      | some first => first :: walkCursor start stop (limitOf db count - 1)
          ((inOrder db start stop).dropWhile fun entry => entry.1 != first.1).tail
  | _, _ => []

/-- The stored checkpoints between two heights, on the way from one to the other. -/
def storedBetween : List (UInt64 × Checkpoint) :=
  (inOrder db start stop).filter (isBetween start stop)

def firstCheckpoints (entries : List (UInt64 × Checkpoint)) : List (UInt64 × Checkpoint) :=
  if count = 0 then entries else entries.take count

theorem firstCheckpoints_eq_nil {count : Nat} {entries : List (UInt64 × Checkpoint)}
    (h : firstCheckpoints count entries = []) : entries = [] := by
  unfold firstCheckpoints at h
  split at h
  · exact h
  · simp_all

/-! ## The order of the walk -/

def Toward (a b : Nat) : Prop :=
  if start <= stop then a < b else b < a

instance : Std.Asymm fun a b : UInt64 × Checkpoint => Toward start stop a.1.toNat b.1.toNat where
  asymm a b := by
    unfold Toward
    split <;> omega

theorem ascending_byHeight : Ascending (fun entry => entry.1.toNat) (byHeight db) := by
  apply ascending_sortByRank
  have hinj : Function.Injective UInt64.toNat := fun _ _ h => UInt64.toNat_inj.mp h
  have hnodup := db.nodup.map hinj
  rwa [map_map] at hnodup

theorem pairwise_storedBetween :
    (storedBetween db start stop).Pairwise fun a b => Toward start stop a.1.toNat b.1.toNat := by
  apply Pairwise.filter
  unfold inOrder Toward
  split
  · exact ascending_byHeight db
  · exact pairwise_reverse.mpr (ascending_byHeight db)

variable {entry : UInt64 × Checkpoint}

theorem mem_storedBetween :
    entry ∈ storedBetween db start stop <-> entry ∈ byHeight db ∧
      min start stop <= entry.1.toNat ∧ entry.1.toNat <= max start stop := by
  unfold storedBetween inOrder isBetween
  split <;> simp

theorem getBlockCheckpoint_eq_some {height : Nat} :
    getBlockCheckpoint db height = some entry <-> entry ∈ byHeight db ∧ entry.1.toNat = height := by
  have hkey {other : UInt64 × Checkpoint} (h : getBlockCheckpoint db height = some other) :
      other.1.toNat = height := by
    simpa using find?_some h
  constructor
  · intro hfind
    exact ⟨mem_of_find?_eq_some hfind, hkey hfind⟩
  · rintro ⟨hin, rfl⟩
    cases hfind : getBlockCheckpoint db entry.1.toNat with
    | none => exact absurd (beq_self_eq_true _) (find?_eq_none.mp hfind entry hin)
    | some other =>
      rw [inj_on_of_nodup_map (ascending_byHeight db).nodup (mem_of_find?_eq_some hfind) hin
        (hkey hfind)]

/-- The search meets the checkpoints between the ends in the order of the walk. -/
theorem filterMap_searchedHeights :
    (searchedHeights start stop).filterMap (getBlockCheckpoint db) =
      storedBetween db start stop := by
  have hmem (height : Nat) : height ∈ searchedHeights start stop <->
      min start stop <= height ∧ height <= max start stop := by
    unfold searchedHeights
    split
    · rw [mem_range'_1]
      omega
    · rw [mem_reverse, mem_range'_1]
      omega
  have hheights : (searchedHeights start stop).Pairwise (Toward start stop) := by
    unfold searchedHeights Toward
    split
    · exact pairwise_lt_range' 1
    · exact pairwise_reverse.mpr (pairwise_lt_range' 1)
  refine Pairwise.eq_of_mem_iff ?_ (pairwise_storedBetween db start stop) ?_
  · refine pairwise_filterMap.mpr (hheights.imp ?_)
    intro a b hab x hx y hy
    rwa [((getBlockCheckpoint_eq_some db).mp hx).2, ((getBlockCheckpoint_eq_some db).mp hy).2]
  · intro entry
    rw [mem_filterMap, mem_storedBetween, <- hmem]
    simp only [getBlockCheckpoint_eq_some]
    grind

/-! ## The walk of the cursor -/

theorem walkCursor_eq (limit : Nat) (entries : List (UInt64 × Checkpoint)) :
    walkCursor start stop limit entries = (entries.filter (isBetween start stop)).take limit := by
  fun_induction walkCursor with
  | case1 limit => simp
  | case2 entries => simp
  | case3 limit entry rest hin ih => rw [filter_cons_of_pos hin, take_succ_cons, ih]
  | case4 limit entry rest hout ih => rw [filter_cons_of_neg hout, ih]

variable {db start stop} {bottom top : UInt64 × Checkpoint}

theorem exists_bottom (htop : getTopCheckpoint db = some top) :
    exists bottom, (byHeight db).head? = some bottom ∧ forall entry, entry ∈ byHeight db ->
      bottom.1.toNat <= entry.1.toNat ∧ entry.1.toNat <= top.1.toNat := by
  cases hbottom : (byHeight db).head? with
  | none =>
    rw [getTopCheckpoint, head?_eq_none_iff.mp hbottom] at htop
    cases htop
  | some bottom =>
    refine ⟨bottom, rfl, fun entry hent => ?_⟩
    have hin := (sortByRank_perm _).mem_iff.mp hent
    exact ⟨head?_sortByRank hbottom entry hin, (getLast?_sortByRank htop).2 entry hin⟩

theorem getCheckpointsRange_eq (hbottom : (byHeight db).head? = some bottom)
    (htop : getTopCheckpoint db = some top) :
    getCheckpointsRange db start stop count =
      (storedBetween db (clamp start bottom.1.toNat top.1.toNat)
        (clamp stop bottom.1.toNat top.1.toNat)).take count := by
  unfold getCheckpointsRange
  rw [hbottom, htop]
  change (if clamp _ _ _ <= clamp _ _ _ then _ else _) = _
  unfold storedBetween inOrder isBetween
  split
  next hup =>
    rw [min_eq_left hup, max_eq_right hup]
    rfl
  next hdown =>
    have hle := le_of_not_ge hdown
    rw [min_eq_right hle, max_eq_left hle]
    rfl

theorem Lmdb.getCheckpointsRange_eq :
    Lmdb.getCheckpointsRange db start stop count =
      Chain.getCheckpointsRange db start stop (limitOf db count) := by
  cases htop : getTopCheckpoint db with
  | none =>
    have hnil : byHeight db = [] := getLast?_eq_none_iff.mp htop
    simp [Lmdb.getCheckpointsRange, Chain.getCheckpointsRange, hnil]
  | some top =>
    rcases exists_bottom htop with ⟨bottom, hbottom, hbounds⟩
    have hle := (hbounds bottom (mem_of_head? hbottom)).2
    have hpos : 0 < limitOf db count := by
      have hne := length_pos_of_mem (mem_of_getLast? htop)
      unfold limitOf
      split <;> omega
    rw [Chain.getCheckpointsRange_eq _ hbottom htop]
    unfold Lmdb.getCheckpointsRange
    rw [hbottom, htop]
    dsimp only
    rw [if_neg (by unfold clamp; omega), <- head?_filterMap, filterMap_searchedHeights]
    generalize clamp start bottom.1.toNat top.1.toNat = start
    generalize clamp stop bottom.1.toNat top.1.toNat = stop
    cases hbetween : storedBetween db start stop with
    | nil => simp
    | cons first rest =>
      rcases filter_eq_cons_iff.mp hbetween with ⟨front, behind, horder, hfront, hfirst, hbehind⟩
      dsimp only [head?_cons]
      rw [horder, dropWhile_append_of_pos, dropWhile_cons_of_neg (by simp), tail_cons,
        walkCursor_eq, hbehind, take_cons hpos]
      intro other hother
      have hout := hfront other hother
      unfold isBetween at hout hfirst
      grind

theorem take_limitOf (start stop : Nat) :
    (storedBetween db start stop).take (limitOf db count) =
      firstCheckpoints count (storedBetween db start stop) := by
  unfold limitOf firstCheckpoints
  split
  · apply take_of_length_le
    refine (length_filter_le _ _).trans_eq ?_
    unfold inOrder
    split
    · rfl
    · exact length_reverse
  · rfl

/-- Moving the ends changes nothing if the stored heights do not all lie on one side. -/
theorem storedBetween_clamp (hbounds : forall entry, entry ∈ byHeight db ->
      bottom.1.toNat <= entry.1.toNat ∧ entry.1.toNat <= top.1.toNat)
    (hlow : bottom.1.toNat <= max start stop) (hhigh : min start stop <= top.1.toNat) :
    storedBetween db (clamp start bottom.1.toNat top.1.toNat)
      (clamp stop bottom.1.toNat top.1.toNat) = storedBetween db start stop := by
  refine Pairwise.eq_of_mem_iff ((pairwise_storedBetween ..).imp_of_mem ?_)
    (pairwise_storedBetween db start stop) ?_
  · intro a b ha hb hab
    have ha := ((mem_storedBetween ..).mp ha).2
    have hb := ((mem_storedBetween ..).mp hb).2
    unfold Toward clamp at *
    grind
  · intro entry
    rw [mem_storedBetween, mem_storedBetween]
    refine and_congr_right fun hent => ?_
    have hbound := hbounds entry hent
    unfold clamp
    omega

/-- A range of checkpoints is right exactly if the stored heights, if there are any, do not all
lie on one side of it. -/
theorem checkpointsRange_exact_iff (db : CheckpointDb) (start stop count : Nat) :
    Lmdb.getCheckpointsRange db start stop count =
        firstCheckpoints count (storedBetween db start stop) <->
      forall bottom top, (byHeight db).head? = some bottom -> getTopCheckpoint db = some top ->
        bottom.1.toNat <= max start stop ∧ min start stop <= top.1.toNat := by
  rw [Lmdb.getCheckpointsRange_eq, <- take_limitOf]
  cases htop : getTopCheckpoint db with
  | none =>
    have hnil : byHeight db = [] := getLast?_eq_none_iff.mp htop
    refine iff_of_true ?_ nofun
    simp [getCheckpointsRange, storedBetween, inOrder, hnil]
  | some top =>
    rcases exists_bottom htop with ⟨bottom, hbottom, hbounds⟩
    rw [getCheckpointsRange_eq _ hbottom htop, hbottom]
    constructor
    · rintro heq _ _ ⟨⟩ ⟨⟩
      by_contra hside
      -- the answer is the end of the stored heights that is nearer
      have hnone : storedBetween db start stop = [] := by
        refine eq_nil_iff_forall_not_mem.mpr fun entry hent => ?_
        have hin := (mem_storedBetween db start stop).mp hent
        have hbound := hbounds entry hin.1
        omega
      rw [take_limitOf, hnone, take_nil] at heq
      have hout := eq_nil_iff_forall_not_mem.mp (firstCheckpoints_eq_nil heq)
      have hbound := hbounds bottom (mem_of_head? hbottom)
      unfold clamp at hout
      rcases not_and_or.mp hside with habove | hbelow
      · exact hout bottom ((mem_storedBetween ..).mpr ⟨mem_of_head? hbottom, by omega⟩)
      · exact hout top ((mem_storedBetween ..).mpr ⟨mem_of_getLast? htop, by omega⟩)
    · intro hreach
      have hreach := hreach bottom top rfl rfl
      rw [storedBetween_clamp hbounds hreach.1 hreach.2]

def oneCheckpoint : CheckpointDb :=
  Foundation.Table.empty.set 8 ⟨.masterNode, 8, Crypto.nullHash, [⟨0, Crypto.nullSignature⟩]⟩

/-- A range above the only stored checkpoint gives that checkpoint. -/
theorem oneCheckpoint_range :
    (Lmdb.getCheckpointsRange oneCheckpoint 20 30 0).map Prod.fst = [8] ∧
      storedBetween oneCheckpoint 20 30 = [] := by
  decide +kernel

/-! ## The immutable checkpoint -/

section

variable {blockHeight : Nat} {later earlier : UInt64} {checkpoint checkpoint' : Checkpoint}

section

variable (hearlier : db.find? earlier = some checkpoint)
  (hlater : db.find? later = some checkpoint') (hlt : earlier.toNat < later.toNat)
  (hle : later.toNat <= blockHeight)
include hearlier hlater hlt hle

/-- The walk down from a chain's height meets two stored checkpoints in this order, or two
that are no lower. -/
theorem getCheckpointsRange_down
        :
    exists front next,
      getCheckpointsRange db blockHeight 0 checkpointNumCheckpointsForChainFinality =
        [front, next] ∧ later.toNat <= front.1.toNat ∧ earlier.toNat <= next.1.toNat := by
  cases htop : getTopCheckpoint db with
  | none =>
    rw [getTopCheckpoint_eq_none htop] at hlater
    cases hlater
  | some top =>
    rcases exists_bottom htop with ⟨bottom, hbottom, hbounds⟩
    have hin {height : UInt64} {checkpoint : Checkpoint}
        (hfind : db.find? height = some checkpoint) (hle : height.toNat <= blockHeight) :
        (height, checkpoint) ∈ storedBetween db blockHeight 0 := by
      rw [mem_storedBetween, Nat.min_zero, Nat.max_zero]
      exact ⟨(sortByRank_perm _).mem_iff.mpr (db.mem_of_find?_eq_some hfind), Nat.zero_le _, hle⟩
    have hlaterIn := hin hlater hle
    have hlow := (hbounds _ ((mem_storedBetween ..).mp hlaterIn).1).1
    have hdesc : (storedBetween db blockHeight 0).Pairwise fun a b => b.1.toNat <= a.1.toNat := by
      refine (pairwise_storedBetween db blockHeight 0).imp ?_
      unfold Toward
      grind
    rcases exists_two_of_descending hdesc (hin hearlier (by omega)) hlaterIn hlt
      with ⟨front, next, rest, hents, hfront, hnext⟩
    refine ⟨front, next, ?_, hfront, hnext⟩
    rw [getCheckpointsRange_eq _ hbottom htop, storedBetween_clamp hbounds, hents]
    · rfl
    · exact le_max_of_le_left (le_trans hlow hle)
    · exact min_le_of_right_le (Nat.zero_le _)

theorem le_immutableCheckpoint_of_stored
        :
    earlier.toNat <= (getImmutableCheckpoint db blockHeight).elim 0 fun entry =>
      entry.1.toNat := by
  rcases getCheckpointsRange_down hearlier hlater hlt hle with
    ⟨front, next, hrange, hfront, hnext⟩
  unfold getImmutableCheckpoint
  rw [hrange]
  show _ <= Option.elim (if front.2.type = .masterNode then some next else some front) 0 _
  split
  · exact hnext
  · exact le_trans (le_of_lt hlt) hfront

end

end

end Beldex.Chain
