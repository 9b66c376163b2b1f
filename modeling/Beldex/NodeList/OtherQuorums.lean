import Beldex.NodeList.PosQuorum

/-!
# The quorums of a state

After the transactions of a block the quorums for obligations, checkpoints and
flash are chosen from the nodes in a shuffled order.  A quorum that a height does
not have is left out, so that it differs from a quorum without members.  A position
outside of a list leaves no result.
-/

namespace Beldex.NodeList

open Basic Crypto Foundation Voting List Option Prod

variable {ρ : Type}

/-- The numbers below a size, shuffled; those in front, as many as `sublistSize`, are below
`sublistUpTo`. -/
def generateShuffledMasterNodeIndexList (R : QuorumRng ρ) (hf : Hf) (listSize : Nat)
    (blockHash : Hash) (type : QuorumType) (sublistSize sublistUpTo : Nat) : Option (List Nat) :=
  let result := range listSize
  let rng := R.quorumRng hf blockHash type
  if (0 < sublistSize ∧ sublistSize < listSize) ∧ 0 < sublistUpTo ∧ sublistUpTo < listSize then do
    let front <- shufflePortable R.toDraws (result.take sublistUpTo) rng
    let result := front ++ result.drop sublistUpTo
    let back <- shufflePortable R.toDraws (result.drop sublistSize) rng
    some (result.take sublistSize ++ back)
  else
    shufflePortable R.toDraws result rng

def stateChangeNthOfTheNetworkToTest : Nat := 100

def stateChangeMinNodesToTest : Nat := 50

def flashQuorumInterval : Nat := 5

def flashQuorumLag : Nat := 7 * flashQuorumInterval

def flashExpiryBuffer : UInt64 := UInt64.ofNat (flashQuorumLag + 10)

def flashMinVotes : Nat := 7

def flashSubquorumSize : Nat := 10

def generatesQuorum (hf : Hf) : QuorumType -> Bool
  | .obligations => true
  | .checkpointing => decide (Hf.hf13Checkpointing < hf)
  | .flash => decide (Hf.hf15Flash <= hf)
  | .pos => decide (Hf.hf17POS <= hf)

variable (R : QuorumRng ρ) (nettype : NetworkType) (height : Nat) (blockHash : Hash) (hf : Hf)
  (active decommissioned : List PubkeyAndMninfo)

/-- The nodes at the first positions become validators, those after them workers. -/
def fillQuorum (indexes : List Nat) (numValidators numWorkers : Nat) : Option Quorum :=
  if indexes.length < numValidators + numWorkers then
    none
  else do
    let validators <- (indexes.take numValidators).mapM fun i => active[i]?.map fst
    let workers <- ((indexes.drop numValidators).take numWorkers).mapM fun j =>
      if j < active.length then active[j]?.map fst
      else decommissioned[j - active.length]?.map fst
    some ⟨validators, workers⟩

def obligationsQuorum : Option Quorum := do
  let totalNodes := active.length + decommissioned.length
  let numValidators := min active.length stateChangeQuorumSize
  let numRemainingNodes := totalNodes - numValidators
  let numWorkers := min numRemainingNodes
    (max stateChangeMinNodesToTest (numRemainingNodes / stateChangeNthOfTheNetworkToTest))
  let indexes <- generateShuffledMasterNodeIndexList R hf totalNodes blockHash .obligations
    numValidators active.length
  fillQuorum active decommissioned indexes numValidators numWorkers

/-- Whether the state of a height has a quorum for the checkpoint that is due when the
chain has grown by the safety buffer. -/
def onCheckpointInterval : Bool :=
  (height + reorgSafetyBufferBlocksPostHf12.toNat) % checkpointInterval.toNat == 0

def checkpointNodes : Nat :=
  if nettype = .testnet ∧ height < 85357 then active.length + decommissioned.length
  else active.length

def checkpointingQuorum : Option Quorum := do
  let totalNodes := checkpointNodes nettype height active decommissioned
  let indexes <-
    if checkpointQuorumSize <= totalNodes then
      generateShuffledMasterNodeIndexList R hf totalNodes blockHash .checkpointing 0 0
    else
      some []
  fillQuorum active decommissioned indexes (min indexes.length checkpointQuorumSize) 0

/-- The positions of the nodes that do not unlock until a flash quorum has done its work. -/
def flashIndexes : List Nat :=
  let activeUntil := UInt64.ofNat height + flashExpiryBuffer
  (range active.length).filter fun i =>
    active[i]?.any fun entry =>
      entry.2.requestedUnlockHeight == keyImageAwaitingUnlockHeight ||
        decide (activeUntil < entry.2.requestedUnlockHeight)

def flashQuorum : Option Quorum := do
  let staying := flashIndexes height active
  if flashMinVotes <= staying.length then
    let indexes <- shufflePortable R.toDraws staying (R.quorumRng hf blockHash .flash)
    fillQuorum active decommissioned indexes (min indexes.length flashSubquorumSize) 0
  else
    some ⟨[], []⟩

def builtIf (built : Bool) (quorum : Option Quorum) : Option (Option Quorum) :=
  if built then quorum.map some else some none

def generateOtherQuorums (pos : Option Quorum) : Option QuorumManager := do
  let decommissioned := if Hf.hf13Checkpointing <= hf then decommissioned else []
  let obligations <- obligationsQuorum R blockHash hf active decommissioned
  let checkpointing <- builtIf (generatesQuorum hf .checkpointing && onCheckpointInterval height)
    (checkpointingQuorum R nettype height blockHash hf active decommissioned)
  let flash <- builtIf (generatesQuorum hf .flash && height % flashQuorumInterval == 0)
    (flashQuorum R height blockHash hf active decommissioned)
  some { obligations := some obligations, checkpointing, flash, pos }

/-! ## The shuffled positions -/

def ShufflesInStages : Prop :=
  forall (listSize : Nat) (blockHash : Hash) (type : QuorumType) (sublistSize sublistUpTo : Nat),
    exists indexes,
      generateShuffledMasterNodeIndexList R hf listSize blockHash type sublistSize sublistUpTo =
        some indexes ∧ indexes.Perm (range listSize) ∧
      (sublistSize <= sublistUpTo -> sublistUpTo <= listSize ->
        forall i, i ∈ indexes.take sublistSize -> i < sublistUpTo)

theorem shufflesInStages : ShufflesInStages R hf := by
  intro listSize blockHash type sublistSize sublistUpTo
  unfold generateShuffledMasterNodeIndexList
  simp only
  generalize R.quorumRng hf blockHash type = rng
  split
  next hstages =>
    rcases shufflePortable_perm R.toDraws ((range listSize).take sublistUpTo) rng with
      ⟨front, hfront, hperm⟩
    rcases shufflePortable_perm R.toDraws
      ((front ++ (range listSize).drop sublistUpTo).drop sublistSize) rng with
      ⟨back, hback, hrest⟩
    have hlen : front.length = sublistUpTo := by
      rw [hperm.length_eq, length_take, length_range]
      omega
    rw [hfront, bind_eq_bind, bind_some, hback]
    refine ⟨_, rfl, ?_, fun hle _ i hi => ?_⟩
    · refine (hrest.append_left _).trans ?_
      rw [take_append_drop]
      refine (hperm.append_right _).trans ?_
      rw [take_append_drop]
    · -- the second stage leaves the first positions alone
      rw [take_left' (by rw [length_take, length_append]; omega),
        take_append_of_le_length (hlen ▸ hle)] at hi
      have hmem := hperm.mem_iff.mp (mem_of_mem_take hi)
      rw [take_range, mem_range] at hmem
      omega
  next hplain =>
    rcases shufflePortable_perm R.toDraws (range listSize) rng with ⟨l, hl, hperm⟩
    refine ⟨l, hl, hperm, fun hle hup i hi => ?_⟩
    have hmem := mem_range.mp (hperm.mem_iff.mp (mem_of_mem_take hi))
    by_cases hnone : sublistSize = 0
    · rw [hnone] at hi
      cases hi
    · omega

theorem shuffle_zeroRng {l l' : List Nat} {k m : Nat} (hk : 0 < k)
    (hnext : forall i, k <= i -> i < k + m -> l[i]? = some i) (hfirst : l[0]? = some (k - 1))
    (hrun : (range' k m).foldlM (shuffleStep zeroRng.toDraws) (l, ()) = some (l', ())) :
    l'[0]? = some (k + m - 1) := by
  induction m generalizing l k with
  | zero =>
    cases hrun
    exact hfirst
  | succ m ih =>
    have hat := hnext k (le_refl k) (by omega)
    have hstep : shuffleStep zeroRng.toDraws (l, ()) k = some ((l.set k (k - 1)).set 0 k, ()) := by
      unfold shuffleStep swap? Draws.draw
      simp [zeroRng, hat, hfirst]
    rw [range'_succ, foldlM_cons, hstep] at hrun
    have hlen : 0 < l.length := (List.getElem?_eq_some_iff.mp hfirst).1
    have := ih (Nat.succ_pos k) (fun i hi hlt => by
      rw [getElem?_set_ne (by omega), getElem?_set_ne (by omega)]
      exact hnext i (by omega) (by omega)) (by simp [hlen]) hrun
    rw [this]
    congr 1
    omega

/-! ## Well-formed quorums -/

structure WellFormed (active : List PubkeyAndMninfo) (quorum : Quorum) : Prop where
  distinct : (quorum.validators ++ quorum.workers).Nodup
  drawn : forall key, key ∈ quorum.validators -> key ∈ active.map fst

section Fill

variable {active decommissioned : List PubkeyAndMninfo} {indexes : List Nat}
  {numValidators numWorkers : Nat} {quorum : Quorum}

theorem fillQuorum_wellFormed (hkeys : ((active ++ decommissioned).map fst).Nodup)
    (hnodup : indexes.Nodup) (hlen : numValidators + numWorkers <= indexes.length)
    (hfirst : forall i, i ∈ indexes.take numValidators -> i < active.length)
    (hall : forall i, i ∈ indexes -> i < active.length + decommissioned.length) :
    exists quorum, fillQuorum active decommissioned indexes numValidators numWorkers =
      some quorum ∧ WellFormed active quorum := by
  let key : Nat -> Option PublicKey := fun i => ((active ++ decommissioned).map fst)[i]?
  have hvals : forall i, i ∈ indexes.take numValidators -> active[i]?.map fst = key i := by
    intro i hi
    have hlt : i < (active.map fst).length := by
      rw [length_map]
      exact hfirst i hi
    change active[i]?.map fst = ((active ++ decommissioned).map fst)[i]?
    rw [<- getElem?_map, map_append, getElem?_append_left hlt]
  have hworkers : forall j, (if j < active.length then active[j]?.map fst
      else decommissioned[j - active.length]?.map fst) = key j := by
    intro j
    simp only [key, map_append, getElem?_append, length_map, getElem?_map]
  have hsome : forall i, i ∈ indexes -> (key i).isSome := by
    intro i hi
    have hlt := hall i hi
    simpa [key] using hlt
  have hinj : forall i j k, k ∈ key i -> k ∈ key j -> i = j := by
    intro i j k hi hj
    exact (getElem?_inj (List.getElem?_eq_some_iff.mp hi).1 hkeys).mp (hi.trans hj.symm)
  refine ⟨⟨(indexes.take numValidators).filterMap key,
    ((indexes.drop numValidators).take numWorkers).filterMap key⟩, ?_, ?_, ?_⟩
  · have hread := mapM_eq_some_iff.mpr ⟨fun i hi => (hvals i hi).symm ▸
      hsome i (mem_of_mem_take hi), filterMap_congr hvals⟩
    have hrest : ((indexes.drop numValidators).take numWorkers).mapM key = some _ :=
      mapM_eq_some_iff.mpr ⟨fun i hi => hsome i (mem_of_mem_drop (mem_of_mem_take hi)), rfl⟩
    unfold fillQuorum
    simp only [hworkers]
    rw [if_neg (not_lt.mpr hlen), hread, bind_eq_bind, bind_some, hrest]
    rfl
  · rw [<- filterMap_append, <- take_add]
    exact (hnodup.sublist (take_sublist _ _)).filterMap hinj
  · intro k hk
    rcases mem_filterMap.mp hk with ⟨i, hi, hki⟩
    rw [<- hvals i hi] at hki
    rcases map_eq_some_iff.mp hki with ⟨entry, hent, rfl⟩
    exact mem_map_of_mem (mem_of_getElem? hent)

theorem fillQuorum_first (h : fillQuorum active decommissioned indexes numValidators numWorkers =
    some quorum) {i : Nat} (hi : i ∈ indexes.take numValidators) : i < active.length := by
  unfold fillQuorum at h
  split at h
  · cases h
  · rcases bind_eq_some_iff.mp h with ⟨validators, hvals, _⟩
    have hsome := (mapM_eq_some_iff.mp hvals).1 i hi
    simpa using hsome

end Fill

section Quorums

variable (R : QuorumRng ρ) (blockHash : Hash) (hf : Hf)
  {active decommissioned : List PubkeyAndMninfo}
  (hkeys : ((active ++ decommissioned).map fst).Nodup)

include hkeys in
theorem obligationsQuorum_wellFormed :
    exists quorum, obligationsQuorum R blockHash hf active decommissioned = some quorum ∧
      WellFormed active quorum := by
  unfold obligationsQuorum
  simp only
  rcases shufflesInStages R hf (active.length + decommissioned.length)
    blockHash .obligations (min active.length stateChangeQuorumSize) active.length with
    ⟨indexes, hidxs, hperm, hfirst⟩
  rw [hidxs, bind_eq_bind, bind_some]
  have hlen := hperm.length_eq
  rw [length_range] at hlen
  refine fillQuorum_wellFormed hkeys (hperm.nodup_iff.mpr nodup_range) (by omega)
    (hfirst (Nat.min_le_left _ _) (Nat.le_add_right _ _)) fun i hi => ?_
  exact mem_range.mp (hperm.mem_iff.mp hi)

include hkeys in
theorem fillQuorum_active {indexes : List Nat} (hnodup : indexes.Nodup)
    (hall : forall i, i ∈ indexes -> i < active.length) (size : Nat) :
    exists quorum, fillQuorum active decommissioned indexes (min indexes.length size) 0 =
      some quorum ∧ WellFormed active quorum :=
  fillQuorum_wellFormed hkeys hnodup (Nat.min_le_left _ _)
    (fun i hi => hall i (mem_of_mem_take hi))
    fun i hi => lt_of_lt_of_le (hall i hi) (Nat.le_add_right _ _)

include hkeys in
theorem checkpointingQuorum_wellFormed {nettype : NetworkType} {height : Nat}
    (hnodes : checkpointQuorumSize <= checkpointNodes nettype height active decommissioned ->
      checkpointNodes nettype height active decommissioned <= active.length) :
    exists quorum, checkpointingQuorum R nettype height blockHash hf active decommissioned =
      some quorum ∧ WellFormed active quorum := by
  unfold checkpointingQuorum
  simp only
  split
  next henough =>
    rcases shufflesInStages R hf
      (checkpointNodes nettype height active decommissioned) blockHash .checkpointing 0 0 with
      ⟨indexes, hidxs, hperm, _⟩
    rw [hidxs, bind_eq_bind, bind_some]
    refine fillQuorum_active hkeys (hperm.nodup_iff.mpr nodup_range) (fun i hi => ?_) _
    exact lt_of_lt_of_le (mem_range.mp (hperm.mem_iff.mp hi)) (hnodes henough)
  · exact fillQuorum_active hkeys nodup_nil (fun i hi => nomatch hi) checkpointQuorumSize

include hkeys in
theorem flashQuorum_wellFormed (height : Nat) :
    exists quorum, flashQuorum R height blockHash hf active decommissioned = some quorum ∧
      WellFormed active quorum := by
  unfold flashQuorum
  simp only
  split
  · rcases shufflePortable_perm R.toDraws (flashIndexes height active)
      (R.quorumRng hf blockHash .flash) with ⟨indexes, hidxs, hperm⟩
    rw [hidxs, bind_eq_bind, bind_some]
    refine fillQuorum_active hkeys (hperm.nodup_iff.mpr (nodup_range.filter _)) (fun i hi => ?_) _
    exact mem_range.mp (mem_of_mem_filter (hperm.mem_iff.mp hi))
  · exact ⟨_, rfl, nodup_nil, fun _ hkey => nomatch hkey⟩

theorem checkpointingQuorum_zeroRng {nettype : NetworkType} {height : Nat} {quorum : Quorum}
    (hsize : checkpointQuorumSize <= checkpointNodes nettype height active decommissioned)
    (h : checkpointingQuorum zeroRng nettype height blockHash hf active decommissioned =
      some quorum) : checkpointNodes nettype height active decommissioned <= active.length := by
  have htwenty : checkpointQuorumSize = 20 := rfl
  unfold checkpointingQuorum at h
  simp only [bind_eq_bind, bind_eq_some_iff, if_pos hsize] at h
  generalize checkpointNodes nettype height active decommissioned = total at h hsize
  rcases h with ⟨indexes, hidxs, hfill⟩
  rcases map_eq_some_iff.mp hidxs with ⟨⟨l, _⟩, hrun, hl⟩
  rw [length_range] at hrun
  have hlast := shuffle_zeroRng Nat.one_pos
    (fun i _ hi => getElem?_range (by omega)) (getElem?_range (by omega)) hrun
  rw [show l = indexes from hl] at hlast
  have hlen := (List.getElem?_eq_some_iff.mp hlast).1
  have hmem : 1 + (total - 1) - 1 ∈ indexes.take (min indexes.length checkpointQuorumSize) := by
    refine mem_of_getElem? (i := 0) ?_
    rw [getElem?_take_of_lt (by omega)]
    exact hlast
  have := fillQuorum_first hfill hmem
  omega

end Quorums

/-- On an early testnet the positions of a checkpoint quorum reach into the decommissioned
nodes. -/
def ReachesDecommissioned : Prop :=
  (generatesQuorum hf .checkpointing && onCheckpointInterval height) = true ∧
    (nettype = .testnet ∧ height < 85357) ∧ decommissioned ≠ [] ∧
    checkpointQuorumSize <= active.length + decommissioned.length

def Built (manager : QuorumManager) : Prop :=
  forall quorum, manager.obligations = some quorum ∨ manager.checkpointing = some quorum ∨
    manager.flash = some quorum -> WellFormed active quorum

theorem hf13_le_of_generates {hf : Hf} {due : Bool}
    (h : (generatesQuorum hf .checkpointing && due) = true) : Hf.hf13Checkpointing <= hf := by
  have hgenerates := (Bool.and_eq_true_iff.mp h).1
  revert hgenerates
  cases hf <;> decide

theorem builtIf_wellFormed {built : Bool} {quorum : Option Quorum} {active : List PubkeyAndMninfo}
    (h : built = true -> exists q, quorum = some q ∧ WellFormed active q) :
    exists result, builtIf built quorum = some result ∧
      forall q, result = some q -> WellFormed active q := by
  cases built with
  | false => exact ⟨none, rfl, fun _ hq => nomatch hq⟩
  | true =>
    rcases h rfl with ⟨q, hq, hwell⟩
    refine ⟨some q, by rw [hq]; rfl, fun _ heq => some.inj heq ▸ hwell⟩

/-- The shuffle of two stages is a permutation with bounded numbers in front, and the quorums
of a state are well formed whatever the generator draws, but for an early testnet. -/
theorem generateOtherQuorums_built_iff (nettype : NetworkType) (height : Nat) (hf : Hf)
    (active decommissioned : List PubkeyAndMninfo)
    (hkeys : ((active ++ decommissioned).map fst).Nodup) :
    (forall (ρ : Type) (R : QuorumRng ρ), ShufflesInStages R hf) ∧
    ((forall (ρ : Type) (R : QuorumRng ρ) (blockHash : Hash) (pos : Option Quorum), exists manager,
          generateOtherQuorums R nettype height blockHash hf active decommissioned pos =
            some manager ∧ Built active manager) <->
      ¬ ReachesDecommissioned nettype height hf active decommissioned) := by
  refine ⟨fun ρ R => shufflesInStages R hf, fun h hreaches => ?_,
    fun hinside ρ R blockHash pos => ?_⟩
  · rcases h Unit zeroRng nullHash none with ⟨manager, hmanager, _⟩
    rcases hreaches with ⟨hbuilt, htestnet, hout, hsize⟩
    unfold generateOtherQuorums at hmanager
    simp only [bind_eq_bind, bind_eq_some_iff, if_pos (hf13_le_of_generates hbuilt)]
      at hmanager
    rcases hmanager with ⟨_, _, checkpointing, hcps, _⟩
    unfold builtIf at hcps
    rw [if_pos hbuilt] at hcps
    rcases map_eq_some_iff.mp hcps with ⟨quorum, hquor, _⟩
    have hnodes : checkpointNodes nettype height active decommissioned =
        active.length + decommissioned.length := if_pos htestnet
    have hle := checkpointingQuorum_zeroRng nullHash hf (hnodes ▸ hsize) hquor
    have hpos := length_pos_of_ne_nil hout
    omega
  · have hkeys' : ((active ++ (if Hf.hf13Checkpointing <= hf then decommissioned else [])).map
        fst).Nodup := by
      split
      · exact hkeys
      · rw [append_nil]
        rw [map_append] at hkeys
        exact hkeys.of_append_left
    have hnodes : (generatesQuorum hf .checkpointing && onCheckpointInterval height) = true ->
        checkpointQuorumSize <= checkpointNodes nettype height active
          (if Hf.hf13Checkpointing <= hf then decommissioned else []) ->
        checkpointNodes nettype height active
          (if Hf.hf13Checkpointing <= hf then decommissioned else []) <= active.length := by
      intro hbuilt hsize
      rw [if_pos (hf13_le_of_generates hbuilt)] at hsize ⊢
      by_cases htestnet : nettype = .testnet ∧ height < 85357
      · have htotal : checkpointNodes nettype height active decommissioned =
            active.length + decommissioned.length := if_pos htestnet
        rw [htotal] at hsize ⊢
        by_contra hmore
        exact hinside ⟨hbuilt, htestnet, fun hnil => hmore (by simp [hnil]), hsize⟩
      · exact le_of_eq (if_neg htestnet)
    unfold generateOtherQuorums
    simp only
    generalize (if Hf.hf13Checkpointing <= hf then decommissioned else []) = listed
      at hkeys' hnodes
    rcases obligationsQuorum_wellFormed R blockHash hf hkeys' with ⟨obligations, ho, howell⟩
    rcases builtIf_wellFormed fun hbuilt =>
      checkpointingQuorum_wellFormed R blockHash hf hkeys' (hnodes hbuilt) with
      ⟨checkpointing, hc, hcwell⟩
    rcases builtIf_wellFormed fun _ =>
      flashQuorum_wellFormed R blockHash hf hkeys' height with ⟨flash, hfl, hfwell⟩
    rw [ho, bind_eq_bind, bind_some, hc, bind_eq_bind, bind_some, hfl]
    refine ⟨_, rfl, ?_⟩
    rintro quorum (hq | hq | hq)
    · exact some.inj hq ▸ howell
    · exact hcwell quorum hq
    · exact hfwell quorum hq

theorem generateOtherQuorums_built_iff_twelve :
    ((twelveNodes ++ []).map fst).Nodup ∧
    forall (ρ : Type) (R : QuorumRng ρ) (blockHash : Hash) (pos : Option Quorum),
      exists manager, generateOtherQuorums R .testnet 1 blockHash .hf17POS twelveNodes [] pos =
        some manager ∧ Built twelveNodes manager := by
  have hkeys : ((twelveNodes ++ []).map fst).Nodup := by decide
  refine ⟨hkeys, (generateOtherQuorums_built_iff .testnet 1 .hf17POS twelveNodes [] hkeys).2.mpr ?_⟩
  exact fun h => h.2.2.1 rfl

def eightDecommissioned : List PubkeyAndMninfo :=
  (range 8).map fun i => (⟨BitVec.ofNat 256 (i + 12)⟩, openNode)

theorem generateOtherQuorums_reads_past_end :
    ((twelveNodes ++ eightDecommissioned).map fst).Nodup ∧
    generateOtherQuorums zeroRng .testnet 1 nullHash .hf17POS twelveNodes eightDecommissioned none =
      none := by
  decide +kernel

end Beldex.NodeList
