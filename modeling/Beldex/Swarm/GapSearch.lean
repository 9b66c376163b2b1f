import Beldex.Swarm.Identifier

/-!
# The search for the widest gap

The identifier of a new swarm is searched with an index of 32 bits.  The search is
modelled with its arithmetic left open beyond 64 bits.  It ends exactly if the index
reaches the last identifier, and then it gives the middle of a widest gap.
-/

namespace Beldex.Swarm

open Basic Foundation.Loops List UInt64

variable (fit : Int -> Option UInt64) (allIds : List UInt64)

/-- Right for every number of 64 bits; all others may be cut, or refused. -/
def Exact : Prop :=
  forall x : UInt64, fit x.toNat = some x

/-! ## The search -/

/-- The search has seen the gaps up to its index, and the widest of them is the one it keeps. -/
def Searched (front : UInt64) (allIds : List UInt64) (search : GapSearch) : Prop :=
  search.idx.toNat < allIds.length ∧ exists left, allIds[search.bestIdx]? = some left ∧
    widestGap (search.maxDist, left) (allIds.drop search.idx.toNat) = widestGap (0, front) allIds

section Exact

variable {fit allIds} {front back : UInt64} (hfit : Exact fit)
include hfit

theorem Exact.sub_eq {a b : UInt64} (h : b.toNat <= a.toNat) :
    fit (a.toNat - b.toNat) = some (a - b) := by
  have hsub := UInt64.toNat_sub_of_le _ _ (UInt64.le_iff_toNat_le.mpr h)
  rw [<- hfit (a - b), hsub, Nat.cast_sub h]

theorem Exact.add_eq {a b : UInt64} (h : a.toNat + b.toNat < 2 ^ 64) :
    fit (a.toNat + b.toNat) = some (a + b) := by
  rw [<- hfit (a + b), UInt64.toNat_add, Nat.mod_eq_of_lt h, Nat.cast_add]

theorem Exact.halfWay_eq {gap best : UInt64} (hbest : best.toNat <= maxId.toNat) :
    halfWay fit gap best = some (middle gap best) := by
  have hmax := maxId_toNat
  have hroom := UInt64.toNat_sub_of_le _ _ (UInt64.le_iff_toNat_le.mpr hbest)
  have hone : ((1 : UInt64).toNat : Int) = 1 := rfl
  unfold halfWay middle
  rw [hfit.sub_eq hbest, Option.bind_eq_bind, Option.bind_some]
  by_cases hpast : maxId - best < gap / 2
  · have hlt := lt_iff_toNat_lt.mp hpast
    have hsub := UInt64.toNat_sub_of_le _ _ (UInt64.le_iff_toNat_le.mpr (le_of_lt hlt))
    rw [if_pos hpast, if_pos hpast, hfit.sub_eq (le_of_lt hlt), Option.bind_some, <- hone,
      hfit.sub_eq (by omega)]
  · have hge := UInt64.le_iff_toNat_le.mp (UInt64.not_lt.mp hpast)
    rw [if_neg hpast, if_neg hpast, hfit.add_eq (by omega)]

variable (hsort : allIds.Pairwise fun a b => a.toNat < b.toNat)
include hsort

theorem Searched.round {search : GapSearch} (h : Searched front allIds search)
    (hcount : allIds.length <= 2 ^ 32) (hgoes : search.goesOn allIds = true) :
    exists next, search.round fit allIds = some next ∧ Searched front allIds next ∧
      next.idx.toNat = search.idx.toNat + 1 := by
  rcases h with ⟨hin, left, hleft, hgap⟩
  have hlt : search.idx.toNat + 1 < allIds.length := by
    have := of_decide_eq_true hgoes
    omega
  have hidx : (search.idx + 1).toNat = search.idx.toNat + 1 := by
    rw [UInt32.toNat_add, UInt32.toNat_one]
    exact Nat.mod_eq_of_lt (by omega)
  rw [drop_eq_getElem_cons hin, drop_eq_getElem_cons hlt, widestGap,
    <- drop_eq_getElem_cons hlt] at hgap
  have hfirst := getElem?_eq_getElem hin
  have hnext := getElem?_eq_getElem hlt
  have horder := pairwise_iff_getElem.mp hsort _ _ hin hlt (Nat.lt_succ_self _)
  generalize allIds[search.idx.toNat] = a at *
  generalize allIds[search.idx.toNat + 1] = b at *
  rw [<- hidx] at hgap hnext
  unfold GapSearch.round
  rw [hnext, hfirst]
  simp only [Option.bind_eq_bind, Option.bind_some, hfit.sub_eq (le_of_lt horder)]
  refine ⟨_, rfl, ?_⟩
  split
  next hwider =>
    rw [if_pos hwider] at hgap
    exact ⟨⟨hidx ▸ hlt, a, hfirst, hgap⟩, hidx⟩
  next hwider =>
    rw [if_neg hwider] at hgap
    exact ⟨⟨hidx ▸ hlt, left, hleft, hgap⟩, hidx⟩

theorem search_returns (hfront : allIds.head? = some front) (hcount : allIds.length <= 2 ^ 32) :
    Returns (fun fuel => whileLoop (GapSearch.goesOn allIds)
      (fun _ => GapSearch.round fit allIds) fuel ⟨0, 0, 0⟩) fun search =>
        exists left, allIds[search.bestIdx]? = some left ∧
          (search.maxDist, left) = widestGap (0, front) allIds := by
  refine (Returns.whileLoop (Searched front allIds)
    (fun search => allIds.length - search.idx.toNat) ?_ ?_).mono ?_
  · intro search h hgoes
    rcases h.round hfit hsort hcount hgoes with ⟨next, hround, hsearched, hidx⟩
    have hlt := h.1
    exact .of_eq hround ⟨hsearched, by omega⟩
  · refine ⟨length_pos_of_mem (mem_of_head? hfront), front, ?_, rfl⟩
    rw [<- head?_eq_getElem?]
    exact hfront
  · rintro search ⟨⟨hin, left, hleft, hgap⟩, hover⟩
    have hend := of_decide_eq_false hover
    rw [drop_eq_getElem_cons hin, drop_eq_nil_of_le (by omega)] at hgap
    exact ⟨left, hleft, hgap⟩

theorem newSwarmId_eq (hle : forall id, id ∈ allIds -> id.toNat <= maxId.toNat)
    (hfront : allIds.head? = some front) (hback : allIds.getLast? = some back) {search : GapSearch}
    {left : UInt64} (hleft : allIds[search.bestIdx]? = some left)
    (hgap : (search.maxDist, left) = widestGap (0, front) allIds) :
    search.newSwarmId fit allIds =
      some (middle (bestGap front back allIds).1 (bestGap front back allIds).2) := by
  have hbackLe := hle back (mem_of_getLast? hback)
  have horder := le_of_mem_of_getLast? hsort hback (mem_of_head? hfront)
  have hmax := maxId_toNat
  have hroom := UInt64.toNat_sub_of_le _ _ (UInt64.le_iff_toNat_le.mpr hbackLe)
  have hsum : (maxId - back + front).toNat = (maxId - back).toNat + front.toNat := by
    rw [UInt64.toNat_add]
    exact Nat.mod_eq_of_lt (by omega)
  have hone : ((1 : UInt64).toNat : Int) = 1 := rfl
  unfold GapSearch.newSwarmId bestGap
  rw [hfront, hback, <- hgap, Option.bind_eq_bind, Option.bind_some, Option.bind_some,
    hfit.sub_eq hbackLe, Option.bind_some, hfit.add_eq (by omega), Option.bind_some, <- hone,
    hfit.add_eq (by omega), Option.bind_some]
  generalize maxId - back + front + 1 = dist
  by_cases hwrap : search.maxDist < dist
  · simp only [if_pos hwrap]
    rw [<- getLast?_eq_getElem?, hback, Option.bind_some, hfit.halfWay_eq hbackLe]
  · simp only [if_neg hwrap]
    rw [hleft, Option.bind_some, hfit.halfWay_eq (hle left (mem_of_getElem? hleft))]

omit hsort in
theorem searchNewSwarmId_returns {m : SwarmMnodeMap} (hne : m.items.map Group.swarmId ≠ [])
    (hassigned : forall group, group ∈ m.items -> group.swarmId ≠ unassignedSwarmId)
    (hcount : m.items.length <= 2 ^ 32) :
    Returns (searchNewSwarmId fit m) (· = widestMiddle m) := by
  have hfront := head?_eq_some_head hne
  have hback := getLast?_eq_some_getLast hne
  rw [widestMiddle_eq hfront hback]
  unfold searchNewSwarmId
  simp only [isEmpty_eq_false_iff.mpr hne, Bool.false_eq_true, if_false]
  refine (search_returns hfit (ids_sorted m) hfront (by rwa [length_map])).bind ?_
  rintro search ⟨left, hleft, hgap⟩
  exact .of_eq (newSwarmId_eq hfit (ids_sorted m) (ids_le hassigned) hfront hback hleft hgap) rfl

end Exact

/-- The index never gets past 32 bits, and the loop ends only when it is at the last
identifier. -/
theorem length_le_of_searchNewSwarmId {m : SwarmMnodeMap} {fuel : Nat} {id : UInt64}
    (h : searchNewSwarmId fit m fuel = some id) : m.items.length <= 2 ^ 32 := by
  unfold searchNewSwarmId at h
  dsimp only at h
  split at h
  next hempty =>
    rw [List.isEmpty_iff, map_eq_nil_iff] at hempty
    rw [hempty]
    exact Nat.zero_le _
  · rcases Option.bind_eq_some_iff.mp h with ⟨search, hloop, _⟩
    have hover := whileLoop_over hloop
    have hend := of_decide_eq_false hover
    have hidx := search.idx.toNat_lt
    rw [length_map] at hend
    omega

theorem exact_lowBits : Exact lowBits := by
  intro x
  unfold lowBits
  rw [Int.emod_eq_of_lt (Int.natCast_nonneg _) (by exact_mod_cast x.toNat_lt), Int.toNat_natCast,
    UInt64.ofNat_toNat]

/-- The search ends exactly if an index of 32 bits reaches the last identifier.  The new
identifier then is in range and free, and as far from its predecessor as half of a widest
gap; no number on the way is beyond 64 bits, or it could be refused. -/
theorem searchNewSwarmId_iff {m : SwarmMnodeMap} (hne : m.items ≠ [])
    (hassigned : forall group, group ∈ m.items -> group.swarmId ≠ unassignedSwarmId)
    (hcount : m.items.length < 2 ^ 63) :
    (forall fit, Exact fit -> Returns (searchNewSwarmId fit m) fun id =>
      exists left right, Halves (m.items.map Group.swarmId) left right id) <->
        m.items.length <= 2 ^ 32 := by
  constructor
  · intro h
    rcases h lowBits exact_lowBits with ⟨bound, id, hid, _⟩
    exact length_le_of_searchNewSwarmId lowBits (hid bound (le_refl _))
  · intro hfew fit hfit
    have hids : m.items.map Group.swarmId ≠ [] := mt map_eq_nil_iff.mp hne
    refine (searchNewSwarmId_returns hfit hids hassigned hfew).mono ?_
    rintro id rfl
    exact widestMiddle_halves hassigned (by omega) hids

def threeSwarms : SwarmMnodeMap where
  items := [⟨0, []⟩, ⟨10, []⟩, ⟨maxId, []⟩]
  sorted := by decide

theorem searchNewSwarmId_iff_threeSwarms :
    Returns (searchNewSwarmId lowBits threeSwarms) fun id =>
      exists left right, Halves [0, 10, maxId] left right id :=
  (searchNewSwarmId_iff (by decide) (by decide) (by decide)).mpr (by decide) _ exact_lowBits

section

variable {nodes : Nat -> List Crypto.PublicKey} {count : Nat} (hcount : count <= 2 ^ 32 + 1)

include hcount in
theorem toNat_swarmId {i : Nat} (hi : i ∈ range count) : (UInt64.ofNat i).toNat = i := by
  have hlt := mem_range.mp hi
  exact UInt64.toNat_ofNat_of_lt' (by unfold UInt64.size; omega)

variable (nodes) in
/-- Swarms whose identifiers are the numbers from zero on. -/
def numbered : SwarmMnodeMap where
  items := (range count).map fun i => ⟨UInt64.ofNat i, nodes i⟩
  sorted := by
    refine pairwise_map.mpr (pairwise_lt_range.imp_of_mem ?_)
    intro i j hi hj hlt
    change (UInt64.ofNat i).toNat < (UInt64.ofNat j).toNat
    rw [toNat_swarmId hcount hi, toNat_swarmId hcount hj]
    exact hlt

theorem length_numbered : (numbered nodes hcount).items.length = count := by
  unfold numbered
  rw [length_map, length_range]

theorem numbered_assigned (group : Group) (hgroup : group ∈ (numbered nodes hcount).items) :
    group.swarmId ≠ unassignedSwarmId := by
  rcases mem_map.mp hgroup with ⟨i, hi, rfl⟩
  intro heq
  have hvalue := congrArg UInt64.toNat heq
  rw [toNat_swarmId hcount hi] at hvalue
  have hlt := mem_range.mp hi
  have hmax : unassignedSwarmId.toNat = 2 ^ 64 - 1 := by decide
  omega

end

def crowdedRing : SwarmMnodeMap :=
  numbered (fun _ => []) (le_refl (2 ^ 32 + 1))

/-- One identifier too many, and the index starts again and again. -/
theorem crowdedRing_endless :
    crowdedRing.items.length = 2 ^ 32 + 1 ∧
      (forall group, group ∈ crowdedRing.items -> group.swarmId ≠ unassignedSwarmId) ∧
      forall fuel, searchNewSwarmId lowBits crowdedRing fuel = none := by
  have hlen : crowdedRing.items.length = 2 ^ 32 + 1 := length_numbered _
  refine ⟨hlen, numbered_assigned _, ?_⟩
  intro fuel
  refine Option.eq_none_iff_forall_ne_some.mpr fun id hid => ?_
  have hle := length_le_of_searchNewSwarmId lowBits hid
  omega

end Beldex.Swarm
