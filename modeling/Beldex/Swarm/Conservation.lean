import Beldex.Swarm.GapSearch
import Beldex.Swarm.Moves
import Mathlib.Data.List.Pairwise

/-!
# No node is lost

However the draws fall, the assignment ends, and it hands back the nodes it was
given, each of them in one swarm.  The invariant of every round is that the nodes
of the swarms, together with those that wait for a swarm, are the given ones; a
round ends because the excess, the hunger of a swarm, or the number of swarms
goes down.
-/

namespace Beldex.Swarm

open Basic Crypto Foundation Foundation.Loops Foundation.Sums OrderedSet SwarmSize List Returns

variable {σ : Type}

/-- The nodes are in the swarms or wait for one, and there are swarms to go to. -/
structure Kept (mnodes waiting : List PublicKey) (m : SwarmMnodeMap) : Prop where
  perm : (waiting ++ allMnodes m).Perm mnodes
  assigned : forall group, group ∈ m.items -> group.swarmId ≠ unassignedSwarmId
  inhabited : m.items ≠ []

variable (m : SwarmMnodeMap)

def AllFed : Prop :=
  forall group, group ∈ m.items -> minSwarmSize <= group.mnodes.length

theorem any_isStarving_iff : m.items.any isStarving = false <-> AllFed m := by
  rw [any_eq_false]
  unfold AllFed isStarving
  simp only [decide_eq_true_eq, not_lt]

theorem length_allMnodes :
    (allMnodes m).length = total (fun group => group.mnodes.length) m.items :=
  length_flatMap

variable {group : Group}

theorem Changed.allFed_of_append {before after : SwarmMnodeMap} {others : List Group}
    {mnode : PublicKey} (h : Changed before after group (group.mnodes ++ [mnode]) others)
    (hfed : AllFed before) : AllFed after := by
  refine h.forall_group hfed ?_
  have hgroup := hfed group (h.was.mem_iff.mpr mem_cons_self)
  rw [length_append]
  exact le_trans hgroup (Nat.le_add_right _ _)

theorem AllFed.calcExcess_add {m : SwarmMnodeMap} (h : AllFed m) :
    calcExcess m + minSwarmSize * m.items.length = (allMnodes m).length := by
  rw [length_allMnodes]
  unfold calcExcess
  unfold AllFed at h
  generalize m.items = groups at h ⊢
  induction groups with
  | nil => rfl
  | cons group rest ih =>
    have hgroup := h group mem_cons_self
    have hrest := ih fun g hg => h g (mem_cons_of_mem _ hg)
    rw [total_cons, total_cons, length_cons, Nat.mul_succ]
    omega

theorem AllFed.ideal_le {m : SwarmMnodeMap} (h : AllFed m)
    (hexcess : calcThreshold m <= calcExcess m) :
    idealSwarmSize * (m.items.length + 1) <= (allMnodes m).length := by
  have hsum := h.calcExcess_add
  unfold calcThreshold newSwarmSize idealSwarmSize idealSwarmMargin at hexcess
  unfold idealSwarmSize idealSwarmMargin
  unfold minSwarmSize at *
  omega

/-- Without a starving swarm the excess does not make up a new swarm. -/
def Settled : Prop :=
  AllFed m -> calcExcess m < calcThreshold m

theorem getExcessPool_ne_nil {threshold : Nat} (hthr : minSwarmSize <= threshold)
    {m : SwarmMnodeMap} (hgroup : group ∈ m.items) (hrich : threshold < group.mnodes.length) :
    (getExcessPool threshold m).1 ≠ [] := by
  have hne : group.mnodes ≠ [] := by
    intro hnil
    rw [hnil] at hrich
    exact Nat.not_lt_zero _ hrich
  rcases exists_mem_of_ne_nil _ hne with ⟨mnode, hmnode⟩
  have hmem : (⟨mnode, group.swarmId⟩ : ExcessPoolMnode) ∈ (getExcessPool threshold m).1 :=
    (mem_getExcessPool hthr).mpr ⟨group, hgroup, hrich, hmnode, rfl⟩
  exact ne_nil_of_mem hmem

theorem exists_rich {groups : List Group}
    (h : 0 < total (fun group => group.mnodes.length - minSwarmSize) groups) :
    exists group, group ∈ groups ∧ minSwarmSize < group.mnodes.length := by
  by_contra hnone
  push Not at hnone
  have hzero : total (fun group => group.mnodes.length - minSwarmSize) groups = 0 := by
    refine (total_eq_zero_iff _ _).mpr ?_
    intro group hgroup
    exact Nat.sub_eq_zero_of_le (hnone group hgroup)
  omega

theorem find?_eq_none_of_fresh {m : SwarmMnodeMap} {id : UInt64}
    (hfresh : id ∉ m.items.map Group.swarmId) : m.find? id.toNat = none := by
  cases hfind : m.find? id.toNat with
  | none => rfl
  | some group =>
    have hrank : group.rank = id.toNat := rank_of_find? hfind
    have hid : group.swarmId = id := UInt64.toNat_inj.mp hrank
    have hmem := mem_map_of_mem (f := Group.swarmId) (mem_of_find? hfind)
    rw [hid] at hmem
    exact absurd hmem hfresh

/-- With as many nodes there may be more swarms than an index of 32 bits passes. -/
def searchLimit : Nat := idealSwarmSize * (2 ^ 32 + 2)

section Given

variable {mnodes waiting : List PublicKey} (hnodup : mnodes.Nodup)
  (hsize : mnodes.length < searchLimit)

namespace Kept

variable {m after : SwarmMnodeMap} {mnode : PublicKey}

include hnodup in
theorem nodup (h : Kept mnodes waiting m) : (allMnodes m).Nodup :=
  (h.perm.nodup_iff.mpr hnodup).of_append_right

section

variable (h : Kept mnodes waiting m)
include h

theorem length_le : (allMnodes m).length <= mnodes.length := by
  rw [<- h.perm.length_eq, length_append]
  exact Nat.le_add_left _ _

theorem length_eq {m' : SwarmMnodeMap}
    (h' : Kept mnodes waiting m') : (allMnodes m).length = (allMnodes m').length := by
  have hlen := h.perm.length_eq.trans h'.perm.length_eq.symm
  rw [length_append, length_append] at hlen
  exact Nat.add_left_cancel hlen

theorem reorder {waiting' : List PublicKey}
    (hperm : waiting.Perm waiting') : Kept mnodes waiting' m :=
  { h with
    perm := (hperm.symm.append_right _).trans h.perm }

theorem taken {threshold : Nat}
    (htaken : Taken threshold m after mnode) : Kept mnodes (waiting ++ [mnode]) after where
  perm := by
    rw [append_assoc]
    exact (htaken.perm.symm.append_left waiting).trans h.perm
  assigned := htaken.changed.forall_swarmId (p := (· ≠ unassignedSwarmId)) h.assigned
  inhabited := by
    have hlen := htaken.changed.length_eq
    have hpos := length_pos_of_ne_nil h.inhabited
    exact ne_nil_of_length_pos (by omega)

end

theorem joined {group : Group} {others : List Group} (h : Kept mnodes (mnode :: waiting) m)
    (hchg : Changed m after group (group.mnodes ++ [mnode]) others) :
    Kept mnodes waiting after where
  perm := by
    refine (hchg.perm_of_append.append_left waiting).trans ?_
    exact perm_middle.trans h.perm
  assigned := hchg.forall_swarmId (p := (· ≠ unassignedSwarmId)) h.assigned
  inhabited := by
    have hlen := hchg.length_eq
    have hpos := length_pos_of_ne_nil h.inhabited
    exact ne_nil_of_length_pos (by omega)

end Kept

/-! ## Creating swarms -/

variable (env : SwarmEnv σ)

include hnodup in
theorem gatherNewSwarm_eq (missing : Nat) (gathered : List PublicKey) (state : SwarmState σ)
    (h : Kept mnodes (waiting ++ gathered) state.swarmToMnodes) (hfed : AllFed state.swarmToMnodes)
    (hexcess : missing <= calcExcess state.swarmToMnodes) :
    exists newSwarmMnodes state',
      gatherNewSwarm env missing gathered state = some (newSwarmMnodes, state', false) ∧
      newSwarmMnodes.length = gathered.length + missing ∧
      Kept mnodes (waiting ++ newSwarmMnodes) state'.swarmToMnodes ∧
      AllFed state'.swarmToMnodes ∧
      calcExcess state'.swarmToMnodes + missing = calcExcess state.swarmToMnodes ∧
      state'.swarmToMnodes.items.length = state.swarmToMnodes.items.length := by
  induction missing generalizing gathered state with
  | zero => exact ⟨gathered, state, rfl, rfl, h, hfed, rfl, rfl⟩
  | succ missing ih =>
    have hpos : 0 < calcExcess state.swarmToMnodes := by omega
    rcases exists_rich hpos with ⟨group, hgroup, hrich⟩
    have hpool := getExcessPool_ne_nil (le_refl _) hgroup hrich
    rcases take_from_pool env (le_refl _) (h.nodup hnodup) hpool with
      ⟨mnode, mt, after, hpick, hremove, ⟨htaken⟩⟩
    have hafter := h.taken htaken
    rw [append_assoc] at hafter
    have hdrop := htaken.calcExcess_eq (le_refl _)
    rcases ih (gathered ++ [mnode.publicKey]) ⟨after, mt⟩ hafter
        (htaken.not_starving (le_refl _) hfed) (by change missing <= calcExcess after; omega)
      with ⟨newSwarmMnodes, state', heq, hlen, hkept, hfed', hexcess', hcount⟩
    refine ⟨newSwarmMnodes, state', ?_, ?_, hkept, hfed', ?_, hcount.trans htaken.changed.length_eq⟩
    · unfold gatherNewSwarm
      simp only
      rw [if_neg (by simpa using hpool), hpick]
      change ((removeExcessMnodeFromSwarm mnode state.swarmToMnodes).bind _) = _
      rw [hremove]
      exact heq
    · rw [hlen, length_append]
      change gathered.length + 1 + missing = gathered.length + (missing + 1)
      omega
    · change calcExcess state'.swarmToMnodes + missing = calcExcess after at hexcess'
      omega

variable {state : SwarmState σ}

include hnodup hsize in
theorem splitOff_returns (h : Kept mnodes waiting state.swarmToMnodes)
    (hfed : AllFed state.swarmToMnodes)
    (hexcess : calcThreshold state.swarmToMnodes <= calcExcess state.swarmToMnodes) :
    Returns (fun fuel => splitOff env fuel state) fun loop => loop.2 = false ∧
      Kept mnodes waiting loop.1.swarmToMnodes ∧ AllFed loop.1.swarmToMnodes ∧
      calcExcess loop.1.swarmToMnodes < calcExcess state.swarmToMnodes ∧
      loop.1.swarmToMnodes.items.length = state.swarmToMnodes.items.length + 1 := by
  have henough : newSwarmSize <= calcExcess state.swarmToMnodes :=
    le_trans (Nat.le_add_right _ _) hexcess
  have hstart : Kept mnodes (waiting ++ []) state.swarmToMnodes := by
    rw [append_nil]
    exact h
  rcases gatherNewSwarm_eq hnodup env newSwarmSize [] state hstart hfed henough with
    ⟨newSwarmMnodes, gathered, heq, hlen, hkept, hfed', hdrop, hsame⟩
  rw [length_nil, zero_add] at hlen
  have hcount : gathered.swarmToMnodes.items.length <= 2 ^ 32 := by
    have hideal := hfed.ideal_le hexcess
    have hle := h.length_le
    unfold searchLimit at hsize
    unfold idealSwarmSize minSwarmSize idealSwarmMargin at *
    omega
  unfold splitOff
  rw [heq]
  refine (searchNewSwarmId_returns exact_lowBits (mt map_eq_nil_iff.mp hkept.inhabited)
    hkept.assigned hcount).bind ?_
  rintro _ rfl
  rcases widestMiddle_fresh hkept.assigned (by omega) with ⟨hassigned, hfresh⟩
  let new : Group := ⟨widestMiddle gathered.swarmToMnodes, newSwarmMnodes⟩
  have hperm : (gathered.swarmToMnodes.emplace new).items.Perm
      (new :: gathered.swarmToMnodes.items) :=
    emplace_perm (find?_eq_none_of_fresh hfresh)
  refine pure ⟨rfl, ⟨?_, ?_, ?_⟩, ?_, ?_, ?_⟩
  · refine ((allMnodes_perm hperm).append_left waiting).trans ?_
    rw [<- append_assoc]
    exact hkept.perm
  · intro group hgroup
    refine forall_mem_cons.mpr ⟨?_, hkept.assigned⟩ group (hperm.mem_iff.mp hgroup)
    exact hassigned
  · exact ne_nil_of_mem (hperm.mem_iff.mpr mem_cons_self)
  · intro group hgroup
    refine forall_mem_cons.mpr ⟨?_, hfed'⟩ group (hperm.mem_iff.mp hgroup)
    rw [hlen]
    decide
  · change total _ (gathered.swarmToMnodes.emplace new).items < _
    rw [total_perm _ hperm, total_cons]
    change newSwarmMnodes.length - minSwarmSize + calcExcess gathered.swarmToMnodes < _
    have hfive : newSwarmSize - minSwarmSize < newSwarmSize := by decide
    rw [hlen]
    omega
  · change (gathered.swarmToMnodes.emplace new).items.length = _
    rw [hperm.length_eq, length_cons, hsame]

structure Created (mnodes waiting : List PublicKey) (state result : SwarmState σ) : Prop where
  kept : Kept mnodes waiting result.swarmToMnodes
  fed : result = state ∨ AllFed result.swarmToMnodes
  settled : Settled result.swarmToMnodes
  grown : result.swarmToMnodes.items.length = state.swarmToMnodes.items.length ∨
    idealSwarmSize * result.swarmToMnodes.items.length <= (allMnodes result.swarmToMnodes).length

include hnodup hsize in
theorem createNewSwarmFromExcess_returns (state : SwarmState σ)
    (h : Kept mnodes waiting state.swarmToMnodes) :
    Returns (fun fuel => createNewSwarmFromExcess env fuel state)
      (Created mnodes waiting state) := by
  unfold createNewSwarmFromExcess
  cases hstarving : state.swarmToMnodes.items.any isStarving with
  | true =>
    refine pure ⟨h, Or.inl rfl, ?_, Or.inl rfl⟩
    intro hfed
    rw [(any_isStarving_iff _).mpr hfed] at hstarving
    cases hstarving
  | false =>
    have hfed := (any_isStarving_iff _).mp hstarving
    refine map (whileLoop
      (fun loop : SwarmState σ × Bool => loop.2 = false ∧
        Kept mnodes waiting loop.1.swarmToMnodes ∧ AllFed loop.1.swarmToMnodes ∧
        (loop.1.swarmToMnodes.items.length = state.swarmToMnodes.items.length ∨
          idealSwarmSize * loop.1.swarmToMnodes.items.length <=
            (allMnodes loop.1.swarmToMnodes).length))
      (fun loop => calcExcess loop.1.swarmToMnodes) ?_ ⟨rfl, h, hfed, Or.inl rfl⟩) ?_
    · rintro ⟨before, failed⟩ ⟨_, hkept, hfed, _⟩ hcond
      rw [Bool.and_eq_true, decide_eq_true_eq] at hcond
      refine (splitOff_returns hnodup hsize env hkept hfed hcond.2).mono ?_
      rintro ⟨after, failed⟩ ⟨hflag, hkept', hfed', hlt, hcount⟩
      have hlen : (allMnodes after.swarmToMnodes).length =
          (allMnodes before.swarmToMnodes).length := hkept'.length_eq hkept
      refine ⟨⟨hflag, hkept', hfed', Or.inr ?_⟩, hlt⟩
      rw [hlen, hcount]
      exact hfed.ideal_le hcond.2
    · rintro ⟨result, failed⟩ ⟨⟨hflag, hkept, hfed, hgrown⟩, hdone⟩
      rw [hflag, Bool.not_false, Bool.true_and, decide_eq_false_iff_not, not_le] at hdone
      exact ⟨hkept, Or.inr hfed, fun _ => hdone, hgrown⟩

/-! ## Assigning nodes -/

theorem length_calcSwarmSizes (m : SwarmMnodeMap) :
    (calcSwarmSizes env m).length = m.items.length := by
  unfold calcSwarmSizes
  rw [(env.sort_perm _).length_eq, length_map]

theorem calcSwarmSizes_ne_nil {m : SwarmMnodeMap} (hne : m.items ≠ []) :
    calcSwarmSizes env m ≠ [] := by
  refine ne_nil_of_length_pos ?_
  rw [length_calcSwarmSizes]
  exact length_pos_of_ne_nil hne

theorem mem_calcSwarmSizes {env : SwarmEnv σ} {m : SwarmMnodeMap} {swarm : SwarmSize}
    (h : swarm ∈ calcSwarmSizes env m) :
    exists group, group ∈ m.items ∧ swarm = ⟨group.swarmId, group.mnodes.length⟩ := by
  rcases mem_map.mp ((env.sort_perm _).mem_iff.mp h) with ⟨group, hgroup, heq⟩
  exact ⟨group, hgroup, heq.symm⟩

variable {percentile : Nat}

theorem percentileIndex_lt {length : Nat} (hpct : percentile <= 100) (hpos : 0 < length) :
    percentile * (length - 1) / 100 < length := by
  have hmul := Nat.mul_le_mul_right (length - 1) hpct
  omega

theorem upperIndex_lt (sizes : List Nat) {percentileIndex : Nat} (percentileValue : Nat)
    (h : percentileIndex < sizes.length) :
    upperIndex sizes percentileIndex percentileValue < sizes.length := by
  unfold upperIndex
  cases hfind : (sizes.drop percentileIndex).findIdx? fun size => percentileValue < size with
  | none =>
    change sizes.length - 1 < sizes.length
    omega
  | some i =>
    have hlt := (findIdx?_eq_some_iff_findIdx_eq.mp hfind).1
    rw [length_drop] at hlt
    change percentileIndex + i - 1 < sizes.length
    omega

theorem assignMnode_eq (hpct : percentile <= 100) (hne : state.swarmToMnodes.items ≠ [])
    (mnode : PublicKey) :
    exists group others after mt,
      Changed state.swarmToMnodes after group (group.mnodes ++ [mnode]) others ∧
      forall fuel, assignMnode env percentile fuel state mnode =
        createNewSwarmFromExcess env fuel ⟨after, mt⟩ := by
  have hpos := length_pos_of_ne_nil hne
  rw [<- length_calcSwarmSizes env] at hpos
  have hmem : forall swarm, swarm ∈ calcSwarmSizes env state.swarmToMnodes ->
      exists group, group ∈ state.swarmToMnodes.items ∧
        swarm = ⟨group.swarmId, group.mnodes.length⟩ := fun _ => mem_calcSwarmSizes
  unfold assignMnode
  generalize calcSwarmSizes env state.swarmToMnodes = sizes at hpos hmem ⊢
  have hindex := percentileIndex_lt hpct hpos
  simp only
  generalize percentile * (sizes.length - 1) / 100 = index at hindex ⊢
  have hupper := upperIndex_lt (sizes.map size) sizes[index].size (by rw [length_map]; exact hindex)
  rw [length_map] at hupper
  generalize hval : upperIndex (sizes.map size) index sizes[index].size = upper
    at hupper
  have hrandom := env.uniform_lt state.mt (upper + 1) (Nat.succ_pos _)
  have hchosen : (env.uniformDistributionPortable state.mt (upper + 1)).1 < sizes.length := by
    omega
  rcases hmem _ (getElem_mem hchosen) with ⟨group, hgroup, heq⟩
  rcases changeAt_eq hgroup (· ++ [mnode]) with ⟨after, others, hafter, hchg⟩
  refine ⟨group, others, after, (env.uniformDistributionPortable state.mt (upper + 1)).2, hchg, ?_⟩
  intro fuel
  rw [getElem?_eq_getElem hindex]
  change ((sizes[(env.uniformDistributionPortable state.mt
    (upperIndex (sizes.map size) index sizes[index].size + 1)).1]?).bind _) = _
  rw [hval, getElem?_eq_getElem hchosen, heq]
  change ((changeAt state.swarmToMnodes group.swarmId (· ++ [mnode])).bind _) = _
  rw [hafter]
  rfl

include hnodup hsize in
/-- Waiting nodes all find a swarm.  When a swarm was created on the way, no swarm
starves, and after the last of them the excess is used up. -/
theorem assignMnodes_returns (hpct : percentile <= 100) (state : SwarmState σ)
    (h : Kept mnodes waiting state.swarmToMnodes) :
    Returns (fun fuel => assignMnodes env waiting percentile fuel state) fun result =>
      Kept mnodes [] result.swarmToMnodes ∧
      (result.swarmToMnodes.items.length = state.swarmToMnodes.items.length ∨
        AllFed result.swarmToMnodes) ∧
      (waiting = [] ∨ Settled result.swarmToMnodes) := by
  refine mono (forEach (fun rest (current : SwarmState σ) =>
    Kept mnodes rest current.swarmToMnodes ∧
      (current.swarmToMnodes.items.length = state.swarmToMnodes.items.length ∨
        AllFed current.swarmToMnodes) ∧
      (rest = waiting ∨ Settled current.swarmToMnodes)) ?_ ⟨h, Or.inl rfl, Or.inl rfl⟩) ?_
  swap
  · rintro result ⟨hkept, hcount, hsettled⟩
    exact ⟨hkept, hcount, hsettled.imp_left Eq.symm⟩
  rintro mnode rest current ⟨hkept, hcount, _⟩
  rcases assignMnode_eq env hpct hkept.inhabited mnode with
    ⟨group, others, after, mt, hchg, heq⟩
  have hjoined := hkept.joined hchg
  simp only [heq]
  refine (createNewSwarmFromExcess_returns hnodup hsize env ⟨after, mt⟩ hjoined).mono ?_
  rintro result ⟨hres, rfl | hfed, hsettled, _⟩
  · refine ⟨hres, hcount.imp ?_ hchg.allFed_of_append, Or.inr hsettled⟩
    intro hlen
    exact hchg.length_eq.trans hlen
  · exact ⟨hres, Or.inr hfed, Or.inr hsettled⟩

/-! ## Stealing from the rich -/

def OthersStay (poor : UInt64) (before after : SwarmMnodeMap) : Prop :=
  forall group, group ∈ before.items -> group.mnodes.length < minSwarmSize ->
    group.swarmId ≠ poor -> group ∈ after.items

/-- A stolen node makes the poor swarm larger, unless the excess does not suffice. -/
structure Stolen (mnodes waiting : List PublicKey) (state : SwarmState σ) (group : Group)
    (loop : SwarmState σ × Bool) : Prop where
  kept : Kept mnodes waiting loop.1.swarmToMnodes
  others : OthersStay group.swarmId state.swarmToMnodes loop.1.swarmToMnodes
  grown : loop.2 = true ∧ loop.1 = state ∨ loop.2 = false ∧
    exists mnode, ⟨group.swarmId, group.mnodes ++ [mnode]⟩ ∈ loop.1.swarmToMnodes.items

variable {sortedSwarmSizes : List SwarmSize} {group : Group}

include hnodup in
theorem stealOne_eq (hsizes : sortedSwarmSizes ≠ []) (h : Kept mnodes waiting state.swarmToMnodes)
    (hgroup : group ∈ state.swarmToMnodes.items) (hpoor : group.mnodes.length < minSwarmSize) :
    exists loop, stealOne env sortedSwarmSizes group.swarmId state = some loop ∧
      Stolen mnodes waiting state group loop := by
  have hpct : stealingSwarmUpperPercentile <= 100 := by decide
  have hindex := percentileIndex_lt hpct (length_pos_of_ne_nil hsizes)
  unfold stealOne
  simp only
  rw [getElem?_eq_getElem hindex, mnodesAt_eq hgroup]
  generalize sortedSwarmSizes[stealingSwarmUpperPercentile *
    (sortedSwarmSizes.length - 1) / 100] = percentile
  have hthr : minSwarmSize <= max minSwarmSize (predSize percentile.size) :=
    le_max_left _ _
  simp only [Option.bind_eq_bind, Option.bind_some]
  generalize max minSwarmSize (predSize percentile.size) = threshold at hthr ⊢
  have hexcess : (getExcessPool threshold state.swarmToMnodes).2 =
      some (total (fun g => g.mnodes.length - minSwarmSize)
        (state.swarmToMnodes.items.filter fun g => threshold < g.mnodes.length)) := by
    unfold getExcessPool
    rw [if_neg (not_lt.mpr hthr)]
  rw [hexcess]
  change exists loop, (if total (fun g => g.mnodes.length - minSwarmSize)
    (state.swarmToMnodes.items.filter fun g => threshold < g.mnodes.length) <
      deficit group.mnodes.length then some (state, true) else _) = _ ∧ _
  split
  · exact ⟨(state, true), rfl, h, fun _ hg _ _ => hg, Or.inl ⟨rfl, rfl⟩⟩
  · have hdeficit : deficit group.mnodes.length = minSwarmSize - group.mnodes.length :=
      if_pos (le_of_lt hpoor)
    rcases exists_rich (by omega : 0 < total (fun g => g.mnodes.length - minSwarmSize)
        (state.swarmToMnodes.items.filter fun g => threshold < g.mnodes.length)) with
      ⟨giver, hgiver, _⟩
    rw [mem_filter, decide_eq_true_eq] at hgiver
    have hpool := getExcessPool_ne_nil hthr hgiver.1 hgiver.2
    rcases take_from_pool env hthr (h.nodup hnodup) hpool with
      ⟨mnode, mt, taken, hpick, hremove, ⟨htaken⟩⟩
    -- The poor swarm is not the one that gives.
    have hstays : group ∈ taken.items := htaken.mem_of_le hgroup (by omega)
    rcases changeAt_eq hstays (· ++ [mnode.publicKey]) with ⟨after, others, hafter, hchg⟩
    refine ⟨(⟨after, mt⟩, false), ?_, ?_, ?_, Or.inr ⟨rfl, mnode.publicKey, hchg.mem_new⟩⟩
    · rw [hpick, Option.bind_some]
      rw [hremove, Option.bind_some, hafter]
      rfl
    · have hwaits := (h.taken htaken).reorder (perm_append_singleton _ _)
      exact hwaits.joined hchg
    · intro other hother hotherPoor hne
      refine hchg.mem_of_ne (htaken.mem_of_le hother (by omega)) ?_
      rintro rfl
      exact hne rfl

structure Saving (mnodes waiting : List PublicKey) (state : SwarmState σ) (poor : UInt64)
    (loop : SwarmState σ × Bool) : Prop where
  kept : Kept mnodes waiting loop.1.swarmToMnodes
  others : OthersStay poor state.swarmToMnodes loop.1.swarmToMnodes
  there : exists group, group ∈ loop.1.swarmToMnodes.items ∧ group.swarmId = poor

variable {loop : SwarmState σ × Bool}

theorem Stolen.saving {start : SwarmState σ} (h : Stolen mnodes waiting state group loop)
    (hgroup : group ∈ state.swarmToMnodes.items)
    (hstart : OthersStay group.swarmId start.swarmToMnodes state.swarmToMnodes) :
    Saving mnodes waiting start group.swarmId loop := by
  refine ⟨h.kept, ?_, ?_⟩
  · intro other hother hpoor hne
    exact h.others other (hstart other hother hpoor hne) hpoor hne
  · rcases h.grown with ⟨_, hsame⟩ | ⟨_, mnode, hmem⟩
    · rw [hsame]
      exact ⟨group, hgroup, rfl⟩
    · exact ⟨_, hmem, rfl⟩

def hunger (poor : UInt64) (loop : SwarmState σ × Bool) : Nat :=
  if loop.2 then 0
  else minSwarmSize + 1 - ((mnodesAt loop.1.swarmToMnodes poor).getD []).length

theorem Stolen.hunger_lt (h : Stolen mnodes waiting state group loop)
    (hgroup : group ∈ state.swarmToMnodes.items) (hpoor : group.mnodes.length < minSwarmSize) :
    hunger group.swarmId loop < hunger group.swarmId (state, false) := by
  have hbef : hunger group.swarmId (state, false) = minSwarmSize + 1 - group.mnodes.length := by
    unfold hunger
    rw [mnodesAt_eq hgroup]
    rfl
  rw [hbef]
  unfold hunger
  rcases h.grown with ⟨hflag, _⟩ | ⟨hflag, mnode, hmem⟩
  · rw [hflag, if_pos rfl]
    omega
  · have hat := mnodesAt_eq hmem
    rw [hflag, if_neg Bool.false_ne_true, hat, Option.getD_some, length_append, length_singleton]
    omega

include hnodup in
theorem saveSwarm_returns (hsizes : sortedSwarmSizes ≠ [])
    (h : Kept mnodes waiting state.swarmToMnodes) (hgroup : group ∈ state.swarmToMnodes.items)
    (hpoor : group.mnodes.length < minSwarmSize) :
    Returns (fun fuel => saveSwarm env sortedSwarmSizes group.swarmId fuel state) fun loop =>
      Kept mnodes waiting loop.1.swarmToMnodes ∧
        OthersStay group.swarmId state.swarmToMnodes loop.1.swarmToMnodes := by
  rcases stealOne_eq hnodup env hsizes h hgroup hpoor with ⟨first, heq, hstolen⟩
  have hfirst := hstolen.saving hgroup fun _ hother _ _ => hother
  unfold saveSwarm
  rw [heq]
  refine (whileLoop (Saving mnodes waiting state group.swarmId)
    (hunger group.swarmId) ?_ hfirst).mono fun loop hloop => ⟨hloop.1.kept, hloop.1.others⟩
  rintro ⟨current, failed⟩ hsaving hcond
  rcases hsaving.there with ⟨poor, hmem, hid⟩
  unfold stillPoor at hcond
  rw [<- hid, mnodesAt_eq hmem] at hcond
  simp only [Option.any_some, Bool.and_eq_true, Bool.not_eq_true', decide_eq_true_eq] at hcond
  rcases hcond with ⟨hflag, hstill⟩
  subst hflag
  rw [<- hid] at hsaving ⊢
  rcases stealOne_eq hnodup env hsizes hsaving.kept hmem hstill with ⟨next, hnext, hstolen'⟩
  exact of_eq hnext ⟨hstolen'.saving hmem hsaving.others, hstolen'.hunger_lt hmem hstill⟩

/-- The swarms that were found starving starve until it is their turn. -/
def StillStarving (swarms : List SwarmSize) (m : SwarmMnodeMap) : Prop :=
  forall swarm, swarm ∈ swarms -> swarm.size < minSwarmSize ->
    exists group, group ∈ m.items ∧ group.swarmId = swarm.swarmId ∧
      group.mnodes.length < minSwarmSize

include hnodup in
theorem robinHood_returns (hsizes : sortedSwarmSizes ≠ []) (swarms : List SwarmSize)
    (state : SwarmState σ) (h : Kept mnodes waiting state.swarmToMnodes)
    (hstarving : StillStarving swarms state.swarmToMnodes) (hdist : (swarms.map swarmId).Nodup) :
    Returns (fun fuel => robinHood env sortedSwarmSizes fuel swarms state) fun result =>
      Kept mnodes waiting result.swarmToMnodes := by
  induction swarms generalizing state with
  | nil => exact pure h
  | cons swarm rest ih =>
    unfold robinHood
    split
    · exact pure h
    next hfed =>
      rcases hstarving swarm mem_cons_self (lt_of_not_ge hfed) with
        ⟨group, hgroup, hid, hpoor⟩
      rw [map_cons, nodup_cons] at hdist
      rw [<- hid]
      refine (saveSwarm_returns hnodup env hsizes h hgroup hpoor).bind ?_
      rintro ⟨saved, failed⟩ ⟨hkept, hothers⟩
      cases failed with
      | true => exact pure hkept
      | false =>
        refine ih saved hkept ?_ hdist.2
        intro other hother hsmall
        rcases hstarving other (mem_cons_of_mem _ hother) hsmall with
          ⟨hungry, hmem, hsame, hlt⟩
        refine ⟨hungry, hothers hungry hmem hlt ?_, hsame, hlt⟩
        intro heq
        refine hdist.1 ?_
        rw [<- hid, <- heq, hsame]
        exact mem_map_of_mem hother

theorem robinHood_fed (sortedSwarmSizes swarms : List SwarmSize)
    (h : forall swarm, swarm ∈ swarms -> minSwarmSize <= swarm.size) (fuel : Nat)
    (state : SwarmState σ) : robinHood env sortedSwarmSizes fuel swarms state = some state := by
  cases swarms with
  | nil => rfl
  | cons swarm rest =>
    unfold robinHood
    rw [if_pos (h swarm mem_cons_self)]

/-! ## Dissolving swarms -/

/-- How many swarms may still be dissolved; no swarm starves after a creation. -/
def toDissolve (state : SwarmState σ) : Nat :=
  if (decommissioned? state.swarmToMnodes).isSome then state.swarmToMnodes.items.length else 0

theorem AllFed.decommissioned?_eq {m : SwarmMnodeMap} (h : AllFed m) :
    decommissioned? m = none := by
  unfold decommissioned?
  split
  · exact find?_eq_none.mpr (any_eq_false.mp ((any_isStarving_iff m).mpr h))
  · rfl

include hnodup hsize in
theorem decommission_returns (h : Kept mnodes [] state.swarmToMnodes)
    (hsome : (decommissioned? state.swarmToMnodes).isSome = true) :
    Returns (fun fuel => decommission env fuel state) fun result =>
      (Kept mnodes [] result.swarmToMnodes ∧ toDissolve result < toDissolve state) ∧
      forall group, decommissioned? state.swarmToMnodes = some group ->
        group.mnodes = [] ∨ Settled result.swarmToMnodes := by
  rcases Option.isSome_iff_exists.mp hsome with ⟨group, hfound⟩
  rcases decommissioned?_eq_some hfound with ⟨hmany, hgroup, _⟩
  have hperm := erase_perm (find?_eq_some_of_mem hgroup)
  have hlen := hperm.length_eq
  rw [length_cons] at hlen
  have hrest : Kept mnodes group.mnodes (state.swarmToMnodes.erase group.rank) := by
    refine ⟨?_, ?_, ?_⟩
    · exact (allMnodes_perm hperm).symm.trans h.perm
    · intro other hother
      exact h.assigned other (hperm.mem_iff.mpr (mem_cons_of_mem _ hother))
    · exact ne_nil_of_length_pos (by omega)
  unfold decommission
  rw [hfound]
  have hpct : decommissionedRedistributionLowerPercentile <= 100 := by decide
  have hassign := assignMnodes_returns hnodup hsize env hpct
    { state with swarmToMnodes := state.swarmToMnodes.erase group.rank } hrest
  refine hassign.mono ?_
  rintro result ⟨hkept, hcount, hsettled⟩
  refine ⟨⟨hkept, ?_⟩, ?_⟩
  swap
  · intro other hother
    rw [<- Option.some.inj hother]
    exact hsettled
  have hbef : toDissolve state = state.swarmToMnodes.items.length := if_pos hsome
  rw [hbef]
  unfold toDissolve
  rcases hcount with hcount | hfed
  · change result.swarmToMnodes.items.length =
      (state.swarmToMnodes.erase group.rank).items.length at hcount
    split
    · omega
    · omega
  · rw [hfed.decommissioned?_eq]
    exact Nat.lt_of_le_of_lt (Nat.zero_le _) hmany

end Given

/-! ## All rounds -/

theorem erase_unassigned_perm :
    ((mnodesAt m unassignedSwarmId).getD [] ++
      allMnodes (m.erase unassignedSwarmId.toNat)).Perm (allMnodes m) := by
  unfold mnodesAt
  cases hfind : m.find? unassignedSwarmId.toNat with
  | none =>
    rw [erase_of_find? hfind]
    exact List.Perm.refl _
  | some group => exact (allMnodes_perm (erase_perm hfind)).symm

theorem takeUnassigned_kept : Kept (allMnodes m) (takeUnassigned m).1 (takeUnassigned m).2 := by
  have hperm := erase_unassigned_perm m
  have hassigned : forall group, group ∈ (m.erase unassignedSwarmId.toNat).items ->
      group.swarmId ≠ unassignedSwarmId := by
    intro group hgroup hid
    refine (mem_erase.mp hgroup).2 ?_
    change group.swarmId.toNat = _
    rw [hid]
  unfold takeUnassigned
  simp only
  generalize m.erase unassignedSwarmId.toNat = rest at hperm hassigned ⊢
  cases hitems : rest.items with
  | nil =>
    have hnone : rest.find? (Group.rank ⟨0, []⟩) = none := by
      unfold OrderedSet.find?
      rw [hitems]
      rfl
    have hemplace := emplace_perm hnone
    rw [hitems] at hemplace
    refine ⟨?_, ?_, ?_⟩
    · refine ((allMnodes_perm hemplace).append_left _).trans ?_
      unfold allMnodes at hperm
      rw [hitems] at hperm
      exact hperm
    · intro group hgroup
      rw [mem_singleton.mp (hemplace.mem_iff.mp hgroup)]
      decide
    · exact ne_nil_of_mem (hemplace.mem_iff.mpr mem_cons_self)
  | cons group groups =>
    refine ⟨hperm, hassigned, ?_⟩
    change rest.items ≠ []
    rw [hitems]
    exact cons_ne_nil _ _

section

variable {m : SwarmMnodeMap}
  (h : forall group, group ∈ m.items -> group.swarmId ≠ unassignedSwarmId)
include h

theorem find?_unassigned : m.find? unassignedSwarmId.toNat = none := by
  refine find?_eq_none_of_fresh ?_
  intro hmem
  rcases mem_map.mp hmem with ⟨group, hgroup, hid⟩
  exact h group hgroup hid

theorem takeUnassigned_none (hne : m.items ≠ []) : takeUnassigned m = ([], m) := by
  have hfind := find?_unassigned h
  unfold takeUnassigned mnodesAt
  simp only [OrderedSet.erase_of_find? hfind, hfind, isEmpty_eq_false_iff.mpr hne]
  rfl

end

theorem calcSwarmSizes_distinct (env : SwarmEnv σ) (m : SwarmMnodeMap) :
    ((calcSwarmSizes env m).map swarmId).Nodup := by
  have hperm := (env.sort_perm
    (m.items.map fun group => ⟨group.swarmId, group.mnodes.length⟩)).map swarmId
  refine hperm.nodup_iff.mpr ?_
  rw [map_map]
  exact ids_nodup m

theorem calcSwarmSizes_starving (env : SwarmEnv σ) (m : SwarmMnodeMap) :
    StillStarving (calcSwarmSizes env m) m := by
  intro swarm hswarm hsmall
  rcases mem_calcSwarmSizes hswarm with ⟨group, hgroup, rfl⟩
  exact ⟨group, hgroup, rfl, hsmall⟩

theorem unique_group {m : SwarmMnodeMap} (hnodup : (allMnodes m).Nodup) {mnode : PublicKey}
    (hmem : mnode ∈ allMnodes m) :
    exists group, (group ∈ m.items ∧ mnode ∈ group.mnodes) ∧
      forall other, other ∈ m.items ∧ mnode ∈ other.mnodes -> other = group := by
  rcases mem_flatMap.mp hmem with ⟨group, hgroup, hin⟩
  refine ⟨group, ⟨hgroup, hin⟩, ?_⟩
  rintro other ⟨hother, hin'⟩
  by_contra hne
  have hsymm : Std.Symm fun a b : Group => List.Disjoint a.mnodes b.mnodes :=
    ⟨fun _ _ h => h.symm⟩
  exact (nodup_flatMap.mp hnodup).2.forall hother hgroup hne hin' hin

/-- The assignment ends and hands back the nodes it was given, each in one swarm. -/
structure Assigned (mnodes : List PublicKey) (result : SwarmMnodeMap) : Prop where
  perm : (allMnodes result).Perm mnodes
  unique : forall mnode, mnode ∈ mnodes ->
    exists group, (group ∈ result.items ∧ mnode ∈ group.mnodes) ∧
      forall other, other ∈ result.items ∧ mnode ∈ other.mnodes -> other = group
  once : forall group, group ∈ result.items -> group.mnodes.Nodup
  assigned : forall group, group ∈ result.items -> group.swarmId ≠ unassignedSwarmId

theorem Assigned.of_perm {mnodes : List PublicKey} {result : SwarmMnodeMap}
    (hnodup : mnodes.Nodup) (hperm : (allMnodes result).Perm mnodes)
    (hassigned : forall group, group ∈ result.items -> group.swarmId ≠ unassignedSwarmId) :
    Assigned mnodes result where
  perm := hperm
  unique := fun _ hmnode => unique_group (hperm.nodup_iff.mpr hnodup) (hperm.mem_iff.mpr hmnode)
  once := fun _ hgroup => nodup_mnodes (hperm.nodup_iff.mpr hnodup) hgroup
  assigned := hassigned

/-- The swarms when the dissolving begins; a call with no swarms does not come that far. -/
def beforeDissolving (env : SwarmEnv σ) (seed : UInt64) (fuel : Nat)
    (swarmToMnodes : SwarmMnodeMap) : Option (SwarmState σ) :=
  if swarmToMnodes.items.isEmpty then
    none
  else do
    let (unassigned, rest) := takeUnassigned swarmToMnodes
    let state <- assignMnodes env unassigned fillSwarmLowerPercentile fuel
      ⟨rest, env.mersenneTwister seed⟩
    let sortedSwarmSizes := calcSwarmSizes env state.swarmToMnodes
    let state <- robinHood env sortedSwarmSizes fuel sortedSwarmSizes state
    createNewSwarmFromExcess env fuel state

def dissolveAll (env : SwarmEnv σ) (fuel : Nat) (state : SwarmState σ) : Option (SwarmState σ) :=
  whileLoop (fun state => (decommissioned? state.swarmToMnodes).isSome) (decommission env) fuel
    state

variable {m : SwarmMnodeMap}

theorem calcSwarmChanges_eq (env : SwarmEnv σ) (seed : UInt64) (fuel : Nat) (hne : m.items ≠ []) :
    calcSwarmChanges env seed fuel m = (beforeDissolving env seed fuel m).bind fun state =>
      (dissolveAll env fuel state).bind fun result => some result.swarmToMnodes := by
  unfold calcSwarmChanges beforeDissolving
  rw [isEmpty_eq_false_iff.mpr hne, if_neg Bool.false_ne_true, if_neg Bool.false_ne_true]
  simp only [Option.bind_eq_bind, Option.bind_assoc]
  rfl

theorem beforeDissolving_returns (env : SwarmEnv σ) (seed : UInt64) (hne : m.items ≠ [])
    (hnodup : (allMnodes m).Nodup) (hsize : (allMnodes m).length < searchLimit) :
    Returns (fun fuel => beforeDissolving env seed fuel m) fun state =>
      Kept (allMnodes m) [] state.swarmToMnodes ∧ Settled state.swarmToMnodes := by
  unfold beforeDissolving
  rw [isEmpty_eq_false_iff.mpr hne]
  refine (assignMnodes_returns hnodup hsize env (by decide)
    ⟨(takeUnassigned m).2, env.mersenneTwister seed⟩ (takeUnassigned_kept m)).bind ?_
  rintro filled ⟨hfilled, _⟩
  refine (robinHood_returns hnodup env (calcSwarmSizes_ne_nil env hfilled.inhabited) _ filled
    hfilled (calcSwarmSizes_starving env _) (calcSwarmSizes_distinct env _)).bind ?_
  intro shared hshared
  refine (createNewSwarmFromExcess_returns hnodup hsize env shared hshared).mono ?_
  intro grown hgrown
  exact ⟨hgrown.kept, hgrown.settled⟩

def lastDraw : SwarmEnv Unit where
  mersenneTwister := fun _ => ()
  uniformDistributionPortable := fun mt n => (n - 1, mt)
  uniform_lt := fun _ _ hpos => Nat.sub_lt hpos Nat.one_pos
  sort := fun sizes => sizes.mergeSort fun a b => a.size <= b.size
  sort_perm := fun sizes => mergeSort_perm sizes _
  sort_sorted := by
    intro sizes
    have htrans : forall a b c : SwarmSize, decide (a.size <= b.size) = true ->
        decide (b.size <= c.size) = true -> decide (a.size <= c.size) = true := by
      intro a b c hab hbc
      simp only [decide_eq_true_eq] at hab hbc ⊢
      exact le_trans hab hbc
    have htotal : forall a b : SwarmSize,
        (decide (a.size <= b.size) || decide (b.size <= a.size)) = true := by
      intro a b
      simp only [Bool.or_eq_true, decide_eq_true_eq]
      exact le_total _ _
    exact (pairwise_mergeSort htrans htotal sizes).imp of_decide_eq_true

def mnodesFrom (start count : Nat) : List PublicKey :=
  (range' start count).map fun n => ⟨BitVec.ofNat 256 n⟩

/-- Swarms of five and six nodes, and a node without a swarm. -/
def twoSizes : SwarmMnodeMap where
  items := [⟨1, mnodesFrom 0 5⟩, ⟨2, mnodesFrom 5 6⟩, ⟨unassignedSwarmId, [⟨11⟩]⟩]
  sorted := by decide

theorem calcSwarmChanges_eq_none (env : SwarmEnv σ) (seed : UInt64) (fuel : Nat)
    (hnodup : (allMnodes m).Nodup) (hfed : AllFed m)
    (hassigned : forall group, group ∈ m.items -> group.swarmId ≠ unassignedSwarmId)
    (hexcess : calcThreshold m <= calcExcess m) (hmany : 2 ^ 32 < m.items.length) :
    calcSwarmChanges env seed fuel m = none := by
  have hne : m.items ≠ [] := ne_nil_of_length_pos (by omega)
  have hsplit : forall fuel mt, splitOff env fuel ⟨m, mt⟩ = none := by
    intro fuel mt
    rcases gatherNewSwarm_eq hnodup env newSwarmSize [] ⟨m, mt⟩
        (⟨List.Perm.refl _, hassigned, hne⟩ : Kept (allMnodes m) ([] ++ []) m) hfed
        (le_trans (Nat.le_add_right _ _) hexcess) with ⟨_, gathered, heq, _, _, _, _, hsame⟩
    unfold splitOff
    rw [heq]
    change (getNewSwarmId gathered.swarmToMnodes fuel).bind _ = none
    cases hid : getNewSwarmId gathered.swarmToMnodes fuel with
    | none => rfl
    | some id =>
      have hfew := length_le_of_searchNewSwarmId lowBits hid
      rw [hsame] at hfew
      exact absurd hfew (not_le.mpr hmany)
  have hcreate : forall mt, createNewSwarmFromExcess env fuel ⟨m, mt⟩ = none := by
    intro mt
    unfold createNewSwarmFromExcess
    rw [(any_isStarving_iff m).mpr hfed, if_neg Bool.false_ne_true]
    cases fuel with
    | zero => rfl
    | succ fuel =>
      unfold Loops.whileLoop
      rw [if_pos (by simpa using hexcess), hsplit]
      rfl
  have hrobin := robinHood_fed env (calcSwarmSizes env m) (calcSwarmSizes env m)
    (fun swarm hswarm => by
      rcases mem_calcSwarmSizes hswarm with ⟨group, hgroup, rfl⟩
      exact hfed group hgroup) fuel
  rw [calcSwarmChanges_eq env seed fuel hne]
  unfold beforeDissolving assignMnodes
  rw [isEmpty_eq_false_iff.mpr hne, if_neg Bool.false_ne_true, takeUnassigned_none hassigned hne]
  simp only [forEach_nil, Option.bind_eq_bind, Option.bind_some, hrobin, hcreate, Option.bind_none]

theorem length_mnodesFrom (start count : Nat) : (mnodesFrom start count).length = count := by
  unfold mnodesFrom
  rw [length_map, length_range']

theorem flatMap_range' (start size count : Nat) :
    (range count).flatMap (fun i => range' (start + size * i) size) =
      range' start (size * count) := by
  induction count with
  | zero => rfl
  | succ count ih =>
    rw [range_succ, flatMap_append, ih, flatMap_singleton, range'_append_1, Nat.mul_succ]

section

variable {count : Nat} (hcount : count <= 2 ^ 32)

/-- A swarm of fourteen nodes, and others of seven. -/
def crowdedSwarms : SwarmMnodeMap :=
  numbered (fun i => if i = 0 then mnodesFrom 0 14 else mnodesFrom (7 + 7 * i) 7)
    (Nat.succ_le_succ hcount)

theorem allMnodes_crowdedSwarms :
    allMnodes (crowdedSwarms hcount) = mnodesFrom 0 (14 + 7 * count) := by
  unfold allMnodes crowdedSwarms numbered mnodesFrom
  have hstart (i : Nat) : 7 + 7 * i.succ = 14 + 7 * i := by omega
  rw [flatMap_map, range_succ_eq_map, flatMap_cons, flatMap_map]
  simp only [if_true, Nat.succ_ne_zero, if_false, hstart]
  rw [<- map_flatMap, flatMap_range', <- map_append, range'_append_1]

theorem nodup_crowdedSwarms : (allMnodes (crowdedSwarms hcount)).Nodup := by
  rw [allMnodes_crowdedSwarms]
  refine Nodup.map_on ?_ nodup_range'
  intro x hx y hy heq
  have hbits := congrArg BitVec.toNat (PublicKey.mk.inj heq)
  rw [mem_range'_1] at hx hy
  rw [BitVec.toNat_ofNat, BitVec.toNat_ofNat, Nat.mod_eq_of_lt (by omega),
    Nat.mod_eq_of_lt (by omega)] at hbits
  exact hbits

theorem calcSwarmChanges_crowdedSwarms (env : SwarmEnv σ) (seed : UInt64) (fuel : Nat)
    (hmany : 2 ^ 32 <= count) : calcSwarmChanges env seed fuel (crowdedSwarms hcount) = none := by
  have hfed : AllFed (crowdedSwarms hcount) := by
    intro group hgroup
    rcases mem_map.mp hgroup with ⟨i, _, rfl⟩
    dsimp only
    split
    · decide
    · rw [length_mnodesFrom]
      decide
  have hlen : (crowdedSwarms hcount).items.length = count + 1 := length_numbered _
  refine calcSwarmChanges_eq_none env seed fuel (nodup_crowdedSwarms hcount) hfed
    (numbered_assigned _) ?_ (by omega)
  have hsum := hfed.calcExcess_add
  rw [allMnodes_crowdedSwarms, length_mnodesFrom] at hsum
  unfold calcThreshold newSwarmSize idealSwarmSize idealSwarmMargin
  unfold minSwarmSize at *
  omega

end

end Beldex.Swarm
