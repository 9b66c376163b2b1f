import Beldex.Swarm.Moves
import Mathlib.Logic.Relation

/-!
# The rounds as single steps

All rounds are made of four kinds of steps: a node joins a swarm, a node is drawn
from the excess and leaves its swarm, a new swarm is opened, a starving swarm is
dissolved.  Every round of the assignment is a sequence of such steps, and no step
takes a node out of a small swarm unless it dissolves the swarm as a whole.
-/

namespace Beldex.Swarm

open Crypto Foundation Foundation.Loops Relation OrderedSet Option ReflTransGen

variable {σ : Type}

inductive Step (env : SwarmEnv σ) : SwarmState σ -> SwarmState σ -> Prop where
  | joins {state : SwarmState σ} {swarmId : UInt64} {mnode : PublicKey}
      {after : SwarmMnodeMap} (mt : σ)
      (hjoins : changeAt state.swarmToMnodes swarmId (· ++ [mnode]) = some after) :
      Step env state ⟨after, mt⟩
  | takes {state : SwarmState σ} {threshold : Nat} {mnode : ExcessPoolMnode} {mt : σ}
      {after : SwarmMnodeMap}
      (hpick : pickFromExcessPool env (getExcessPool threshold state.swarmToMnodes).1 state.mt =
        some (mnode, mt))
      (hremove : removeExcessMnodeFromSwarm mnode state.swarmToMnodes = some after) :
      Step env state ⟨after, mt⟩
  | opens (state : SwarmState σ) (group : Group) :
      Step env state { state with swarmToMnodes := state.swarmToMnodes.emplace group }
  | dissolves {state : SwarmState σ} {group : Group}
      (hstarves : decommissioned? state.swarmToMnodes = some group) :
      Step env state { state with swarmToMnodes := state.swarmToMnodes.erase group.rank }

abbrev Steps (env : SwarmEnv σ) : SwarmState σ -> SwarmState σ -> Prop :=
  ReflTransGen (Step env)

/-! ## No step takes from the poor -/

/-- A swarm without excess keeps its nodes, or it is dissolved. -/
def Spares (before after : SwarmMnodeMap) : Prop :=
  forall group, group ∈ before.items -> group.mnodes.length <= minSwarmSize ->
    (exists more, ⟨group.swarmId, group.mnodes ++ more⟩ ∈ after.items) ∨
      decommissioned? before = some group ∧ after = before.erase group.rank

variable {m : SwarmMnodeMap}

theorem exists_of_changeAt {after : SwarmMnodeMap} {swarmId : UInt64}
    {f : List PublicKey -> List PublicKey} (h : changeAt m swarmId f = some after) :
    exists group others, group.swarmId = swarmId ∧
      Changed m after group (f group.mnodes) others := by
  cases hfind : m.find? swarmId.toNat with
  | none =>
    unfold changeAt at h
    rw [hfind] at h
    cases h
  | some group =>
    have hrank : group.rank = swarmId.toNat := rank_of_find? hfind
    have hid : group.swarmId = swarmId := UInt64.toNat_inj.mp hrank
    rcases changeAt_eq (mem_of_find? hfind) f with ⟨after', others, heq, hchg⟩
    rw [hid, h] at heq
    rw [<- some.inj heq] at hchg
    exact ⟨group, others, hid, hchg⟩

theorem stays_whole {group : Group} (h : group ∈ m.items) :
    exists more, ⟨group.swarmId, group.mnodes ++ more⟩ ∈ m.items := by
  refine ⟨[], ?_⟩
  rw [List.append_nil]
  exact h

variable {env : SwarmEnv σ}

theorem mem_of_pick {pool : List ExcessPoolMnode} {mt mt' : σ} {mnode : ExcessPoolMnode}
    (h : pickFromExcessPool env pool mt = some (mnode, mt')) : mnode ∈ pool := by
  rcases map_eq_some_iff.mp h with ⟨drawn, hget, heq⟩
  have hdrawn : drawn = mnode := congrArg Prod.fst heq
  rw [<- hdrawn]
  exact List.mem_of_getElem? hget

theorem rich_of_mem_pool {threshold : Nat} {mnode : ExcessPoolMnode}
    (h : mnode ∈ (getExcessPool threshold m).1) :
    exists group, group ∈ m.items ∧ minSwarmSize < group.mnodes.length ∧
      mnode.swarmId = group.swarmId := by
  by_cases hthr : minSwarmSize <= threshold
  · rcases (mem_getExcessPool hthr).mp h with ⟨group, hgroup, hrich, _, hid⟩
    exact ⟨group, hgroup, lt_of_le_of_lt hthr hrich, hid⟩
  · unfold getExcessPool at h
    rw [if_pos (lt_of_not_ge hthr)] at h
    cases h

theorem eq_of_swarmId {a b : Group} (ha : a ∈ m.items) (hb : b ∈ m.items)
    (hid : a.swarmId = b.swarmId) : a = b := by
  have hfound := find?_swarmId ha
  rw [hid, find?_swarmId hb] at hfound
  exact (some.inj hfound).symm

variable {state : SwarmState σ}

theorem Step.spares {after : SwarmState σ} (h : Step env state after) :
    Spares state.swarmToMnodes after.swarmToMnodes := by
  intro group hgroup hpoor
  cases h with
  | joins mt hjoins =>
    rename_i swarmId mnode after
    rcases exists_of_changeAt hjoins with ⟨joined, others, _, hchg⟩
    by_cases hsame : group = joined
    · rw [hsame]
      exact Or.inl ⟨[mnode], hchg.mem_new⟩
    · exact Or.inl (stays_whole (hchg.mem_of_ne hgroup hsame))
  | takes hpick hremove =>
    rename_i threshold mnode mt after
    rcases rich_of_mem_pool (mem_of_pick hpick) with ⟨rich, hrich, hexcess, hid⟩
    rcases exists_of_changeAt hremove with ⟨giver, others, hgiver, hchg⟩
    refine Or.inl (stays_whole (hchg.mem_of_ne hgroup ?_))
    rintro rfl
    have hsame := eq_of_swarmId hgroup hrich (hgiver.trans hid)
    rw [hsame] at hpoor
    exact not_lt.mpr hpoor hexcess
  | opens new =>
    refine Or.inl (stays_whole ?_)
    cases hfind : state.swarmToMnodes.find? new.rank with
    | none => exact (emplace_perm hfind).mem_iff.mpr (List.mem_cons_of_mem _ hgroup)
    | some old =>
      unfold emplace
      rw [hfind]
      exact hgroup
  | dissolves hstarves =>
    rename_i dissolved
    by_cases hsame : group = dissolved
    · rw [hsame]
      exact Or.inr ⟨hstarves, rfl⟩
    · refine Or.inl (stays_whole (mem_erase.mpr ⟨hgroup, ?_⟩))
      intro hrank
      have hmem := (decommissioned?_eq_some hstarves).2.1
      exact hsame (eq_of_swarmId hgroup hmem (UInt64.toNat_inj.mp hrank))

/-! ## The rounds are made of steps -/

theorem gatherNewSwarm_steps {missing : Nat} {gathered gathered' : List PublicKey}
    {state' : SwarmState σ} {failed : Bool}
    (h : gatherNewSwarm env missing gathered state = some (gathered', state', failed)) :
    Steps env state state' := by
  induction missing generalizing gathered state with
  | zero =>
    cases h
    exact refl
  | succ missing ih =>
    unfold gatherNewSwarm at h
    simp only at h
    split at h
    · cases h
      exact refl
    · rcases bind_eq_some_iff.mp h with ⟨⟨mnode, mt⟩, hpick, h⟩
      rcases bind_eq_some_iff.mp h with ⟨after, hremove, h⟩
      exact head (Step.takes hpick hremove) (ih h)

variable {loop : SwarmState σ × Bool}

theorem splitOff_steps {fuel : Nat} (h : splitOff env fuel state = some loop) :
    Steps env state loop.1 := by
  rcases bind_eq_some_iff.mp h with ⟨⟨gathered, after, failed⟩, hgather, h⟩
  have hsteps := gatherNewSwarm_steps hgather
  cases failed with
  | true =>
    cases h
    exact hsteps
  | false =>
    rcases bind_eq_some_iff.mp h with ⟨newSwarmId, _, h⟩
    cases h
    exact hsteps.tail (Step.opens after _)

variable {fuel : Nat} {result : SwarmState σ}

theorem createNewSwarmFromExcess_steps (h : createNewSwarmFromExcess env fuel state = some result) :
    Steps env state result := by
  unfold createNewSwarmFromExcess at h
  split at h
  · cases h
    exact refl
  · rcases map_eq_some_iff.mp h with ⟨loop, hloop, rfl⟩
    exact whileLoop_relates (R := fun s t : SwarmState σ × Bool => Steps env s.1 t.1)
      (fun _ => refl) (fun _ _ _ => ReflTransGen.trans)
      (fun _ _ _ => splitOff_steps) hloop

theorem assignMnode_steps {percentile : Nat} {mnode : PublicKey}
    (h : assignMnode env percentile fuel state mnode = some result) : Steps env state result := by
  rcases bind_eq_some_iff.mp h with ⟨percentileValue, _, h⟩
  rcases bind_eq_some_iff.mp h with ⟨chosen, _, h⟩
  rcases bind_eq_some_iff.mp h with ⟨after, hjoins, h⟩
  exact head (Step.joins _ hjoins) (createNewSwarmFromExcess_steps h)

theorem assignMnodes_steps {mnodes : List PublicKey} {percentile : Nat}
    (h : assignMnodes env mnodes percentile fuel state = some result) : Steps env state result :=
  forEach_relates (fun _ => refl)
    (fun _ _ _ => ReflTransGen.trans) (fun _ _ _ _ => assignMnode_steps) h

variable {sortedSwarmSizes : List SwarmSize}

theorem stealOne_steps {poor : UInt64} (h : stealOne env sortedSwarmSizes poor state = some loop) :
    Steps env state loop.1 := by
  rcases bind_eq_some_iff.mp h with ⟨percentile, _, h⟩
  rcases bind_eq_some_iff.mp h with ⟨excess, _, h⟩
  rcases bind_eq_some_iff.mp h with ⟨poorSwarmMnodes, _, h⟩
  split at h
  · cases h
    exact refl
  · rcases bind_eq_some_iff.mp h with ⟨⟨mnode, mt⟩, hpick, h⟩
    rcases bind_eq_some_iff.mp h with ⟨taken, hremove, h⟩
    rcases bind_eq_some_iff.mp h with ⟨after, hjoins, h⟩
    cases h
    exact (single (Step.takes hpick hremove)).tail (Step.joins mt hjoins)

theorem saveSwarm_steps {poor : UInt64}
    (h : saveSwarm env sortedSwarmSizes poor fuel state = some loop) : Steps env state loop.1 := by
  rcases bind_eq_some_iff.mp h with ⟨first, hfirst, h⟩
  refine (stealOne_steps hfirst).trans ?_
  exact whileLoop_relates (R := fun s t : SwarmState σ × Bool => Steps env s.1 t.1)
    (fun _ => refl) (fun _ _ _ => ReflTransGen.trans)
    (fun _ _ _ => stealOne_steps) h

theorem robinHood_steps {swarms : List SwarmSize}
    (h : robinHood env sortedSwarmSizes fuel swarms state = some result) :
    Steps env state result := by
  induction swarms generalizing state with
  | nil =>
    cases h
    exact refl
  | cons swarm rest ih =>
    unfold robinHood at h
    split at h
    · cases h
      exact refl
    · rcases bind_eq_some_iff.mp h with ⟨⟨saved, failed⟩, hsave, h⟩
      refine (saveSwarm_steps hsave).trans ?_
      cases failed with
      | true =>
        cases h
        exact refl
      | false => exact ih h

theorem decommission_steps (h : decommission env fuel state = some result) :
    Steps env state result := by
  rcases bind_eq_some_iff.mp h with ⟨group, hstarves, h⟩
  exact head (Step.dissolves hstarves) (assignMnodes_steps h)

theorem calcSwarmChanges_steps {seed : UInt64} {result : SwarmMnodeMap} (hne : m.items ≠ [])
    (h : calcSwarmChanges env seed fuel m = some result) :
    exists mt, Steps env ⟨(takeUnassigned m).2, env.mersenneTwister seed⟩ ⟨result, mt⟩ := by
  unfold calcSwarmChanges at h
  rw [List.isEmpty_eq_false_iff.mpr hne, if_neg Bool.false_ne_true] at h
  rcases bind_eq_some_iff.mp h with ⟨filled, hfilled, h⟩
  rcases bind_eq_some_iff.mp h with ⟨shared, hshared, h⟩
  rcases bind_eq_some_iff.mp h with ⟨grown, hgrown, h⟩
  rcases bind_eq_some_iff.mp h with ⟨settled, hsettled, h⟩
  have hdissolved : Steps env grown settled :=
    whileLoop_relates (fun _ => refl)
      (fun _ _ _ => ReflTransGen.trans) (fun _ _ _ => decommission_steps) hsettled
  refine ⟨settled.mt, ?_⟩
  rw [<- some.inj h]
  exact (assignMnodes_steps hfilled).trans ((robinHood_steps hshared).trans
    ((createNewSwarmFromExcess_steps hgrown).trans hdissolved))

end Beldex.Swarm
