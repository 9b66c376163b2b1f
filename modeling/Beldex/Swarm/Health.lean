import Beldex.Swarm.Conservation
import Beldex.Swarm.Steps

/-!
# The health of the swarms

A call leaves one swarm, or swarms of which none starves.  Whether it also leaves
less excess than a new swarm needs depends on the dissolving of swarms: the excess
is looked at after every node that finds a new swarm, and therefore not at all when
the dissolved swarm has no nodes.  That is the only way in which excess is left
over.
-/

namespace Beldex.Swarm

open Crypto Foundation Foundation.Loops Foundation.Sums List

variable {σ : Type}

/-! ## The end of a call -/

variable {m : SwarmMnodeMap}

def Dissolves (env : SwarmEnv σ) (state after : SwarmState σ) : Prop :=
  (decommissioned? state.swarmToMnodes).isSome = true ∧
    Yields (fun fuel => decommission env fuel state) after

def Meets (env : SwarmEnv σ) (seed : UInt64) (m : SwarmMnodeMap) (state : SwarmState σ) : Prop :=
  exists start, Yields (fun fuel => beforeDissolving env seed fuel m) start ∧
    Relation.ReflTransGen (Dissolves env) start state

/-- The only starving swarm has no nodes, and without it there is excess for a new one. -/
def Overlooked (m : SwarmMnodeMap) : Prop :=
  exists group, decommissioned? m = some group ∧ group.mnodes = [] ∧
    AllFed (m.erase group.rank) ∧ calcThreshold m <= calcExcess m + idealSwarmMargin

/-! ## Dissolving a swarm without nodes -/

variable {group : Group}

theorem calcThreshold_erase (h : group ∈ m.items) :
    calcThreshold m = calcThreshold (m.erase group.rank) + idealSwarmMargin := by
  have hlen := (OrderedSet.erase_perm (OrderedSet.find?_eq_some_of_mem h)).length_eq
  unfold calcThreshold
  rw [hlen, length_cons, Nat.succ_mul]
  omega

theorem calcExcess_erase (h : group ∈ m.items) (hempty : group.mnodes = []) :
    calcExcess m = calcExcess (m.erase group.rank) := by
  have hperm := OrderedSet.erase_perm (OrderedSet.find?_eq_some_of_mem h)
  unfold calcExcess
  rw [total_perm _ hperm, total_cons, hempty, length_nil, Nat.zero_sub, zero_add]

variable {state : SwarmState σ}

variable {after : SwarmState σ}

theorem overlooked_iff (env : SwarmEnv σ)
    (hfound : decommissioned? state.swarmToMnodes = some group) (hempty : group.mnodes = [])
    (hround : Yields (fun fuel => decommission env fuel state) after) :
    Overlooked state.swarmToMnodes <-> ¬Settled after.swarmToMnodes := by
  have hafter : after = { state with swarmToMnodes := state.swarmToMnodes.erase group.rank } := by
    refine hround.unique ⟨0, fun fuel _ => ?_⟩
    unfold decommission
    rw [hfound]
    change assignMnodes env group.mnodes _ _ _ = _
    rw [hempty]
    rfl
  have hgroup := (decommissioned?_eq_some hfound).2.1
  have hthr := calcThreshold_erase hgroup
  have hexcess := calcExcess_erase hgroup hempty
  unfold Settled
  rw [hafter]
  push Not
  constructor
  · rintro ⟨other, hother, _, hfed, hle⟩
    rw [hfound] at hother
    rw [<- Option.some.inj hother] at hfed
    refine ⟨hfed, ?_⟩
    change calcThreshold (state.swarmToMnodes.erase group.rank) <=
      calcExcess (state.swarmToMnodes.erase group.rank)
    omega
  · rintro ⟨hfed, hle⟩
    change calcThreshold (state.swarmToMnodes.erase group.rank) <=
      calcExcess (state.swarmToMnodes.erase group.rank) at hle
    exact ⟨group, hfound, hempty, hfed, by omega⟩

theorem not_overlooked_of_nodes (hfound : decommissioned? m = some group)
    (hnodes : group.mnodes ≠ []) : ¬Overlooked m := by
  rintro ⟨other, hother, hempty, _⟩
  rw [hfound] at hother
  rw [<- Option.some.inj hother] at hempty
  exact hnodes hempty

/-! ## All rounds of dissolving -/

variable {env : SwarmEnv σ}

theorem dissolves_first {met : SwarmState σ} (hfirst : Dissolves env state after) :
    Relation.ReflTransGen (Dissolves env) state met <->
      met = state ∨ Relation.ReflTransGen (Dissolves env) after met := by
  rw [Relation.ReflTransGen.cases_head_iff]
  constructor
  · rintro (rfl | ⟨next, hnext, hrest⟩)
    · exact Or.inl rfl
    · rw [hnext.2.unique hfirst.2] at hrest
      exact Or.inr hrest
  · rintro (rfl | hrest)
    · exact Or.inl rfl
    · exact Or.inr ⟨after, hfirst, hrest⟩

def WillOverlook (env : SwarmEnv σ) (state : SwarmState σ) : Prop :=
  exists met, Relation.ReflTransGen (Dissolves env) state met ∧ Overlooked met.swarmToMnodes

theorem willOverlook_first (hfirst : Dissolves env state after) :
    WillOverlook env state <-> Overlooked state.swarmToMnodes ∨ WillOverlook env after := by
  unfold WillOverlook
  simp only [dissolves_first hfirst, or_and_right, exists_or, exists_eq_left]

theorem not_willOverlook (hnone : decommissioned? state.swarmToMnodes = none) :
    ¬WillOverlook env state := by
  rintro ⟨met, hmet, group, hfound, _⟩
  rcases Relation.ReflTransGen.cases_head_iff.mp hmet with rfl | ⟨next, hnext, _⟩
  · rw [hnone] at hfound
    cases hfound
  · have hsome := hnext.1
    rw [hnone] at hsome
    cases hsome

section Given

variable {mnodes : List PublicKey} (hnodup : mnodes.Nodup) (hsize : mnodes.length < searchLimit)

structure Dissolved (env : SwarmEnv σ) (mnodes : List PublicKey) (state result : SwarmState σ) :
    Prop where
  kept : Kept mnodes [] result.swarmToMnodes
  ended : decommissioned? result.swarmToMnodes = none
  settled_iff : Settled result.swarmToMnodes <-> ¬WillOverlook env state

theorem dissolveAll_done {env : SwarmEnv σ} {state : SwarmState σ}
    (hnone : decommissioned? state.swarmToMnodes = none) (fuel : Nat) (hfuel : 1 <= fuel) :
    dissolveAll env fuel state = some state := by
  refine whileLoop_done _ ?_ hfuel
  rw [hnone]
  rfl

include hnodup hsize in
theorem dissolveAll_returns (env : SwarmEnv σ) {state : SwarmState σ}
    (h : Kept mnodes [] state.swarmToMnodes) (hsettled : Settled state.swarmToMnodes) :
    Returns (fun fuel => dissolveAll env fuel state) (Dissolved env mnodes state) := by
  induction hm : toDissolve state using Nat.strongRecOn generalizing state with
  | ind bound ih =>
    cases hfound : decommissioned? state.swarmToMnodes with
    | none =>
      refine ⟨1, state, dissolveAll_done hfound, h, hfound, ?_⟩
      exact iff_of_true hsettled (not_willOverlook hfound)
    | some group =>
      have hsome : (decommissioned? state.swarmToMnodes).isSome = true := by
        rw [hfound]
        rfl
      rcases returns_iff.mp (decommission_returns hnodup hsize env h hsome) with
        ⟨after, hround, ⟨hkept, hlt⟩, hchk⟩
      have hfirst : Dissolves env state after := ⟨hsome, hround⟩
      rw [returns_iff]
      by_cases hafter : Settled after.swarmToMnodes
      · rcases returns_iff.mp (ih (toDissolve after) (hm ▸ hlt) hkept hafter rfl) with
          ⟨result, hrest, hres⟩
        refine ⟨result, whileLoop_round hsome hround hrest, hres.kept, hres.ended, ?_⟩
        have hnot : ¬Overlooked state.swarmToMnodes := by
          by_cases hempty : group.mnodes = []
          · rw [overlooked_iff env hfound hempty hround, not_not]
            exact hafter
          · exact not_overlooked_of_nodes hfound hempty
        rw [hres.settled_iff, willOverlook_first hfirst, or_iff_right hnot]
      · -- Excess is left over: no swarm starves any more, and the dissolving is over.
        have hempty : group.mnodes = [] := (hchk group hfound).resolve_right hafter
        have hfed : AllFed after.swarmToMnodes := by
          unfold Settled at hafter
          push Not at hafter
          exact hafter.1
        have hover := hfed.decommissioned?_eq
        refine ⟨after, whileLoop_round hsome hround ⟨1, dissolveAll_done hover⟩, hkept, hover, ?_⟩
        have hmissed := (overlooked_iff env hfound hempty hround).mpr hafter
        exact iff_of_false hafter (not_not.mpr ((willOverlook_first hfirst).mpr (Or.inl hmissed)))

end Given

/-! ## A whole call -/

theorem fed_of_over (hne : m.items ≠ []) (hover : decommissioned? m = none) :
    m.items.length = 1 ∨ AllFed m := by
  unfold decommissioned? at hover
  split at hover
  · refine Or.inr ((any_isStarving_iff m).mp (any_eq_false.mpr ?_))
    exact find?_eq_none.mp hover
  · have hpos := length_pos_of_ne_nil hne
    exact Or.inl (by omega)

structure Healthy (env : SwarmEnv σ) (seed : UInt64) (m result : SwarmMnodeMap) : Prop where
  fed : result.items.length = 1 ∨ AllFed result
  steps : m.items = [] ∧ result = m ∨
    exists mt, Steps env ⟨(takeUnassigned m).2, env.mersenneTwister seed⟩ ⟨result, mt⟩
  spared : forall state after, Step env state after ->
    Spares state.swarmToMnodes after.swarmToMnodes
  settled_iff : (AllFed result -> calcExcess result < calcThreshold result) <->
    ¬exists met, Meets env seed m met ∧ Overlooked met.swarmToMnodes

/-- For every map of distinct nodes, every seed, every generator and every order of swarms
of one size: one swarm is left or none starves, single steps lead to the result and none of
them takes from a swarm without excess, and the excess is used up unless a swarm without
nodes is the last one to be dissolved. -/
theorem calcSwarmChanges_healthy (env : SwarmEnv σ) (seed : UInt64) (m : SwarmMnodeMap)
    (hnodup : (allMnodes m).Nodup) (hsize : (allMnodes m).length < searchLimit) :
    Returns (fun fuel => calcSwarmChanges env seed fuel m) (Healthy env seed m) := by
  by_cases hne : m.items = []
  · have hfed : AllFed m := by
      intro group hgroup
      rw [hne] at hgroup
      cases hgroup
    refine ⟨0, m, ?_, Or.inr hfed, Or.inl ⟨hne, rfl⟩, fun _ _ => Step.spares, ?_⟩
    · intro fuel _
      unfold calcSwarmChanges
      rw [hne]
      rfl
    · refine iff_of_true ?_ ?_
      · intro _
        unfold calcExcess calcThreshold
        rw [hne]
        decide
      · rintro ⟨met, ⟨start, hstart, _⟩, _⟩
        rcases hstart.exists_eq with ⟨fuel, hstart⟩
        unfold beforeDissolving at hstart
        rw [hne] at hstart
        cases hstart
  · rcases returns_iff.mp (beforeDissolving_returns env seed hne hnodup hsize) with
      ⟨start, hstart, hkept, hsettled⟩
    rcases returns_iff.mp (dissolveAll_returns hnodup hsize env hkept hsettled) with
      ⟨final, hfinal, hdissolved⟩
    have hres : Yields (fun fuel => calcSwarmChanges env seed fuel m) final.swarmToMnodes := by
      simp only [calcSwarmChanges_eq env seed _ hne]
      exact hstart.bind (hfinal.bind ⟨0, fun _ _ => rfl⟩)
    refine returns_iff.mpr ⟨final.swarmToMnodes, hres, ?_, Or.inr ?_, fun _ _ => Step.spares, ?_⟩
    · exact fed_of_over hdissolved.kept.inhabited hdissolved.ended
    · rcases hres.exists_eq with ⟨fuel, heq⟩
      exact calcSwarmChanges_steps hne heq
    · refine hdissolved.settled_iff.trans (not_congr ?_)
      constructor
      · rintro ⟨met, hmet, hmissed⟩
        exact ⟨met, ⟨start, hstart, hmet⟩, hmissed⟩
      · rintro ⟨met, ⟨start', hstart', hmet⟩, hmissed⟩
        rw [hstart'.unique hstart] at hmet
        exact ⟨met, hmet, hmissed⟩

/-- A generator that always draws zero, with a sort by insertion. -/
def firstDraw : SwarmEnv Unit where
  mersenneTwister := fun _ => ()
  uniformDistributionPortable := fun mt _ => (0, mt)
  uniform_lt := fun _ _ hpos => hpos
  sort := fun sizes => sizes.insertionSort fun a b => a.size <= b.size
  sort_perm := fun sizes => perm_insertionSort _ sizes
  sort_sorted := fun sizes => pairwise_insertionSort _ sizes

def fourteenMnodes : List PublicKey := (range 14).map fun n => ⟨n⟩

def crowdAndEmpty : SwarmMnodeMap where
  items := [⟨1, fourteenMnodes⟩, ⟨2, []⟩]
  sorted := by decide

/-- The empty swarm is dissolved, and the other one is left with excess for a new swarm. -/
theorem crowdAndEmpty_unsettled :
    Returns (fun fuel => calcSwarmChanges firstDraw 0 fuel crowdAndEmpty) fun result =>
      result.items = [⟨1, fourteenMnodes⟩] ∧ AllFed result ∧
        calcThreshold result <= calcExcess result := by
  refine ⟨2, ⟨[⟨1, fourteenMnodes⟩], by decide⟩, ?_, rfl, ?_, by decide⟩
  · intro fuel hfuel
    rcases Nat.exists_eq_add_of_le' hfuel with ⟨more, rfl⟩
    rfl
  · intro group hgroup
    rw [mem_singleton.mp hgroup]
    decide

theorem calcSwarmChanges_healthy_crowdAndEmpty :
    (allMnodes crowdAndEmpty).length = 14 ∧
      Returns (fun fuel => calcSwarmChanges firstDraw 0 fuel crowdAndEmpty)
        (Healthy firstDraw 0 crowdAndEmpty) :=
  ⟨by decide, calcSwarmChanges_healthy firstDraw 0 crowdAndEmpty (by decide) (by decide)⟩

end Beldex.Swarm
