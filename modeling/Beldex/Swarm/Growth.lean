import Beldex.Swarm.Conservation

/-!
# How the number of swarms grows

As long as nodes only come, the number of swarms is a step function of the number
of nodes: one swarm for every ideal size, and never less than one.  A lone swarm
may starve; from the second one on no swarm does, so that nothing is stolen and no
swarm is dissolved, and the excess alone decides when a swarm is split off.
-/

namespace Beldex.Swarm

open Basic Crypto Foundation Foundation.Loops Foundation.Sums List

variable {σ : Type}

def expectedNumSwarms (numMnodes : Nat) : Nat :=
  1 + (numMnodes - idealSwarmSize) / idealSwarmSize

/-- There are as many swarms as the nodes ask for, and only a lone swarm may starve. -/
structure Lawful (m : SwarmMnodeMap) : Prop where
  count : m.items.length = expectedNumSwarms (allMnodes m).length
  fed : m.items.length = 1 ∨ AllFed m

/-! ## The excess decides -/

variable {m : SwarmMnodeMap}

theorem length_allMnodes_lt (hlone : m.items.length = 1) (hstarves : ¬AllFed m) :
    (allMnodes m).length < minSwarmSize := by
  rcases length_eq_one_iff.mp hlone with ⟨group, hitems⟩
  by_contra hmany
  refine hstarves ?_
  intro other hother
  rw [length_allMnodes, hitems, total_cons] at hmany
  rw [hitems, mem_singleton] at hother
  rw [hother]
  change ¬(group.mnodes.length + 0 < minSwarmSize) at hmany
  omega

theorem eq_expectedNumSwarms {count numMnodes : Nat}
    (henough : numMnodes < idealSwarmSize * (count + 1))
    (hfew : count = 1 ∨ 1 <= count ∧ idealSwarmSize * count <= numMnodes) :
    count = expectedNumSwarms numMnodes := by
  unfold expectedNumSwarms
  unfold idealSwarmSize minSwarmSize idealSwarmMargin at *
  omega

theorem AllFed.lt_ideal (h : AllFed m) (hsettled : Settled m) :
    (allMnodes m).length < idealSwarmSize * (m.items.length + 1) := by
  have hsum := h.calcExcess_add
  have hlt := hsettled h
  unfold calcThreshold newSwarmSize idealSwarmSize idealSwarmMargin at hlt
  unfold idealSwarmSize idealSwarmMargin
  unfold minSwarmSize at *
  omega

theorem expectedNumSwarms_few (numMnodes : Nat) :
    expectedNumSwarms numMnodes = 1 ∨
      idealSwarmSize * expectedNumSwarms numMnodes <= numMnodes := by
  unfold expectedNumSwarms idealSwarmSize minSwarmSize idealSwarmMargin
  omega

variable {state : SwarmState σ}

/-- When nodes have come since the number of swarms was right, the creation of swarms makes
it right again. -/
theorem Created.lawful {mnodes waiting : List PublicKey} {result : SwarmState σ}
    (h : Created mnodes waiting state result) (hkept : Kept mnodes waiting state.swarmToMnodes)
    (hfed : state.swarmToMnodes.items.length = 1 ∨ AllFed state.swarmToMnodes) {numMnodes : Nat}
    (hcount : state.swarmToMnodes.items.length = expectedNumSwarms numMnodes)
    (hcame : numMnodes <= (allMnodes state.swarmToMnodes).length) :
    Lawful result.swarmToMnodes := by
  by_cases hres : AllFed result.swarmToMnodes
  · refine ⟨?_, Or.inr hres⟩
    have hpos := length_pos_of_ne_nil h.kept.inhabited
    have hsame := h.kept.length_eq hkept
    refine eq_expectedNumSwarms (hres.lt_ideal h.settled) ?_
    rcases h.grown with hequal | hideal
    · rw [hequal, hcount]
      rcases expectedNumSwarms_few numMnodes with hone | hideal
      · exact Or.inl hone
      · rw [hequal, hcount] at hpos
        exact Or.inr ⟨hpos, by omega⟩
    · exact Or.inr ⟨hpos, hideal⟩
  · rcases h.fed with rfl | hall
    · rcases hfed with hlone | hall
      · have hlt := length_allMnodes_lt hlone hres
        refine ⟨?_, Or.inl hlone⟩
        rw [hlone]
        unfold expectedNumSwarms
        have hideal : minSwarmSize <= idealSwarmSize := Nat.le_add_right _ _
        rw [Nat.sub_eq_zero_of_le (by omega), Nat.zero_div]
      · exact absurd hall hres
    · exact absurd hall hres

section Given

variable {mnodes waiting : List PublicKey} (hnodup : mnodes.Nodup)
  (hsize : mnodes.length < searchLimit)

include hnodup hsize in
theorem assignMnodes_lawful (env : SwarmEnv σ) {percentile : Nat}
    (hpct : percentile <= 100) (state : SwarmState σ)
    (h : Kept mnodes waiting state.swarmToMnodes) (hlaw : Lawful state.swarmToMnodes) :
    Returns (fun fuel => assignMnodes env waiting percentile fuel state) fun result =>
      Kept mnodes [] result.swarmToMnodes ∧ Lawful result.swarmToMnodes := by
  refine Returns.forEach (fun rest (current : SwarmState σ) =>
    Kept mnodes rest current.swarmToMnodes ∧ Lawful current.swarmToMnodes) ?_ ⟨h, hlaw⟩
  rintro mnode rest current ⟨hkept, hcur⟩
  rcases assignMnode_eq env hpct hkept.inhabited mnode with
    ⟨group, others, after, mt, hchg, heq⟩
  have hjoined := hkept.joined hchg
  have hmore := hchg.perm_of_append.length_eq
  rw [length_cons] at hmore
  have hcount := hchg.length_eq.trans hcur.count
  have hfed : after.items.length = 1 ∨ AllFed after :=
    hcur.fed.imp hchg.length_eq.trans hchg.allFed_of_append
  simp only [heq]
  refine (createNewSwarmFromExcess_returns hnodup hsize env ⟨after, mt⟩ hjoined).mono ?_
  intro result hres
  refine ⟨hres.kept, hres.lawful hjoined hfed hcount ?_⟩
  change _ <= (allMnodes after).length
  omega

end Given

/-! ## Nothing to steal, nothing to dissolve -/

variable (env : SwarmEnv σ)

theorem calcSwarmSizes_lone {group : Group} (hitems : m.items = [group]) :
    calcSwarmSizes env m = [⟨group.swarmId, group.mnodes.length⟩] := by
  unfold calcSwarmSizes
  rw [hitems]
  exact perm_singleton.mp (env.sort_perm _)

theorem stealOne_lone {group : Group} (hitems : state.swarmToMnodes.items = [group])
    (hpoor : group.mnodes.length < minSwarmSize) (swarm : SwarmSize) :
    stealOne env [swarm] group.swarmId state = some (state, true) := by
  have hgroup : group ∈ state.swarmToMnodes.items := by
    rw [hitems]
    exact mem_singleton_self _
  have hthr : minSwarmSize <= max minSwarmSize (predSize swarm.size) := le_max_left _ _
  have hpool : getExcessPool (max minSwarmSize (predSize swarm.size)) state.swarmToMnodes =
      ([], some 0) := by
    unfold getExcessPool
    rw [if_neg (not_lt.mpr hthr), hitems, filter_singleton, decide_eq_false (by omega)]
    rfl
  have hdeficit : deficit group.mnodes.length = minSwarmSize - group.mnodes.length :=
    if_pos (le_of_lt hpoor)
  have hfirst : [swarm][stealingSwarmUpperPercentile * ([swarm].length - 1) / 100]? =
      some swarm := by
    simp
  unfold stealOne
  simp only [hfirst, mnodesAt_eq hgroup, Option.bind_eq_bind, Option.bind_some, hpool]
  rw [if_pos (by omega)]

theorem robinHood_idle (h : state.swarmToMnodes.items.length = 1 ∨ AllFed state.swarmToMnodes) :
    Returns (fun fuel => robinHood env (calcSwarmSizes env state.swarmToMnodes) fuel
      (calcSwarmSizes env state.swarmToMnodes) state) fun result => result = state := by
  by_cases hfed : AllFed state.swarmToMnodes
  · refine ⟨0, state, ?_, rfl⟩
    intro fuel _
    refine robinHood_fed env _ _ ?_ fuel state
    intro swarm hswarm
    rcases mem_calcSwarmSizes hswarm with ⟨group, hgroup, rfl⟩
    exact hfed group hgroup
  · rcases h with hlone | hall
    · rcases length_eq_one_iff.mp hlone with ⟨group, hitems⟩
      have hlt := length_allMnodes_lt hlone hfed
      rw [length_allMnodes, hitems, total_cons] at hlt
      change group.mnodes.length + 0 < minSwarmSize at hlt
      rw [add_zero] at hlt
      refine ⟨1, state, ?_, rfl⟩
      intro fuel hfuel
      rw [calcSwarmSizes_lone env hitems]
      unfold robinHood saveSwarm
      simp only [if_neg (not_le.mpr hlt), stealOne_lone env hitems hlt,
        Option.bind_eq_bind, Option.bind_some]
      rw [whileLoop_done _ rfl hfuel]
      rfl
    · exact absurd hall hfed

theorem Lawful.decommissioned?_eq (h : Lawful m) : decommissioned? m = none := by
  rcases h.fed with hlone | hfed
  · unfold decommissioned?
    rw [hlone]
    rfl
  · exact hfed.decommissioned?_eq

theorem calcSwarmChanges_lawful (seed : UInt64) {rest : SwarmMnodeMap}
    {mnodes waiting : List PublicKey} (hnodup : mnodes.Nodup) (hsize : mnodes.length < searchLimit)
    (hne : m.items ≠ []) (htake : takeUnassigned m = (waiting, rest))
    (hkept : Kept mnodes waiting rest) (hlaw : Lawful rest) :
    Returns (fun fuel => calcSwarmChanges env seed fuel m) fun result =>
      Kept mnodes [] result ∧ Lawful result := by
  unfold calcSwarmChanges
  simp only [isEmpty_eq_false_iff.mpr hne, htake]
  refine (assignMnodes_lawful hnodup hsize env (by decide)
    ⟨rest, env.mersenneTwister seed⟩ hkept hlaw).bind ?_
  rintro filled ⟨hfilled, hlaw⟩
  refine (robinHood_idle env hlaw.fed).bind ?_
  rintro shared rfl
  refine (createNewSwarmFromExcess_returns hnodup hsize env shared hfilled).bind ?_
  intro grown hgrown
  have hlaw' := hgrown.lawful hfilled hlaw.fed hlaw.count (le_refl _)
  refine Returns.bind (Q := fun result => result = grown) ⟨1, grown, ?_, rfl⟩ ?_
  · intro fuel hfuel
    refine whileLoop_done _ ?_ hfuel
    rw [hlaw'.decommissioned?_eq]
    rfl
  · rintro result rfl
    exact Returns.pure ⟨hgrown.kept, hlaw'⟩

/-! ## Runs of calls -/

/-- A call: the seed, and the nodes without a swarm, if there is an entry for them. -/
structure Call where
  seed : UInt64
  unassigned : Option (List PublicKey)

namespace Call

def mnodes (call : Call) : List PublicKey := call.unassigned.getD []

def request (call : Call) (swarmToMnodes : SwarmMnodeMap) : SwarmMnodeMap :=
  match call.unassigned with
  | none => swarmToMnodes
  | some mnodes => swarmToMnodes.emplace ⟨unassignedSwarmId, mnodes⟩

end Call

def applyCalls (fuel : Nat) (swarmToMnodes : SwarmMnodeMap) (calls : List Call) :
    Option SwarmMnodeMap :=
  forEach (fun fuel m call => calcSwarmChanges env call.seed fuel (call.request m)) fuel
    swarmToMnodes calls

structure Registered (mnodes : List PublicKey) (begun : Bool) (m : SwarmMnodeMap) : Prop where
  perm : (allMnodes m).Perm mnodes
  assigned : forall group, group ∈ m.items -> group.swarmId ≠ unassignedSwarmId
  law : if begun then Lawful m else m = noSwarms

theorem Lawful.inhabited (h : Lawful m) : m.items ≠ [] := by
  refine ne_nil_of_length_pos ?_
  rw [h.count]
  exact lt_of_lt_of_le Nat.one_pos (Nat.le_add_right _ _)

theorem takeUnassigned_emplace
    (h : forall group, group ∈ m.items -> group.swarmId ≠ unassignedSwarmId)
    (mnodes : List PublicKey) :
    takeUnassigned (m.emplace ⟨unassignedSwarmId, mnodes⟩) =
      (mnodes, if m.items.isEmpty then m.emplace ⟨0, []⟩ else m) := by
  have hfind : m.find? (Group.rank ⟨unassignedSwarmId, mnodes⟩) = none := find?_unassigned h
  have hfound := OrderedSet.find?_emplace hfind
  have herase := OrderedSet.erase_emplace hfind
  unfold takeUnassigned mnodesAt
  change (m.emplace ⟨unassignedSwarmId, mnodes⟩).find? unassignedSwarmId.toNat = _ at hfound
  change (m.emplace ⟨unassignedSwarmId, mnodes⟩).erase unassignedSwarmId.toNat = _ at herase
  rw [hfound, herase]
  rfl

theorem lawful_initial : Lawful (noSwarms.emplace ⟨0, []⟩) := by
  refine ⟨?_, Or.inl ?_⟩
  · decide
  · decide

theorem calcSwarmChanges_registered {mnodes : List PublicKey} {begun : Bool}
    (h : Registered mnodes begun m) (call : Call) (hnodup : (mnodes ++ call.mnodes).Nodup)
    (hsize : (mnodes ++ call.mnodes).length < searchLimit) :
    Returns (fun fuel => calcSwarmChanges env call.seed fuel (call.request m))
      (Registered (mnodes ++ call.mnodes) (begun || call.unassigned.isSome)) := by
  rcases call with ⟨seed, unassigned⟩
  cases unassigned with
  | none =>
    change (mnodes ++ []).Nodup at hnodup
    change (mnodes ++ []).length < searchLimit at hsize
    change Returns (fun fuel => calcSwarmChanges env seed fuel m)
      (Registered (mnodes ++ []) (begun || false))
    rw [append_nil] at hnodup hsize ⊢
    rw [Bool.or_false]
    cases begun with
    | false =>
      refine ⟨0, m, ?_, h⟩
      intro fuel _
      have hempty : m = noSwarms := h.law
      rw [hempty]
      rfl
    | true =>
      have hlaw : Lawful m := h.law
      have hkept : Kept mnodes [] m := ⟨h.perm, h.assigned, hlaw.inhabited⟩
      refine (calcSwarmChanges_lawful env seed hnodup hsize hlaw.inhabited
        (takeUnassigned_none h.assigned hlaw.inhabited) hkept hlaw).mono ?_
      rintro result ⟨hres, hlaw'⟩
      exact ⟨hres.perm, hres.assigned, hlaw'⟩
  | some batch =>
    change Returns (fun fuel => calcSwarmChanges env seed fuel
      (m.emplace ⟨unassignedSwarmId, batch⟩))
      (Registered (mnodes ++ batch) (begun || true))
    rw [Bool.or_true]
    have htake := takeUnassigned_emplace h.assigned batch
    have hne : (m.emplace ⟨unassignedSwarmId, batch⟩).items ≠ [] :=
      ne_nil_of_mem ((OrderedSet.emplace_perm
        (find?_unassigned h.assigned)).mem_iff.mpr mem_cons_self)
    have hrest : Kept (mnodes ++ batch) batch (if m.items.isEmpty then m.emplace ⟨0, []⟩ else m) ∧
        Lawful (if m.items.isEmpty then m.emplace ⟨0, []⟩ else m) := by
      cases begun with
      | false =>
        have hempty : m = noSwarms := h.law
        have hperm := h.perm
        rw [hempty] at hperm ⊢
        have hnil : mnodes = [] := nil_perm.mp hperm
        rw [hnil]
        refine ⟨⟨?_, ?_, lawful_initial.inhabited⟩, lawful_initial⟩
        · change (batch ++ []).Perm ([] ++ batch)
          rw [append_nil]
          exact List.Perm.refl _
        · decide
      | true =>
        have hlaw : Lawful m := h.law
        rw [isEmpty_eq_false_iff.mpr hlaw.inhabited, if_neg Bool.false_ne_true]
        refine ⟨⟨?_, h.assigned, hlaw.inhabited⟩, hlaw⟩
        exact perm_append_comm.trans (h.perm.append_right batch)
    refine (calcSwarmChanges_lawful env seed hnodup hsize hne htake hrest.1 hrest.2).mono ?_
    rintro result ⟨hres, hlaw'⟩
    exact ⟨hres.perm, hres.assigned, hlaw'⟩

theorem applyCalls_registered (calls : List Call) (hnodup : (calls.flatMap Call.mnodes).Nodup)
    (hsize : (calls.flatMap Call.mnodes).length < searchLimit) :
    Returns (fun fuel => applyCalls env fuel noSwarms calls)
      (Registered (calls.flatMap Call.mnodes) (calls.any fun call => call.unassigned.isSome)) := by
  have hstart : Registered [] false noSwarms := by
    refine ⟨List.Perm.refl _, ?_, rfl⟩
    intro group hgroup
    cases hgroup
  -- The invariant speaks of the calls of the past.
  refine Returns.mono (Returns.forEach (fun rest m => exists past, calls = past ++ rest ∧
    Registered (past.flatMap Call.mnodes) (past.any fun call => call.unassigned.isSome) m)
    ?_ ⟨[], rfl, hstart⟩) ?_
  · rintro call rest m ⟨past, hcalls, hm⟩
    rw [hcalls, flatMap_append, flatMap_cons, <- append_assoc] at hnodup hsize
    rw [length_append] at hsize
    refine (calcSwarmChanges_registered env hm call hnodup.of_append_left (by omega)).mono ?_
    intro result hres
    refine ⟨past ++ [call], ?_, ?_⟩
    · rw [hcalls, append_assoc]
      rfl
    · rw [flatMap_append, flatMap_singleton, any_append, any_cons, any_nil, Bool.or_false]
      exact hres
  · rintro m ⟨past, hcalls, hm⟩
    rw [append_nil] at hcalls
    rw [hcalls]
    exact hm

/-- Whatever the batches, the seeds and the draws, calls that only bring nodes end, and the
number of swarms follows from the number of nodes, once there was an entry for them. -/
theorem applyCalls_count (env : SwarmEnv σ) (calls : List Call)
    (hnodup : (calls.flatMap Call.mnodes).Nodup)
    (hsize : (calls.flatMap Call.mnodes).length < searchLimit) :
    Returns (fun fuel => applyCalls env fuel noSwarms calls) fun m =>
      (allMnodes m).Perm (calls.flatMap Call.mnodes) ∧
      m.items.length = if calls.any fun call => call.unassigned.isSome then
        expectedNumSwarms (calls.flatMap Call.mnodes).length else 0 := by
  refine (applyCalls_registered env calls hnodup hsize).mono ?_
  intro m hm
  refine ⟨hm.perm, ?_⟩
  have hlaw := hm.law
  cases hany : calls.any fun call => call.unassigned.isSome with
  | false =>
    rw [hany] at hlaw
    have hempty : m = noSwarms := hlaw
    rw [hempty]
    rfl
  | true =>
    rw [hany] at hlaw
    have hcount := Lawful.count hlaw
    rw [hm.perm.length_eq] at hcount
    exact hcount

/-- Nine nodes come first, and then seven. -/
def twoBatches : List Call :=
  [⟨1, some ((range 9).map fun n => ⟨n⟩)⟩, ⟨2, some ((range' 9 7).map fun n => ⟨n⟩)⟩]

theorem applyCalls_count_twoBatches :
    Returns (fun fuel => applyCalls lastDraw fuel noSwarms twoBatches) fun m =>
      (allMnodes m).Perm (twoBatches.flatMap Call.mnodes) ∧ m.items.length = 2 :=
  applyCalls_count lastDraw twoBatches (by decide) (by decide)

/-- A call with an empty map returns at once: there is no swarm, where the law has one. -/
theorem emptyCall_no_swarm :
    applyCalls lastDraw 0 noSwarms [⟨1, none⟩] = some noSwarms ∧
      noSwarms.items.length = 0 ∧ (allMnodes noSwarms).length = 0 ∧ expectedNumSwarms 0 = 1 :=
  ⟨rfl, rfl, rfl, rfl⟩

end Beldex.Swarm
