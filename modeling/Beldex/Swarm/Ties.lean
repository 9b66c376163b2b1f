import Beldex.Swarm.Health
import Mathlib.Logic.Equiv.Basic

/-!
# Swarms of one size

The swarms are sorted by their sizes alone, and the sort may leave swarms of one
size in any order.  A node joins the swarm at a drawn position of the sorted swarms,
and starving swarms are saved in their order.  So the order of swarms of one size is
seen whenever the swarm at the drawn position is not the only one of its size, and
whenever a saved swarm is not.  A call that meets neither has the same result with
every sort.
-/

namespace Beldex.Swarm

open Basic Crypto Foundation.Loops SwarmSize List Option

variable {σ : Type}

structure SameDraws (env env' : SwarmEnv σ) : Prop where
  twister : env'.mersenneTwister = env.mersenneTwister
  uniform : env'.uniformDistributionPortable = env.uniformDistributionPortable

/-! ## What the sort does not touch -/

variable (env : SwarmEnv σ)

theorem calcSwarmSizes_sizes (env' : SwarmEnv σ) (m : SwarmMnodeMap) :
    (calcSwarmSizes env' m).map size = (calcSwarmSizes env m).map size := by
  unfold calcSwarmSizes
  generalize m.items.map (fun group => (⟨group.swarmId, group.mnodes.length⟩ : SwarmSize)) = sizes
  have hperm := ((env'.sort_perm sizes).trans (env.sort_perm sizes).symm).map size
  refine hperm.eq_of_pairwise (fun _ _ _ _ => le_antisymm) ?_ ?_
  · exact pairwise_map.mpr (env'.sort_sorted sizes)
  · exact pairwise_map.mpr (env.sort_sorted sizes)

theorem calcSwarmSizes_perm (env' : SwarmEnv σ) (m : SwarmMnodeMap) :
    (calcSwarmSizes env' m).Perm (calcSwarmSizes env m) :=
  (env'.sort_perm _).trans (env.sort_perm _).symm

section Same

variable {env env' : SwarmEnv σ} (h : SameDraws env env')

include h

theorem pickFromExcessPool_same (pool : List ExcessPoolMnode) (mt : σ) :
    pickFromExcessPool env' pool mt = pickFromExcessPool env pool mt := by
  unfold pickFromExcessPool
  rw [h.uniform]

theorem gatherNewSwarm_same (missing : Nat) (gathered : List PublicKey) (state : SwarmState σ) :
    gatherNewSwarm env' missing gathered state = gatherNewSwarm env missing gathered state := by
  induction missing generalizing gathered state with
  | zero => rfl
  | succ missing ih =>
    unfold gatherNewSwarm
    simp only [pickFromExcessPool_same h, ih]

theorem splitOff_same (fuel : Nat) (state : SwarmState σ) :
    splitOff env' fuel state = splitOff env fuel state := by
  unfold splitOff
  rw [gatherNewSwarm_same h]

theorem createNewSwarmFromExcess_same (fuel : Nat) (state : SwarmState σ) :
    createNewSwarmFromExcess env' fuel state = createNewSwarmFromExcess env fuel state := by
  unfold createNewSwarmFromExcess
  simp only [splitOff_same h]

theorem stealOne_same {sizes sizes' : List SwarmSize}
    (hsizes : sizes'.map size = sizes.map size) (poor : UInt64)
    (state : SwarmState σ) : stealOne env' sizes' poor state = stealOne env sizes poor state := by
  have hlen : sizes'.length = sizes.length := by
    have hmap := congrArg length hsizes
    rw [length_map, length_map] at hmap
    exact hmap
  unfold stealOne
  simp only [hlen, pickFromExcessPool_same h]
  generalize stealingSwarmUpperPercentile * (sizes.length - 1) / 100 = index
  have hat : (sizes'[index]?).map size = (sizes[index]?).map size := by
    rw [<- getElem?_map, <- getElem?_map, hsizes]
  cases hfind : sizes[index]? with
  | none =>
    rw [hfind, map_none, map_eq_none_iff] at hat
    rw [hat]
  | some swarm =>
    rw [hfind, map_some] at hat
    rcases map_eq_some_iff.mp hat with ⟨swarm', hfind', hsize⟩
    rw [hfind']
    simp only [bind_eq_bind, bind_some, hsize]

theorem saveSwarm_same {sizes sizes' : List SwarmSize} (hsizes : sizes'.map size = sizes.map size)
    (poor : UInt64) (fuel : Nat) (state : SwarmState σ) :
    saveSwarm env' sizes' poor fuel state = saveSwarm env sizes poor fuel state := by
  unfold saveSwarm
  simp only [stealOne_same h hsizes]

end Same

/-! ## A node joins -/

def drawPosition (percentile : Nat) (sizes : List Nat) (mt : σ) : Option (Nat × σ) :=
  (sizes[percentile * (sizes.length - 1) / 100]?).map fun value =>
    env.uniformDistributionPortable mt
      (upperIndex sizes (percentile * (sizes.length - 1) / 100) value + 1)

def chosenSwarm (percentile : Nat) (state : SwarmState σ) : Option SwarmSize :=
  let sortedSwarmSizes := calcSwarmSizes env state.swarmToMnodes
  (drawPosition env percentile (sortedSwarmSizes.map size) state.mt).bind fun draw =>
    sortedSwarmSizes[draw.1]?

theorem assignMnode_eq_chosen (percentile fuel : Nat) (state : SwarmState σ) (mnode : PublicKey) :
    assignMnode env percentile fuel state mnode =
      (drawPosition env percentile ((calcSwarmSizes env state.swarmToMnodes).map size)
        state.mt).bind fun draw =>
          (chosenSwarm env percentile state).bind fun chosen =>
            (changeAt state.swarmToMnodes chosen.swarmId (· ++ [mnode])).bind fun m =>
              createNewSwarmFromExcess env fuel ⟨m, draw.2⟩ := by
  unfold assignMnode chosenSwarm drawPosition
  generalize calcSwarmSizes env state.swarmToMnodes = sizes
  simp only [length_map, getElem?_map]
  cases sizes[percentile * (sizes.length - 1) / 100]? with
  | none => rfl
  | some value => rfl

/-- No two swarms have the size of the swarm that the next node joins. -/
def Untied (percentile : Nat) (state : SwarmState σ) : Prop :=
  forall chosen, chosenSwarm env percentile state = some chosen ->
    forall group, group ∈ state.swarmToMnodes.items -> group.mnodes.length = chosen.size ->
      group.swarmId = chosen.swarmId

theorem drawPosition_same {env env' : SwarmEnv σ} (h : SameDraws env env') (percentile : Nat)
    (m : SwarmMnodeMap) (mt : σ) :
    drawPosition env' percentile ((calcSwarmSizes env' m).map size) mt =
      drawPosition env percentile ((calcSwarmSizes env m).map size) mt := by
  rw [calcSwarmSizes_sizes env env']
  unfold drawPosition
  rw [h.uniform]

theorem chosenSwarm_size {env env' : SwarmEnv σ} (h : SameDraws env env') (percentile : Nat)
    (state : SwarmState σ) :
    (chosenSwarm env' percentile state).map size = (chosenSwarm env percentile state).map size := by
  have hsizes := calcSwarmSizes_sizes env env' state.swarmToMnodes
  unfold chosenSwarm
  simp only [drawPosition_same h]
  cases drawPosition env percentile
      ((calcSwarmSizes env state.swarmToMnodes).map size) state.mt with
  | none => rfl
  | some draw =>
    simp only [bind_some]
    rw [<- getElem?_map, <- getElem?_map, hsizes]

variable {percentile : Nat} {state : SwarmState σ}

theorem chosenSwarm_mem {env : SwarmEnv σ} {chosen : SwarmSize}
    (h : chosenSwarm env percentile state = some chosen) :
    chosen ∈ calcSwarmSizes env state.swarmToMnodes := by
  rcases bind_eq_some_iff.mp h with ⟨draw, _, hget⟩
  exact mem_of_getElem? hget

theorem Untied.chosen_same {env env' : SwarmEnv σ} (huntied : Untied env percentile state)
    (h : SameDraws env env') :
    chosenSwarm env' percentile state = chosenSwarm env percentile state := by
  have hsize := chosenSwarm_size h percentile state
  cases hchosen : chosenSwarm env percentile state with
  | none =>
    rw [hchosen, map_none, map_eq_none_iff] at hsize
    exact hsize
  | some chosen =>
    rw [hchosen, map_some] at hsize
    rcases map_eq_some_iff.mp hsize with ⟨chosen', hchosen', hsame⟩
    rcases mem_calcSwarmSizes (chosenSwarm_mem hchosen') with ⟨group, hgroup, rfl⟩
    have hid := huntied chosen hchosen group hgroup hsame
    rw [hchosen', mk.injEq _ _ chosen.swarmId chosen.size |>.mpr ⟨hid, hsame⟩]

/-! ## A tie is seen -/

variable {sizes : List SwarmSize} {a b : SwarmSize}

theorem swap_mem {swarm : SwarmSize} (ha : a ∈ sizes) (hb : b ∈ sizes) (hswarm : swarm ∈ sizes) :
    Equiv.swap a b swarm ∈ sizes := by
  rw [Equiv.swap_apply_def]
  split
  · exact hb
  · split
    · exact ha
    · exact hswarm

theorem swap_size (hsame : a.size = b.size) (swarm : SwarmSize) :
    (Equiv.swap a b swarm).size = swarm.size := by
  rw [Equiv.swap_apply_def]
  split
  next heq =>
    rw [heq, hsame]
  · split
    next heq =>
      rw [heq, hsame]
    · rfl

theorem map_swap_perm (ha : a ∈ sizes) (hb : b ∈ sizes) (hnodup : sizes.Nodup) :
    (sizes.map (Equiv.swap a b)).Perm sizes := by
  have hsub : sizes.map (Equiv.swap a b) ⊆ sizes := by
    intro swarm hswarm
    rcases mem_map.mp hswarm with ⟨other, hother, rfl⟩
    exact swap_mem ha hb hother
  have hsubperm := subperm_of_subset (hnodup.map (Equiv.swap a b).injective) hsub
  exact hsubperm.perm_of_length_le (le_of_eq (length_map _).symm)

def exchanged (sizes : List SwarmSize) (a b : SwarmSize) (ha : a ∈ sizes) (hb : b ∈ sizes)
    (hnodup : sizes.Nodup) (hsame : a.size = b.size) : SwarmEnv σ where
  mersenneTwister := env.mersenneTwister
  uniformDistributionPortable := env.uniformDistributionPortable
  uniform_lt := env.uniform_lt
  sort := fun list => if list = sizes then (env.sort list).map (Equiv.swap a b) else env.sort list
  sort_perm := by
    intro list
    split
    next hlist =>
      subst hlist
      exact ((env.sort_perm list).map _).trans (map_swap_perm ha hb hnodup)
    · exact env.sort_perm list
  sort_sorted := by
    intro list
    split
    · refine pairwise_map.mpr ((env.sort_sorted list).imp ?_)
      intro x y hle
      rw [swap_size hsame, swap_size hsame]
      exact hle
    · exact env.sort_sorted list

theorem nodup_sizes (m : SwarmMnodeMap) :
    (m.items.map fun group => (⟨group.swarmId, group.mnodes.length⟩ : SwarmSize)).Nodup := by
  refine Nodup.of_map swarmId ?_
  rw [List.map_map]
  exact ids_nodup m

/-- The swarm that a node joins is the same with every sort exactly when it is the only one
of its size. -/
theorem chosenSwarm_same_iff (percentile : Nat) (state : SwarmState σ) :
    (forall env', SameDraws env env' ->
      chosenSwarm env' percentile state = chosenSwarm env percentile state) <->
        Untied env percentile state := by
  constructor
  · intro hsame chosen hchosen group hgroup hsize
    let sizes : List SwarmSize :=
      state.swarmToMnodes.items.map fun group => ⟨group.swarmId, group.mnodes.length⟩
    let other : SwarmSize := ⟨group.swarmId, group.mnodes.length⟩
    have hother : other ∈ sizes := mem_map_of_mem hgroup
    have hmem : chosen ∈ sizes := (env.sort_perm sizes).mem_iff.mp (chosenSwarm_mem hchosen)
    let env' := exchanged env sizes chosen other hmem hother (nodup_sizes _) hsize.symm
    have hdraws : SameDraws env env' := ⟨rfl, rfl⟩
    have hsort : calcSwarmSizes env' state.swarmToMnodes =
        (calcSwarmSizes env state.swarmToMnodes).map (Equiv.swap chosen other) := if_pos rfl
    have hchosen' : chosenSwarm env' percentile state = some other := by
      rcases bind_eq_some_iff.mp hchosen with ⟨draw, hdraw, hget⟩
      change (drawPosition env' percentile
        ((calcSwarmSizes env' state.swarmToMnodes).map size) state.mt).bind _ = _
      rw [drawPosition_same hdraws, hdraw, bind_some, hsort, getElem?_map, hget,
        map_some, Equiv.swap_apply_left]
    have heq := (hsame env' hdraws).symm.trans hchosen'
    rw [hchosen] at heq
    rw [some.inj heq]
  · intro huntied env' hdraws
    exact huntied.chosen_same hdraws

/-! ## All nodes of a list join -/

def AllUntied (env : SwarmEnv σ) (percentile : Nat) : SwarmState σ -> List PublicKey -> Prop
  | _, [] => True
  | state, mnode :: rest => Untied env percentile state ∧
      forall fuel after, assignMnode env percentile fuel state mnode = some after ->
        AllUntied env percentile after rest

theorem bind_congr_some {α β : Type} {x : Option α} {f g : α -> Option β}
    (h : forall a, x = some a -> f a = g a) : x.bind f = x.bind g := by
  cases x with
  | none => rfl
  | some a => exact h a rfl

theorem assignMnodes_same {env env' : SwarmEnv σ} (h : SameDraws env env') {mnodes : List PublicKey}
    (huntied : AllUntied env percentile state mnodes) (fuel : Nat) :
    assignMnodes env' mnodes percentile fuel state =
      assignMnodes env mnodes percentile fuel state := by
  unfold assignMnodes
  induction mnodes generalizing state with
  | nil => rw [forEach_nil, forEach_nil]
  | cons mnode rest ih =>
    have hassign : assignMnode env' percentile fuel state mnode =
        assignMnode env percentile fuel state mnode := by
      rw [assignMnode_eq_chosen, assignMnode_eq_chosen, drawPosition_same h,
        huntied.1.chosen_same h]
      simp only [createNewSwarmFromExcess_same h]
    rw [forEach_cons, forEach_cons, hassign]
    refine bind_congr_some ?_
    intro after hafter
    exact ih (huntied.2 fuel after hafter)

/-! ## Starving swarms are saved -/

theorem stealOne_fails_iff (sizes : List SwarmSize) {group : Group}
    (hgroup : group ∈ state.swarmToMnodes.items) :
    stealOne env sizes group.swarmId state = some (state, true) <-> exists percentile excess,
        sizes[stealingSwarmUpperPercentile * (sizes.length - 1) / 100]? = some percentile ∧
        (getExcessPool (max minSwarmSize (predSize percentile.size)) state.swarmToMnodes).2 =
          some excess ∧ excess < deficit group.mnodes.length := by
  unfold stealOne
  simp only [mnodesAt_eq hgroup, bind_eq_bind, bind_some]
  constructor
  · intro hfails
    rcases bind_eq_some_iff.mp hfails with ⟨percentile, hpct, hfails⟩
    rcases bind_eq_some_iff.mp hfails with ⟨excess, hexcess, hfails⟩
    refine ⟨percentile, excess, hpct, hexcess, ?_⟩
    by_contra henough
    -- A step that steals does not report a failure.
    rw [if_neg henough] at hfails
    rcases bind_eq_some_iff.mp hfails with ⟨⟨mnode, mt⟩, _, hfails⟩
    rcases bind_eq_some_iff.mp hfails with ⟨taken, _, hfails⟩
    rcases bind_eq_some_iff.mp hfails with ⟨after, _, hfails⟩
    cases hfails
  · rintro ⟨percentile, excess, hpct, hexcess, hlack⟩
    rw [hpct, bind_some, hexcess, bind_some, if_pos hlack]

/-- No swarm that is saved has the size of another swarm that waits to be saved. -/
def HoodUntied (env : SwarmEnv σ) (sizes : List SwarmSize) :
    List SwarmSize -> SwarmState σ -> Prop
  | [], _ => True
  | swarm :: rest, state =>
    minSwarmSize <= swarm.size ∨ stealOne env sizes swarm.swarmId state = some (state, true) ∨
    (forall other, other ∈ rest -> other.size ≠ swarm.size) ∧
      forall fuel saved, saveSwarm env sizes swarm.swarmId fuel state = some (saved, false) ->
        HoodUntied env sizes rest saved

variable {poor : UInt64}

theorem stealOne_othersStay {env : SwarmEnv σ} {loop : SwarmState σ × Bool}
    (h : stealOne env sizes poor state = some loop) :
    OthersStay poor state.swarmToMnodes loop.1.swarmToMnodes := by
  intro group hgroup hpoor hne
  rcases bind_eq_some_iff.mp h with ⟨percentile, _, h⟩
  rcases bind_eq_some_iff.mp h with ⟨excess, _, h⟩
  rcases bind_eq_some_iff.mp h with ⟨poorSwarmMnodes, _, h⟩
  split at h
  · cases h
    exact hgroup
  · rcases bind_eq_some_iff.mp h with ⟨⟨mnode, mt⟩, hpick, h⟩
    rcases bind_eq_some_iff.mp h with ⟨taken, hremove, h⟩
    rcases bind_eq_some_iff.mp h with ⟨after, hjoins, h⟩
    cases h
    rcases rich_of_mem_pool (mem_of_pick hpick) with ⟨rich, hrich, hexcess, hid⟩
    rcases exists_of_changeAt hremove with ⟨giver, _, hgiver, hgave⟩
    rcases exists_of_changeAt hjoins with ⟨saved, _, hsaved, hgot⟩
    have htaken : group ∈ taken.items := by
      refine hgave.mem_of_ne hgroup ?_
      rintro rfl
      have hsame := eq_of_swarmId hgroup hrich (hgiver.trans hid)
      rw [hsame] at hpoor
      exact absurd hexcess (not_lt.mpr (le_of_lt hpoor))
    refine hgot.mem_of_ne htaken ?_
    rintro rfl
    exact hne hsaved

theorem saveSwarm_othersStay {env : SwarmEnv σ} {fuel : Nat} {loop : SwarmState σ × Bool}
    (h : saveSwarm env sizes poor fuel state = some loop) :
    OthersStay poor state.swarmToMnodes loop.1.swarmToMnodes := by
  rcases bind_eq_some_iff.mp h with ⟨first, hfirst, h⟩
  have hrest := whileLoop_relates
    (R := fun s t : SwarmState σ × Bool =>
      OthersStay poor s.1.swarmToMnodes t.1.swarmToMnodes)
    (fun _ _ hmem _ _ => hmem)
    (fun _ _ _ hst htu group hmem hpoor hne => htu group (hst group hmem hpoor hne) hpoor hne)
    (fun _ _ _ => stealOne_othersStay) h
  intro group hmem hpoor hne
  exact hrest group (stealOne_othersStay hfirst group hmem hpoor hne) hpoor hne

/-- The swarms that wait to be saved are as they were when they were sorted. -/
def AsSorted (swarms : List SwarmSize) (m : SwarmMnodeMap) : Prop :=
  forall swarm, swarm ∈ swarms -> swarm.size < minSwarmSize ->
    exists group, group ∈ m.items ∧ group.swarmId = swarm.swarmId ∧ group.mnodes.length = swarm.size

theorem saveSwarm_fails {env : SwarmEnv σ} (h : stealOne env sizes poor state = some (state, true))
    (fuel : Nat) :
    saveSwarm env sizes poor fuel state = if fuel = 0 then none else some (state, true) := by
  unfold saveSwarm
  rw [h]
  cases fuel with
  | zero => rfl
  | succ fuel => exact whileLoop_done _ rfl (Nat.succ_pos fuel)

theorem robinHood_nil (sizes : List SwarmSize) (fuel : Nat) (state : SwarmState σ) :
    robinHood env sizes fuel [] state = some state :=
  rfl

theorem robinHood_same {env env' : SwarmEnv σ} (h : SameDraws env env') {sizes' : List SwarmSize}
    (hsizes : sizes'.map size = sizes.map size) {swarms swarms' : List SwarmSize}
    (hperm : swarms'.Perm swarms) (hsame : swarms'.map size = swarms.map size)
    (hdist : (swarms.map swarmId).Nodup) (hsort : AsSorted swarms state.swarmToMnodes)
    (huntied : HoodUntied env sizes swarms state) (fuel : Nat) :
    robinHood env' sizes' fuel swarms' state = robinHood env sizes fuel swarms state := by
  induction swarms generalizing swarms' state with
  | nil =>
    rw [hperm.eq_nil, robinHood_nil, robinHood_nil]
  | cons swarm rest ih =>
    cases swarms' with
    | nil => exact absurd hperm.symm.eq_nil (cons_ne_nil _ _)
    | cons swarm' rest' =>
      rw [map_cons, map_cons, cons.injEq] at hsame
      rcases hsame with ⟨hfront, hback⟩
      unfold robinHood
      rw [hfront]
      split
      · rfl
      next hfed =>
        have hpoor := lt_of_not_ge hfed
        rcases huntied with hfed' | hfails | ⟨hother, hnext⟩
        · exact absurd hfed' hfed
        · -- Nothing can be stolen, whichever swarm of this size is in front.
          rcases hsort swarm mem_cons_self hpoor with ⟨group, hgroup, hid, hlen⟩
          rcases hsort swarm' (hperm.mem_iff.mp mem_cons_self) (hfront ▸ hpoor) with
            ⟨group', hgroup', hid', hlength'⟩
          rw [<- hid] at hfails
          have hfails' : stealOne env sizes group'.swarmId state = some (state, true) := by
            rw [stealOne_fails_iff env sizes hgroup']
            rw [stealOne_fails_iff env sizes hgroup] at hfails
            rw [hlength', hfront, <- hlen]
            exact hfails
          rw [hid] at hfails
          rw [hid'] at hfails'
          rw [saveSwarm_same h hsizes, saveSwarm_fails hfails', saveSwarm_fails hfails]
          cases fuel with
          | zero => simp only [if_pos, bind_eq_bind, bind_none]
          | succ fuel =>
            simp only [if_neg (Nat.succ_ne_zero fuel), bind_eq_bind, bind_some, if_pos]
        · rcases mem_cons.mp (hperm.mem_iff.mp mem_cons_self) with rfl | hmem
          case inr => exact absurd hfront (hother _ hmem)
          rw [saveSwarm_same h hsizes]
          refine bind_congr_some ?_
          rintro ⟨saved, failed⟩ hsaved
          cases failed with
          | true => rfl
          | false =>
            rw [map_cons, nodup_cons] at hdist
            refine ih hperm.cons_inv hback hdist.2 ?_ (hnext fuel saved hsaved)
            intro other hmem hsmall
            rcases hsort other (mem_cons_of_mem _ hmem) hsmall with
              ⟨group, hgroup, hid, hlen⟩
            refine ⟨group, ?_, hid, hlen⟩
            refine saveSwarm_othersStay hsaved group hgroup (by omega) ?_
            intro hpoorId
            refine hdist.1 ?_
            rw [<- hpoorId, hid]
            exact mem_map_of_mem hmem

/-! ## A whole call -/

def DissolvesInto (state after : SwarmState σ) : Prop :=
  exists fuel, decommission env fuel state = some after

structure CallUntied (env : SwarmEnv σ) (seed : UInt64) (m : SwarmMnodeMap) : Prop where
  filling : AllUntied env fillSwarmLowerPercentile
    ⟨(takeUnassigned m).2, env.mersenneTwister seed⟩ (takeUnassigned m).1
  stealing : forall fuel filled, assignMnodes env (takeUnassigned m).1 fillSwarmLowerPercentile fuel
      ⟨(takeUnassigned m).2, env.mersenneTwister seed⟩ = some filled ->
    HoodUntied env (calcSwarmSizes env filled.swarmToMnodes)
      (calcSwarmSizes env filled.swarmToMnodes) filled
  dissolving : forall fuel start met, beforeDissolving env seed fuel m = some start ->
    Relation.ReflTransGen (DissolvesInto env) start met ->
    forall group, decommissioned? met.swarmToMnodes = some group ->
      AllUntied env decommissionedRedistributionLowerPercentile
        { met with swarmToMnodes := met.swarmToMnodes.erase group.rank } group.mnodes

theorem beforeDissolving_same {env env' : SwarmEnv σ} (h : SameDraws env env') {seed : UInt64}
    {m : SwarmMnodeMap} (huntied : CallUntied env seed m) (fuel : Nat) :
    beforeDissolving env' seed fuel m = beforeDissolving env seed fuel m := by
  unfold beforeDissolving
  split
  · rfl
  · simp only [h.twister]
    rw [assignMnodes_same h huntied.filling]
    refine bind_congr_some ?_
    intro filled hfilled
    have hsort : AsSorted (calcSwarmSizes env filled.swarmToMnodes) filled.swarmToMnodes := by
      intro swarm hswarm _
      rcases mem_calcSwarmSizes hswarm with ⟨group, hgroup, rfl⟩
      exact ⟨group, hgroup, rfl, rfl⟩
    have hsizes := calcSwarmSizes_sizes env env' filled.swarmToMnodes
    have hsaved := robinHood_same h hsizes (calcSwarmSizes_perm env env' _) hsizes
      (calcSwarmSizes_distinct env _) hsort (huntied.stealing fuel filled hfilled) fuel
    rw [hsaved]
    refine bind_congr_some ?_
    intro shared _
    exact createNewSwarmFromExcess_same h fuel shared

theorem dissolveAll_same {env env' : SwarmEnv σ} (h : SameDraws env env') {start : SwarmState σ}
    (huntied : forall met, Relation.ReflTransGen (DissolvesInto env) start met ->
      forall group, decommissioned? met.swarmToMnodes = some group ->
        AllUntied env decommissionedRedistributionLowerPercentile
          { met with swarmToMnodes := met.swarmToMnodes.erase group.rank } group.mnodes)
    (fuel : Nat) : dissolveAll env' fuel start = dissolveAll env fuel start := by
  unfold dissolveAll
  induction fuel generalizing start with
  | zero => rw [whileLoop_zero, whileLoop_zero]
  | succ fuel ih =>
    have hround : decommission env' fuel start = decommission env fuel start := by
      refine bind_congr_some ?_
      intro group hgroup
      exact assignMnodes_same h (huntied start Relation.ReflTransGen.refl group hgroup) fuel
    unfold whileLoop
    split
    · rw [hround]
      refine bind_congr_some ?_
      intro after hafter
      refine ih ?_
      intro met hmet
      exact huntied met (Relation.ReflTransGen.head ⟨fuel, hafter⟩ hmet)
    · rfl

/-- The swarm that a node joins is the same with every sort exactly when it is the only one
of its size; and a call of which no step meets a tie has the same result with every sort. -/
theorem calcSwarmChanges_same (env : SwarmEnv σ) (seed : UInt64) (m : SwarmMnodeMap) :
    (forall percentile state, (forall env', SameDraws env env' ->
      chosenSwarm env' percentile state = chosenSwarm env percentile state) <->
        Untied env percentile state) ∧
    (CallUntied env seed m -> forall env', SameDraws env env' -> forall fuel,
      calcSwarmChanges env' seed fuel m = calcSwarmChanges env seed fuel m) := by
  refine ⟨chosenSwarm_same_iff env, ?_⟩
  intro huntied env' h fuel
  by_cases hne : m.items = []
  · unfold calcSwarmChanges
    rw [hne, isEmpty_nil, if_pos rfl, if_pos rfl]
  · rw [calcSwarmChanges_eq env' seed fuel hne, calcSwarmChanges_eq env seed fuel hne,
      beforeDissolving_same h huntied]
    refine bind_congr_some ?_
    intro start hstart
    rw [dissolveAll_same h fun met => huntied.dissolving fuel start met hstart]

theorem twoSizes_untied : CallUntied firstDraw 7 twoSizes := by
  let filled : SwarmState Unit :=
    ⟨⟨[⟨1, mnodesFrom 0 5 ++ [⟨11⟩]⟩, ⟨2, mnodesFrom 5 6⟩], by decide⟩, ()⟩
  have hfills : forall fuel state, assignMnodes firstDraw (takeUnassigned twoSizes).1
      fillSwarmLowerPercentile fuel ⟨(takeUnassigned twoSizes).2, ()⟩ = some state ->
        filled = state := by
    intro fuel state hstate
    cases fuel with
    | zero => cases hstate
    | succ fuel => exact some.inj hstate
  refine ⟨⟨?_, fun _ _ _ => trivial⟩, ?_, ?_⟩
  · intro chosen hchosen group hgroup hsize
    have hfirst : (⟨1, 5⟩ : SwarmSize) = chosen := some.inj hchosen
    subst hfirst
    have hitems : (takeUnassigned twoSizes).2.items = [⟨1, mnodesFrom 0 5⟩, ⟨2, mnodesFrom 5 6⟩] :=
      rfl
    rw [hitems] at hgroup
    rcases mem_pair.mp hgroup with rfl | rfl
    · rfl
    · cases hsize
  · intro fuel state hstate
    rw [<- hfills fuel state hstate]
    exact Or.inl (by decide)
  · intro fuel start met hstart hmet group hgroup
    have hnone : decommissioned? start.swarmToMnodes = none := by
      cases fuel with
      | zero => cases hstart
      | succ fuel =>
        have hfilled : filled = start := some.inj hstart
        rw [<- hfilled]
        rfl
    rcases Relation.ReflTransGen.cases_head_iff.mp hmet with rfl | ⟨next, ⟨_, hnext⟩, _⟩
    · rw [hnone] at hgroup
      cases hgroup
    · unfold decommission at hnext
      rw [hnone] at hnext
      cases hnext

theorem calcSwarmChanges_same_twoSizes :
    CallUntied firstDraw 7 twoSizes ∧ forall env', SameDraws firstDraw env' -> forall fuel,
      calcSwarmChanges env' 7 fuel twoSizes = calcSwarmChanges firstDraw 7 fuel twoSizes :=
  ⟨twoSizes_untied, (calcSwarmChanges_same firstDraw 7 twoSizes).2 twoSizes_untied⟩

/-- The sort by insertion, with swarms of one size the other way round. -/
def otherWayRound : SwarmEnv Unit where
  mersenneTwister := fun _ => ()
  uniformDistributionPortable := fun mt _ => (0, mt)
  uniform_lt := fun _ _ hpos => hpos
  sort := fun sizes => sizes.reverse.insertionSort fun a b => a.size <= b.size
  sort_perm := fun sizes => (perm_insertionSort _ _).trans sizes.reverse_perm
  sort_sorted := fun sizes => pairwise_insertionSort _ sizes.reverse

/-- Two swarms of five nodes, and a node without a swarm. -/
def tiedSwarms : SwarmMnodeMap where
  items := [⟨1, [⟨1⟩, ⟨2⟩, ⟨3⟩, ⟨4⟩, ⟨5⟩]⟩, ⟨2, [⟨6⟩, ⟨7⟩, ⟨8⟩, ⟨9⟩, ⟨10⟩]⟩,
    ⟨unassignedSwarmId, [⟨11⟩]⟩]
  sorted := by decide

def joinsFirst : SwarmMnodeMap where
  items := [⟨1, [⟨1⟩, ⟨2⟩, ⟨3⟩, ⟨4⟩, ⟨5⟩, ⟨11⟩]⟩, ⟨2, [⟨6⟩, ⟨7⟩, ⟨8⟩, ⟨9⟩, ⟨10⟩]⟩]
  sorted := by decide

def joinsSecond : SwarmMnodeMap where
  items := [⟨1, [⟨1⟩, ⟨2⟩, ⟨3⟩, ⟨4⟩, ⟨5⟩]⟩, ⟨2, [⟨6⟩, ⟨7⟩, ⟨8⟩, ⟨9⟩, ⟨10⟩, ⟨11⟩]⟩]
  sorted := by decide

/-- With the same draws the node joins the one swarm or the other. -/
theorem tiedSwarms_differ :
    SameDraws firstDraw otherWayRound ∧
      Yields (fun fuel => calcSwarmChanges firstDraw 0 fuel tiedSwarms) joinsFirst ∧
      Yields (fun fuel => calcSwarmChanges otherWayRound 0 fuel tiedSwarms) joinsSecond ∧
      joinsFirst.items ≠ joinsSecond.items := by
  refine ⟨⟨rfl, rfl⟩, ⟨1, ?_⟩, ⟨1, ?_⟩, by decide⟩
  · intro fuel hfuel
    rcases Nat.exists_eq_add_of_le' hfuel with ⟨more, rfl⟩
    rfl
  · intro fuel hfuel
    rcases Nat.exists_eq_add_of_le' hfuel with ⟨more, rfl⟩
    rfl

end Beldex.Swarm
