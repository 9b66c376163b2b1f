import Beldex.Swarm.Assignment

/-!
# Moving nodes between swarms

What the single moves do to the swarms as a whole.  A change touches one swarm
and leaves the others where they are; a node that is taken out of a rich swarm
leaves it with enough nodes.
-/

namespace Beldex.Swarm

open Crypto Foundation Foundation.Sums List

variable {σ : Type}

/-! ## One swarm changes -/

/-- The nodes of one swarm are replaced, and the other swarms stay. -/
structure Changed (before after : SwarmMnodeMap) (group : Group) (mnodes : List PublicKey)
    (others : List Group) : Prop where
  was : before.items.Perm (group :: others)
  becomes : after.items.Perm (⟨group.swarmId, mnodes⟩ :: others)

variable {m : SwarmMnodeMap} {group : Group}

theorem allMnodes_perm {others : List Group} (h : m.items.Perm (group :: others)) :
    (allMnodes m).Perm (group.mnodes ++ others.flatMap Group.mnodes) := by
  have hflat := h.flatMap_right Group.mnodes
  rw [flatMap_cons] at hflat
  exact hflat

namespace Changed

variable {before after : SwarmMnodeMap} {group : Group} {mnodes : List PublicKey}
  {others : List Group} (h : Changed before after group mnodes others)

include h in
theorem length_eq : after.items.length = before.items.length := by
  rw [h.was.length_eq, h.becomes.length_eq]
  rfl

include h in
theorem forall_swarmId {p : UInt64 -> Prop} (hbef : forall g, g ∈ before.items -> p g.swarmId) :
    forall g, g ∈ after.items -> p g.swarmId := by
  intro g hg
  rcases mem_cons.mp (h.becomes.mem_iff.mp hg) with rfl | hg
  · exact hbef group (h.was.mem_iff.mpr mem_cons_self)
  · exact hbef g (h.was.mem_iff.mpr (mem_cons_of_mem _ hg))

include h in
theorem forall_group {p : Group -> Prop} (hbef : forall g, g ∈ before.items -> p g)
    (hnew : p ⟨group.swarmId, mnodes⟩) : forall g, g ∈ after.items -> p g := by
  intro g hg
  rcases mem_cons.mp (h.becomes.mem_iff.mp hg) with rfl | hg
  · exact hnew
  · exact hbef g (h.was.mem_iff.mpr (mem_cons_of_mem _ hg))

include h in
theorem mem_new : ⟨group.swarmId, mnodes⟩ ∈ after.items :=
  h.becomes.mem_iff.mpr mem_cons_self

include h in
theorem mem_of_ne {g : Group} (hg : g ∈ before.items) (hne : g ≠ group) : g ∈ after.items := by
  rcases mem_cons.mp (h.was.mem_iff.mp hg) with heq | hg
  · exact absurd heq hne
  · exact h.becomes.mem_iff.mpr (mem_cons_of_mem _ hg)

theorem perm_of_append {mnode : PublicKey}
    (h : Changed before after group (group.mnodes ++ [mnode]) others) :
    (allMnodes after).Perm (mnode :: allMnodes before) := by
  refine (allMnodes_perm h.becomes).trans ?_
  rw [append_assoc, singleton_append]
  exact perm_middle.trans ((allMnodes_perm h.was).symm.cons mnode)

end Changed

theorem find?_swarmId (hgroup : group ∈ m.items) : m.find? group.swarmId.toNat = some group :=
  OrderedSet.find?_eq_some_of_mem hgroup

theorem changeAt_eq (hgroup : group ∈ m.items) (f : List PublicKey -> List PublicKey) :
    exists after others, changeAt m group.swarmId f = some after ∧
      Changed m after group (f group.mnodes) others := by
  have hfind := find?_swarmId hgroup
  have hmodify := OrderedSet.modify_perm hfind
    (fun g => { g with mnodes := f g.mnodes }) fun _ => rfl
  refine ⟨_, _, ?_, ⟨OrderedSet.erase_perm hfind, hmodify⟩⟩
  unfold changeAt
  rw [hfind]
  rfl

theorem mnodesAt_eq (hgroup : group ∈ m.items) : mnodesAt m group.swarmId = some group.mnodes := by
  unfold mnodesAt
  rw [find?_swarmId hgroup]
  rfl

/-! ## A node is taken out -/

structure Taken (threshold : Nat) (before after : SwarmMnodeMap) (mnode : PublicKey) where
  group : Group
  mnodes : List PublicKey
  others : List Group
  changed : Changed before after group mnodes others
  split : group.mnodes.Perm (mnode :: mnodes)
  rich : threshold < group.mnodes.length

namespace Taken

variable {threshold : Nat} {before after : SwarmMnodeMap} {mnode : PublicKey}
  (h : Taken threshold before after mnode)

include h in
theorem length_succ : h.mnodes.length + 1 = h.group.mnodes.length := by
  rw [h.split.length_eq]
  rfl

include h in
theorem perm : (allMnodes before).Perm (mnode :: allMnodes after) := by
  refine (allMnodes_perm h.changed.was).trans ?_
  refine (h.split.append_right _).trans ?_
  exact (allMnodes_perm h.changed.becomes).symm.cons mnode

include h in
theorem calcExcess_eq (hthr : minSwarmSize <= threshold) :
    calcExcess before = calcExcess after + 1 := by
  have hlen := h.length_succ
  have hrich := h.rich
  unfold calcExcess
  rw [total_perm _ h.changed.was, total_perm _ h.changed.becomes, total_cons, total_cons]
  change h.group.mnodes.length - minSwarmSize + _ = h.mnodes.length - minSwarmSize + _ + 1
  omega

include h in
theorem not_starving (hthr : minSwarmSize <= threshold)
    (hfed : forall g, g ∈ before.items -> minSwarmSize <= g.mnodes.length) :
    forall g, g ∈ after.items -> minSwarmSize <= g.mnodes.length := by
  have hlen := h.length_succ
  have hrich := h.rich
  refine h.changed.forall_group hfed ?_
  change minSwarmSize <= h.mnodes.length
  omega

include h in
theorem mem_of_le {g : Group} (hg : g ∈ before.items) (hle : g.mnodes.length <= threshold) :
    g ∈ after.items := by
  refine h.changed.mem_of_ne hg ?_
  rintro rfl
  exact not_lt.mpr hle h.rich

end Taken

theorem nodup_mnodes (hnodup : (allMnodes m).Nodup) (hgroup : group ∈ m.items) :
    group.mnodes.Nodup :=
  (nodup_flatMap.mp hnodup).1 group hgroup

theorem mem_getExcessPool {threshold : Nat} (hthr : minSwarmSize <= threshold)
    {mnode : ExcessPoolMnode} :
    mnode ∈ (getExcessPool threshold m).1 <-> exists group, group ∈ m.items ∧
      threshold < group.mnodes.length ∧ mnode.publicKey ∈ group.mnodes ∧
      mnode.swarmId = group.swarmId := by
  unfold getExcessPool
  rw [if_neg (not_lt.mpr hthr)]
  simp only [mem_flatMap, mem_filter, mem_map, decide_eq_true_eq]
  constructor
  · rintro ⟨group, ⟨hgroup, hrich⟩, key, hkey, rfl⟩
    exact ⟨group, hgroup, hrich, hkey, rfl⟩
  · rintro ⟨group, hgroup, hrich, hkey, hid⟩
    refine ⟨group, ⟨hgroup, hrich⟩, mnode.publicKey, hkey, ?_⟩
    cases mnode
    cases hid
    rfl

theorem take_from_pool (env : SwarmEnv σ) {threshold : Nat} (hthr : minSwarmSize <= threshold)
    {state : SwarmState σ} (hnodup : (allMnodes state.swarmToMnodes).Nodup)
    (hpool : (getExcessPool threshold state.swarmToMnodes).1 ≠ []) :
    exists mnode mt after,
      pickFromExcessPool env (getExcessPool threshold state.swarmToMnodes).1 state.mt =
        some (mnode, mt) ∧ removeExcessMnodeFromSwarm mnode state.swarmToMnodes = some after ∧
      Nonempty (Taken threshold state.swarmToMnodes after mnode.publicKey) := by
  generalize hpool' : (getExcessPool threshold state.swarmToMnodes).1 = pool at hpool ⊢
  have hidx := env.uniform_lt state.mt pool.length (length_pos_of_ne_nil hpool)
  let idx := (env.uniformDistributionPortable state.mt pool.length).1
  have hget : pool[idx]? = some pool[idx] := getElem?_eq_getElem hidx
  have hmem : pool[idx] ∈ (getExcessPool threshold state.swarmToMnodes).1 := by
    rw [hpool']
    exact getElem_mem hidx
  rcases (mem_getExcessPool hthr).mp hmem with ⟨group, hgroup, hrich, hkey, hid⟩
  rcases changeAt_eq hgroup
      (fun mnodes => mnodes.filter fun mnode => mnode != pool[idx].publicKey) with
    ⟨after, others, hafter, hchg⟩
  refine ⟨pool[idx], (env.uniformDistributionPortable state.mt pool.length).2, after, ?_, ?_, ?_⟩
  · change (pool[idx]?).map _ = _
    rw [hget]
    rfl
  · unfold removeExcessMnodeFromSwarm
    rw [hid]
    exact hafter
  · have hperm := perm_cons_erase hkey
    rw [(nodup_mnodes hnodup hgroup).erase_eq_filter] at hperm
    exact ⟨⟨group, _, others, hchg, hperm, hrich⟩⟩

/-! ## A swarm is dissolved -/

theorem decommissioned?_eq_some (h : decommissioned? m = some group) :
    1 < m.items.length ∧ group ∈ m.items ∧ group.mnodes.length < minSwarmSize := by
  unfold decommissioned? at h
  split at h
  next hmany =>
    have hstarves : isStarving group = true := find?_some h
    exact ⟨hmany, mem_of_find?_eq_some h, of_decide_eq_true hstarves⟩
  · cases h

end Beldex.Swarm
