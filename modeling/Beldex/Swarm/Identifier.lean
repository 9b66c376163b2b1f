import Beldex.Swarm.Assignment
import Mathlib.Data.List.Chain

/-!
# Fresh swarm identifiers

The identifier of a new swarm is the middle of the widest gap between two
neighbours on the ring of identifiers.  As long as not all identifiers are taken
the middle of that gap is free.
-/

namespace Beldex.Swarm

open Basic List UInt64

/-! ## The widest gap -/

/-- The widest gap between neighbours, with the identifier to its left. -/
def widestGap : UInt64 × UInt64 -> List UInt64 -> UInt64 × UInt64
  | best, a :: b :: rest =>
    widestGap (if best.1 < b - a then (b - a, a) else best) (b :: rest)
  | best, _ => best

/-- The middle of the widest gap on the ring. -/
def widestMiddle (swarmToMnodes : SwarmMnodeMap) : UInt64 :=
  match swarmToMnodes.items.map Group.swarmId with
  | [] => 0
  | front :: rest =>
    let back := (front :: rest).getLastD front
    let inner := widestGap (0, front) (front :: rest)
    -- Around the end of the range zero follows the greatest identifier.
    let dist := maxId - back + front + 1
    let best := if inner.1 < dist then (dist, back) else inner
    let diff := best.1 / 2
    let toMax := maxId - best.2
    if toMax < diff then diff - toMax - 1 else best.2 + diff

structure GapFound (ids : List UInt64) (best result : UInt64 × UInt64) : Prop where
  grows : best.1.toNat <= result.1.toNat
  widest : ids.IsChain fun a b => b.toNat - a.toNat <= result.1.toNat
  covers : forall front back, ids.head? = some front -> ids.getLast? = some back ->
    back.toNat <= front.toNat + (ids.length - 1) * result.1.toNat
  attained : result = best ∨ exists front next rest, ids = front ++ result.2 :: next :: rest ∧
      next.toNat = result.2.toNat + result.1.toNat

variable {ids : List UInt64}

theorem widestGap_found (best : UInt64 × UInt64)
    (hsort : ids.Pairwise fun a b => a.toNat < b.toNat) :
    GapFound ids best (widestGap best ids) := by
  induction ids generalizing best with
  | nil =>
    refine ⟨le_refl _, .nil, ?_, Or.inl rfl⟩
    intro front back hfront
    cases hfront
  | cons a tail ih =>
    cases tail with
    | nil =>
      refine ⟨le_refl _, .singleton a, ?_, Or.inl rfl⟩
      intro front back hfront hback
      cases hfront
      cases hback
      exact Nat.le_add_right _ _
    | cons b rest =>
      rw [pairwise_cons] at hsort
      have hlt : a.toNat < b.toNat := hsort.1 b mem_cons_self
      have hgap : (b - a).toNat = b.toNat - a.toNat :=
        UInt64.toNat_sub_of_le _ _ (UInt64.le_iff_toNat_le.mpr (le_of_lt hlt))
      have hrest := ih (if best.1 < b - a then (b - a, a) else best) hsort.2
      change GapFound (a :: b :: rest) best
        (widestGap (if best.1 < b - a then (b - a, a) else best) (b :: rest))
      generalize widestGap (if best.1 < b - a then (b - a, a) else best) (b :: rest) =
        result at hrest ⊢
      have hstep : best.1.toNat <= result.1.toNat ∧ b.toNat - a.toNat <= result.1.toNat := by
        have hgrows := hrest.grows
        split at hgrows
        next hbest =>
          have := lt_iff_toNat_lt.mp hbest
          simp only at hgrows
          omega
        next hbest =>
          have := UInt64.le_iff_toNat_le.mp (UInt64.not_lt.mp hbest)
          omega
      constructor
      · exact hstep.1
      · exact .cons_cons hstep.2 hrest.widest
      · intro front back hfront hback
        cases hfront
        rw [getLast?_cons_cons] at hback
        have hcovers := hrest.covers b back rfl hback
        simp only [length_cons, Nat.add_sub_cancel] at hcovers ⊢
        rw [Nat.add_mul, Nat.one_mul]
        omega
      · rcases hrest.attained with hsame | ⟨front, next, last, hids, hnext⟩
        · by_cases hbest : best.1 < b - a
          · right
            rw [if_pos hbest] at hsame
            refine ⟨[], b, rest, ?_, ?_⟩
            · rw [hsame]
              rfl
            · rw [hsame]
              simp only
              omega
          · left
            rw [if_neg hbest] at hsame
            exact hsame
        · right
          refine ⟨a :: front, next, last, ?_, hnext⟩
          rw [hids]
          rfl

/-! ## The ring of identifiers -/

theorem maxId_toNat : maxId.toNat = 2 ^ 64 - 2 := by decide

theorem toNat_le_maxId {id : UInt64} (h : id ≠ unassignedSwarmId) : id.toNat <= maxId.toNat := by
  have hlt := id.toNat_lt
  have hne : id.toNat ≠ 2 ^ 64 - 1 := by
    intro heq
    refine h (UInt64.toNat_inj.mp ?_)
    rw [heq]
    decide
  rw [maxId_toNat]
  omega

/-- The way along the ring from one identifier to another, or once around to itself. -/
def ringDistance (a b : UInt64) : Nat :=
  if a.toNat < b.toNat then b.toNat - a.toNat else maxId.toNat + 1 - a.toNat + b.toNat

def Neighbours (ids : List UInt64) (a b : UInt64) : Prop :=
  (exists before after, ids = before ++ a :: b :: after) ∨
    ids.getLast? = some a ∧ ids.head? = some b

/-- An identifier halves a widest gap, and its predecessor is where that gap begins. -/
structure Halves (ids : List UInt64) (left right id : UInt64) : Prop where
  neighbours : Neighbours ids left right
  widest : forall a b, Neighbours ids a b -> ringDistance a b <= ringDistance left right
  inRange : id.toNat <= maxId.toNat
  fresh : id ∉ ids
  nearest : forall other, other ∈ ids -> ringDistance left id <= ringDistance other id
  half : ringDistance left id = ringDistance left right / 2

theorem ringDistance_le {a b c : UInt64} (ha : a.toNat <= maxId.toNat)
    (hb : b.toNat <= maxId.toNat) (h : ringDistance a c <= ringDistance a b) :
    ringDistance a c <= ringDistance b c := by
  unfold ringDistance at *
  split_ifs at * <;> omega

theorem Neighbours.mem {a b : UInt64} (h : Neighbours ids a b) : a ∈ ids ∧ b ∈ ids := by
  rcases h with ⟨before, after, rfl⟩ | ⟨hback, hfront⟩
  · simp
  · exact ⟨mem_of_getLast? hback, mem_of_head? hfront⟩

section Ring

variable (hsort : ids.Pairwise fun a b => a.toNat < b.toNat) {left right : UInt64}
include hsort

theorem le_of_mem_of_head? {front x : UInt64} (hfront : ids.head? = some front) (hx : x ∈ ids) :
    front.toNat <= x.toNat := by
  rcases head?_eq_some_iff.mp hfront with ⟨rest, rfl⟩
  rcases mem_cons.mp hx with rfl | hx
  · exact le_refl _
  · exact le_of_lt ((pairwise_cons.mp hsort).1 x hx)

theorem le_of_mem_of_getLast? {back x : UInt64} (hback : ids.getLast? = some back)
    (hx : x ∈ ids) : x.toNat <= back.toNat := by
  rcases getLast?_eq_some_iff.mp hback with ⟨front, rfl⟩
  rw [pairwise_append] at hsort
  rcases mem_append.mp hx with hx | hx
  · exact le_of_lt (hsort.2.2 x hx back (mem_singleton.mpr rfl))
  · rw [mem_singleton.mp hx]

theorem ringDistance_le_of_isChain {gap : Nat}
    (hchain : ids.IsChain fun a b => b.toNat - a.toNat <= gap)
    (hwrap : forall a b, ids.getLast? = some a -> ids.head? = some b -> ringDistance a b <= gap)
    (h : Neighbours ids left right) : ringDistance left right <= gap := by
  rcases h with ⟨before, after, hids⟩ | ⟨hback, hfront⟩
  · have hlt := isChain_iff_forall_rel_of_append_cons_cons.mp hsort.isChain hids
    unfold ringDistance
    rw [if_pos hlt]
    exact isChain_iff_forall_rel_of_append_cons_cons.mp hchain hids
  · exact hwrap left right hback hfront

variable (hle : forall id, id ∈ ids -> id.toNat <= maxId.toNat) (h : Neighbours ids left right)
include hle h

theorem Neighbours.closest {other : UInt64} (hmem : other ∈ ids) (hne : other ≠ left) :
    ringDistance left right <= ringDistance left other := by
  have hother := hle other hmem
  have hne : other.toNat ≠ left.toNat := fun heq => hne (UInt64.toNat_inj.mp heq)
  rcases h with ⟨before, after, hids⟩ | ⟨hback, hfront⟩
  · have hright := hle right (by rw [hids]; simp)
    have hsides : left.toNat < right.toNat ∧
        (other.toNat < left.toNat ∨ right.toNat <= other.toNat) := by
      rw [hids] at hsort hmem
      simp only [pairwise_append, pairwise_cons, mem_cons] at hsort
      rcases hsort with ⟨_, ⟨hleft, hafter, _⟩, hbefore⟩
      refine ⟨hleft right (Or.inl rfl), ?_⟩
      simp only [mem_append, mem_cons] at hmem
      rcases hmem with hmem | rfl | rfl | hmem
      · exact Or.inl (hbefore other hmem left (Or.inl rfl))
      · exact absurd rfl hne
      · exact Or.inr (le_refl _)
      · exact Or.inr (le_of_lt (hafter other hmem))
    unfold ringDistance
    split <;> split <;> omega
  · have hfirst := le_of_mem_of_head? hsort hfront hmem
    have hlast := le_of_mem_of_getLast? hsort hback hmem
    unfold ringDistance
    split <;> split <;> omega

theorem Neighbours.halves {id : UInt64}
    (hwidest : forall a b, Neighbours ids a b -> ringDistance a b <= ringDistance left right)
    (hgap : 2 <= ringDistance left right) (hid : id.toNat <= maxId.toNat)
    (hhalf : ringDistance left id = ringDistance left right / 2) : Halves ids left right id := by
  have hleft := hle left h.mem.1
  refine ⟨h, hwidest, hid, ?_, ?_, hhalf⟩
  · intro hmem
    by_cases hsame : id = left
    · rw [hsame] at hhalf
      have hright := hle right h.mem.2
      unfold ringDistance at hhalf
      split_ifs at hhalf <;> omega
    · have := h.closest hsort hle hmem hsame
      omega
  · intro other hmem
    by_cases hsame : other = left
    · rw [hsame]
    · have hcloser := h.closest hsort hle hmem hsame
      exact ringDistance_le hleft (hle other hmem) (by omega)

end Ring

/-! ## The new identifier -/

def middle (gap left : UInt64) : UInt64 :=
  if maxId - left < gap / 2 then gap / 2 - (maxId - left) - 1 else left + gap / 2

theorem middle_spec {gap left : UInt64} (hleft : left.toNat <= maxId.toNat)
    (hgap : 2 <= gap.toNat) : (middle gap left).toNat <= maxId.toNat ∧
      ringDistance left (middle gap left) = gap.toNat / 2 := by
  have hmax := maxId_toNat
  have hlt := gap.toNat_lt
  have hroom := UInt64.toNat_sub_of_le _ _ (UInt64.le_iff_toNat_le.mpr hleft)
  have hhalf : (gap / 2).toNat = gap.toNat / 2 := UInt64.toNat_div _ _
  unfold middle ringDistance
  split
  next hpast =>
    have hlt := lt_iff_toNat_lt.mp hpast
    have hsub := UInt64.toNat_sub_of_le _ _ (UInt64.le_iff_toNat_le.mpr (le_of_lt hlt))
    have hvalue := UInt64.toNat_sub_of_le (gap / 2 - (maxId - left)) 1
      (UInt64.le_iff_toNat_le.mpr (by rw [hsub]; exact Nat.sub_pos_of_lt hlt))
    rw [UInt64.toNat_one] at hvalue
    rw [if_neg (by omega)]
    omega
  next hfits =>
    have hge := UInt64.le_iff_toNat_le.mp (UInt64.not_lt.mp hfits)
    have hvalue : (left + gap / 2).toNat = left.toNat + gap.toNat / 2 := by
      rw [UInt64.toNat_add, hhalf]
      exact Nat.mod_eq_of_lt (by omega)
    rw [hvalue, if_pos (by omega)]
    omega

/-- The widest gap of all, around the end of the range included. -/
def bestGap (front back : UInt64) (ids : List UInt64) : UInt64 × UInt64 :=
  if (widestGap (0, front) ids).1 < maxId - back + front + 1 then (maxId - back + front + 1, back)
  else widestGap (0, front) ids

variable {front back : UInt64}

theorem wrapGap_toNat (hback : back.toNat <= maxId.toNat)
    (horder : front.toNat <= back.toNat) :
    (maxId - back + front + 1).toNat = maxId.toNat - back.toNat + front.toNat + 1 := by
  have hmax := maxId_toNat
  have hroom : (maxId - back).toNat = maxId.toNat - back.toNat :=
    UInt64.toNat_sub_of_le _ _ (UInt64.le_iff_toNat_le.mpr hback)
  have hone : (1 : UInt64).toNat = 1 := rfl
  have hsum : (maxId - back + front).toNat = maxId.toNat - back.toNat + front.toNat := by
    rw [UInt64.toNat_add, hroom]
    exact Nat.mod_eq_of_lt (by omega)
  rw [UInt64.toNat_add, hsum, hone]
  exact Nat.mod_eq_of_lt (by omega)

theorem bestGap_halves
    (hsort : ids.Pairwise fun a b => a.toNat < b.toNat)
    (hle : forall id, id ∈ ids -> id.toNat <= maxId.toNat) (hfront : ids.head? = some front)
    (hback : ids.getLast? = some back) (hcount : ids.length < 2 ^ 64 - 1) :
    exists right, Halves ids (bestGap front back ids).2 right
      (middle (bestGap front back ids).1 (bestGap front back ids).2) := by
  have hmax := maxId_toNat
  have hfound := widestGap_found (0, front) hsort
  have hbackLe := hle back (mem_of_getLast? hback)
  have horder := le_of_mem_of_getLast? hsort hback (mem_of_head? hfront)
  have hdist := wrapGap_toNat hbackLe horder
  have hcovers := hfound.covers front back hfront hback
  have haround : ringDistance back front = (maxId - back + front + 1).toNat := by
    unfold ringDistance
    rw [if_neg (by omega), hdist]
    omega
  unfold bestGap
  generalize widestGap (0, front) ids = inner at hfound hcovers ⊢
  generalize maxId - back + front + 1 = dist at hdist haround ⊢
  have hbest : exists best right, (if inner.1 < dist then (dist, back) else inner) = best ∧
      Neighbours ids best.2 right ∧ ringDistance best.2 right = best.1.toNat ∧
      inner.1.toNat <= best.1.toNat ∧ dist.toNat <= best.1.toNat := by
    split
    next hwrap =>
      have hlt := lt_iff_toNat_lt.mp hwrap
      exact ⟨_, front, rfl, Or.inr ⟨hback, hfront⟩, haround, le_of_lt hlt, le_refl _⟩
    next hwrap =>
      have hge := UInt64.le_iff_toNat_le.mp (UInt64.not_lt.mp hwrap)
      rcases hfound.attained with hsame | ⟨before, next, last, hids, hnext⟩
      · rw [hsame, UInt64.toNat_zero] at hge
        omega
      · refine ⟨inner, next, rfl, Or.inl ⟨before, last, hids⟩, ?_, le_refl _, hge⟩
        unfold ringDistance
        rw [if_pos (by omega)]
        omega
  rcases hbest with ⟨best, right, heq, hneighbours, hgap, hinner, hwrap⟩
  rw [heq]
  -- With gaps of one only, every identifier is taken.
  have hwide : 2 <= best.1.toNat := by
    by_contra hnarrow
    have hone : inner.1.toNat <= 1 := by omega
    have hsum := Nat.mul_le_mul_left (ids.length - 1) hone
    omega
  have hmiddle := middle_spec (hle best.2 hneighbours.mem.1) hwide
  rw [<- hgap] at hwide hmiddle hinner hwrap
  refine ⟨right, hneighbours.halves hsort hle ?_ hwide hmiddle.1 hmiddle.2⟩
  intro a b h
  refine ringDistance_le_of_isChain hsort (hfound.widest.imp fun _ _ h => h.trans hinner) ?_ h
  intro a b ha hb
  cases hfront.symm.trans hb
  cases hback.symm.trans ha
  exact haround.trans_le hwrap

section Assigned

variable (m : SwarmMnodeMap)

theorem ids_sorted : (m.items.map Group.swarmId).Pairwise fun a b => a.toNat < b.toNat :=
  pairwise_map.mpr m.sorted

theorem ids_nodup : (m.items.map Group.swarmId).Nodup :=
  (ids_sorted m).imp fun hlt heq => absurd (congrArg _ heq) (ne_of_lt hlt)

variable {m}

theorem widestMiddle_eq
    (hfront : (m.items.map Group.swarmId).head? = some front)
    (hback : (m.items.map Group.swarmId).getLast? = some back) :
    widestMiddle m = middle (bestGap front back (m.items.map Group.swarmId)).1
      (bestGap front back (m.items.map Group.swarmId)).2 := by
  unfold widestMiddle
  cases hids : m.items.map Group.swarmId with
  | nil =>
    rw [hids] at hfront
    cases hfront
  | cons first rest =>
    rw [hids] at hfront hback
    cases hfront
    have hlast : (front :: rest).getLastD front = back := by
      rw [getLastD_eq_getLast?, hback]
      rfl
    simp only [hlast]
    rfl

variable (hassigned : forall group, group ∈ m.items -> group.swarmId ≠ unassignedSwarmId)
  (hcount : m.items.length < 2 ^ 64 - 1)
include hassigned

theorem ids_le (id : UInt64) (hid : id ∈ m.items.map Group.swarmId) : id.toNat <= maxId.toNat := by
  rcases mem_map.mp hid with ⟨group, hgroup, rfl⟩
  exact toNat_le_maxId (hassigned group hgroup)

include hcount

theorem widestMiddle_halves (hne : m.items.map Group.swarmId ≠ []) :
    exists left right, Halves (m.items.map Group.swarmId) left right (widestMiddle m) := by
  have hfront := head?_eq_some_head hne
  have hback := getLast?_eq_some_getLast hne
  rw [widestMiddle_eq hfront hback]
  exact ⟨_, bestGap_halves (ids_sorted _) (ids_le hassigned) hfront hback (by rwa [length_map])⟩

theorem widestMiddle_fresh :
    widestMiddle m ≠ unassignedSwarmId ∧ widestMiddle m ∉ m.items.map Group.swarmId := by
  by_cases hne : m.items.map Group.swarmId = []
  · unfold widestMiddle
    rw [hne]
    exact ⟨by decide, not_mem_nil⟩
  · rcases widestMiddle_halves hassigned hcount hne with ⟨left, right, hhalves⟩
    refine ⟨?_, hhalves.fresh⟩
    intro heq
    have hrange := hhalves.inRange
    rw [heq, maxId_toNat] at hrange
    exact absurd hrange (by decide)

end Assigned

end Beldex.Swarm
