import Beldex.Staking.Accounting
import Beldex.Staking.Registration

/-!
# Contribution spots

A master node takes a bounded number of contributions.  A spot is used when a
contribution is locked in it or when it is reserved for a contributor who has not
paid yet.  As long as one spot is free the last contributor can pay whatever is
missing; when the last spot goes away the reservations must already add up to
the staking requirement, or the node can never be funded.
-/

namespace Beldex.Staking

open Basic Coinbase Foundation.Fallible Foundation.Sums List UInt64

variable {P : Type}

/-! ## Spots -/

def openReservations (contributors : List Contributor) : Nat :=
  total (fun c => if c.amount < c.reserved then 1 else 0) contributors

def MasterNodeInfo.usedSpots (info : MasterNodeInfo) : Nat :=
  info.totalNumLockedContributions + openReservations info.contributors

def MasterNodeInfo.isStranded (info : MasterNodeInfo) : Prop :=
  info.usedSpots = maxNumberOfContributors ∧ info.totalReserved < info.stakingRequirement

/-- The last spot is given away only when the reservations cover the requirement. -/
structure SpotsKept (info : MasterNodeInfo) : Prop where
  accounted : StakeAccounted info
  distinct : (info.contributors.map Contributor.address).Nodup
  used_le : info.usedSpots <= maxNumberOfContributors
  covered : info.usedSpots = maxNumberOfContributors -> info.totalReserved = info.stakingRequirement

variable {info : MasterNodeInfo}

theorem SpotsKept.not_isStranded (h : SpotsKept info) : ¬ info.isStranded := by
  rintro ⟨hused, hlt⟩
  rw [h.covered hused] at hlt
  exact UInt64.lt_irrefl _ hlt

theorem SpotsKept.isFullyFunded (h : SpotsKept info)
    (hlocked : info.totalNumLockedContributions = maxNumberOfContributors) :
    info.isFullyFunded = true := by
  have hused := h.used_le
  have hopen : openReservations info.contributors = 0 := by
    unfold MasterNodeInfo.usedSpots at hused
    omega
  have hfilled : forall c, c ∈ info.contributors -> c.reserved.toNat <= c.amount.toNat := by
    intro c hc
    have hzero := (total_eq_zero_iff _ _).mp hopen c hc
    split at hzero
    · cases hzero
    next hlt =>
      exact UInt64.le_iff_toNat_le.mp (UInt64.not_lt.mp hlt)
  have hcovered := h.covered (by unfold MasterNodeInfo.usedSpots; omega)
  unfold MasterNodeInfo.isFullyFunded
  rw [decide_eq_true_iff, <- hcovered, UInt64.le_iff_toNat_le, h.accounted.reserved,
    h.accounted.contributed]
  exact total_le_total _ _ hfilled

/-! ## What the scan counts -/

variable {address : AccountPublicAddress} {rest : List Contributor}

theorem scanFrom_of_ne (h : forall c, c ∈ rest -> c.address ≠ address) (scan : ContributorScan)
    (i : Nat) :
    scanFrom address scan i rest =
      { scan with otherReservations := scan.otherReservations + openReservations rest } := by
  induction rest generalizing scan i with
  | nil => rfl
  | cons c rest ih =>
    have hc : c.address ≠ address := h c mem_cons_self
    have hstep : scanContributor address scan i c =
        { scan with
          otherReservations := scan.otherReservations +
            if c.amount < c.reserved then 1 else 0 } := by
      unfold scanContributor
      rw [if_neg hc]
      split
      · rfl
      · rfl
    unfold scanFrom openReservations
    rw [ih (fun d hd => h d (mem_cons_of_mem c hd)), hstep, total_cons]
    simp only [openReservations, add_assoc]

theorem scanFrom_append (address : AccountPublicAddress) (scan : ContributorScan) (i : Nat)
    (front rest : List Contributor) :
    scanFrom address scan i (front ++ rest) =
      scanFrom address (scanFrom address scan i front) (i + front.length) rest := by
  induction front generalizing scan i with
  | nil => rfl
  | cons c front ih =>
    change scanFrom address (scanContributor address scan i c) (i + 1) (front ++ rest) = _
    rw [ih, length_cons, add_assoc, add_comm 1]
    rfl

/-! ## One contribution -/

structure Scanned (info : MasterNodeInfo) (scan : ContributorScan)
    (contributors : List Contributor) (position : Nat) (c : Contributor) : Prop where
  record : forall fresh, contributors.getD position fresh = c
  position_lt : position < contributors.length
  open_eq : openReservations info.contributors =
    scan.otherReservations + if c.amount < c.reserved then 1 else 0
  others_eq : openReservations contributors = openReservations info.contributors
  locked_eq : total (fun c => c.lockedContributions.length) contributors =
    info.totalNumLockedContributions
  unfilled_eq : scan.contrUnfilledReserved =
    if c.amount < c.reserved then c.reserved - c.amount else 0
  distinct : (contributors.map Contributor.address).Nodup

theorem scanned_openContributor (hdist : (info.contributors.map Contributor.address).Nodup)
    (address : AccountPublicAddress) :
    exists c, Scanned info (scanContributors address info.contributors)
        (openContributor (scanContributors address info.contributors) address info.contributors).1
        (openContributor (scanContributors address info.contributors) address
          info.contributors).2 c := by
  by_cases hknown : exists c, c ∈ info.contributors ∧ c.address = address
  · rcases hknown with ⟨c, hc, rfl⟩
    rcases append_of_mem hc with ⟨front, rest, hsplit⟩
    rw [hsplit, map_append, map_cons, nodup_append] at hdist
    rcases hdist with ⟨hfrontNodup, hrestNodup, hcross⟩
    have hfront : forall d, d ∈ front -> d.address ≠ c.address := fun d hd =>
      hcross _ (mem_map_of_mem hd) _ mem_cons_self
    have hrest : forall d, d ∈ rest -> d.address ≠ c.address := by
      intro d hd heq
      exact (nodup_cons.mp hrestNodup).1 (heq ▸ mem_map_of_mem hd)
    rw [hsplit]
    unfold scanContributors
    rw [scanFrom_append, scanFrom_of_ne hfront]
    unfold scanFrom
    rw [scanFrom_of_ne hrest]
    unfold scanContributor
    rw [if_pos rfl, zero_add, Nat.zero_add]
    refine ⟨c, ?_⟩
    constructor
    · intro fresh
      simp [openContributor]
    · simp [openContributor]
    · rw [hsplit]
      unfold openReservations
      rw [total_append, total_cons]
      simp only
      omega
    · rw [hsplit]
      rfl
    · unfold MasterNodeInfo.totalNumLockedContributions
      rw [hsplit]
      rfl
    · rfl
    · change ((front ++ c :: rest).map Contributor.address).Nodup
      rw [map_append, map_cons, nodup_append]
      exact ⟨hfrontNodup, hrestNodup, hcross⟩
  · have hnew : forall c, c ∈ info.contributors -> c.address ≠ address := by
      intro c hc heq
      exact hknown ⟨c, hc, heq⟩
    have hscan : scanContributors address info.contributors =
        { otherReservations := openReservations info.contributors } := by
      simp [scanContributors, scanFrom_of_ne hnew]
    rw [hscan]
    refine ⟨{ address := address }, ?_⟩
    constructor
    · intro fresh
      simp [openContributor]
    · simp [openContributor]
    · simp
    · simp [openContributor, openReservations, total_append]
    · simp [openContributor, MasterNodeInfo.totalNumLockedContributions, total]
    · simp
    · change ((info.contributors ++ [({ address := address } : Contributor)]).map
        Contributor.address).Nodup
      rw [map_append, map_singleton, nodup_append_comm]
      refine nodup_cons.mpr ⟨?_, hdist⟩
      intro hmem
      rcases mem_map.mp hmem with ⟨c, hc, heq⟩
      exact hnew c hc heq

structure SpotChecked (info : MasterNodeInfo) (scan : ContributorScan)
    (stake : StakingComponents) : Prop where
  single : stake.lockedContributions.length = 1
  free : info.totalNumLockedContributions + scan.otherReservations + 1 <= maxNumberOfContributors
  fills : 0 < scan.contrUnfilledReserved -> scan.contrUnfilledReserved <= stake.transferred
  /-- Into the last free spot everything that is missing must be paid. -/
  completes : scan.contrUnfilledReserved = 0 ->
    info.totalNumLockedContributions + scan.otherReservations + 1 = maxNumberOfContributors ->
    info.stakingRequirement - info.totalReserved <= stake.transferred

variable {hf : Hf}

theorem Hf.not_lt_of_le_pos {old : Hf} (hfork : Hf.hf17POS <= hf) (hold : old <= Hf.hf17POS) :
    ¬ hf < old := by
  intro hlt
  exact (Hf.lt_iff_not_le _ _).mp hlt (Hf.le_trans hold hfork)

theorem getMinNodeContribution_last (hfork : Hf.hf17POS <= hf)
    (stakingRequirement totalReserved : UInt64) {numContributions : Nat}
    (h : numContributions + 1 = maxNumberOfContributors) :
    getMinNodeContribution hf stakingRequirement totalReserved numContributions =
      stakingRequirement - totalReserved := by
  have hleft : maxNumberOfContributors - numContributions = 1 := by omega
  unfold getMinNodeContribution
  rw [if_neg (Hf.not_lt_of_le_pos hfork (by decide)), if_neg (by omega), hleft]
  exact UInt64.div_one

variable {extra : StakingExtra}

theorem spotChecked_of_validateContribution {stake : StakingComponents}
    {scan : ContributorScan} (hfork : Hf.hf17POS <= hf)
    (h : validateContribution hf extra info stake = .ok scan) : SpotChecked info scan stake := by
  have hscan := validateContribution_eq_ok h
  unfold validateContribution at h
  simp only [rejectIf_bind_ok] at h
  rcases h with ⟨_, _, hsingle, hmany, hmin, _, _⟩
  rw [<- hscan] at hmany hmin
  unfold minContribution at hmin
  rw [if_neg fun h => Hf.not_lt_of_le_pos hfork (by decide) h.2,
    if_neg (Hf.not_lt_of_le_pos hfork (Nat.le_refl _)), decide_eq_false_iff_not,
    UInt64.not_lt] at hmin
  unfold tooManyContributions at hmany
  rw [if_pos hfork, decide_eq_false_iff_not] at hmany
  constructor
  · simpa [hfork] using hsingle
  · omega
  · intro hpos
    rwa [if_pos hpos] at hmin
  · intro hzero hlast
    rw [if_neg (by rw [hzero]; exact UInt64.lt_irrefl 0),
      getMinNodeContribution_last hfork _ _ hlast] at hmin
    exact hmin

theorem creditedAmount_toNat (h : StakeAccounted info)
    {contributors : List Contributor} {position : Nat} (hopen : Opened info contributors position)
    {c : Contributor} (hc : c ∈ contributors) (transferred : UInt64) :
    (creditedAmount info c transferred).toNat = min transferred.toNat
        (c.reserved.toNat + (info.stakingRequirement.toNat - info.totalReserved.toNat) -
          c.amount.toNat) := by
  have hroom : (maxAmount info c - c.amount).toNat =
      c.reserved.toNat + (info.stakingRequirement.toNat - info.totalReserved.toNat) -
        c.amount.toNat := by
    rw [UInt64.toNat_sub_of_le _ _ (amount_le_maxAmount h hopen hc), maxAmount_toNat h hopen hc]
  rw [<- hroom]
  unfold creditedAmount
  by_cases hlt : transferred < maxAmount info c - c.amount
  · have hnat := lt_iff_toNat_lt.mp hlt
    rw [if_pos hlt]
    omega
  · have hnat := UInt64.le_iff_toNat_le.mp (UInt64.not_lt.mp hlt)
    rw [if_neg hlt]
    omega

section Step

variable {info : MasterNodeInfo} {scan : ContributorScan} {contributors : List Contributor}
  {position : Nat} {c : Contributor} {stake : StakingComponents}

theorem Scanned.filled (hscan : Scanned info scan contributors position c)
    (hchk : SpotChecked info scan stake) (h : StakeAccounted info)
    (hopen : Opened info contributors position) (hc : c ∈ contributors) :
    c.reserved.toNat <= c.amount.toNat + (creditedAmount info c stake.transferred).toNat := by
  rw [creditedAmount_toNat h hopen hc]
  by_cases hlt : c.amount < c.reserved
  · have hnat := lt_iff_toNat_lt.mp hlt
    have hunfilled := hscan.unfilled_eq
    rw [if_pos hlt] at hunfilled
    have hvalue : scan.contrUnfilledReserved.toNat = c.reserved.toNat - c.amount.toNat := by
      rw [hunfilled, UInt64.toNat_sub_of_le _ _ (UInt64.le_of_lt hlt)]
    have hpos : 0 < scan.contrUnfilledReserved := by
      rw [lt_iff_toNat_lt, hvalue]
      exact Nat.sub_pos_of_lt hnat
    have hpaid := UInt64.le_iff_toNat_le.mp (hchk.fills hpos)
    omega
  · have hnat := UInt64.le_iff_toNat_le.mp (UInt64.not_lt.mp hlt)
    omega

theorem credit_reserved_eq (hf : Hf) {credited : UInt64} (locked : List Contribution)
    (h : c.reserved <= c.amount + credited) :
    (c.credit hf credited locked).reserved = (c.credit hf credited locked).amount := by
  change (if c.reserved < c.amount + credited then c.amount + credited else c.reserved) = _
  split
  · rfl
  next hle =>
    exact UInt64.le_antisymm h (UInt64.not_lt.mp hle)

theorem usedSpots_creditContribution {hf : Hf} (hfork : Hf.hf17POS <= hf) (blockHeight : UInt64)
    (index : UInt32) (hscan : Scanned info scan contributors position c)
    (hchk : SpotChecked info scan stake) (h : StakeAccounted info)
    (hopen : Opened info contributors position) :
    (creditContribution hf blockHeight index stake info contributors position).usedSpots =
      info.totalNumLockedContributions + scan.otherReservations + 1 := by
  have hrec := hscan.record { address := stake.address }
  have hc : c ∈ contributors := hrec ▸ hopen.record { address := stake.address }
  have hfilled := hscan.filled hchk h hopen hc
  rw [<- amount_add_toNat h hopen hc, <- UInt64.le_iff_toNat_le] at hfilled
  have hinfinite : Hf.hf11InfiniteStaking <= hf := Hf.le_trans (by decide) hfork
  have hlist : (creditContribution hf blockHeight index stake info contributors
      position).contributors = contributors.set position
        (c.credit hf (creditedAmount info c stake.transferred) stake.lockedContributions) := by
    rw [<- hrec]
    rfl
  have hresv := credit_reserved_eq hf stake.lockedContributions hfilled
  generalize hnext : c.credit hf (creditedAmount info c stake.transferred)
    stake.lockedContributions = next at hlist hresv
  have hopenSet := total_set (fun c => if c.amount < c.reserved then 1 else 0)
    hscan.position_lt next { address := stake.address }
  have hlockedSet := total_set (fun c => c.lockedContributions.length) hscan.position_lt next
    { address := stake.address }
  have hclosed : ¬ next.amount < next.reserved := by
    rw [hresv]
    exact UInt64.lt_irrefl _
  have hlocked : next.lockedContributions.length = c.lockedContributions.length + 1 := by
    rw [<- hnext]
    change (if _ then _ else _ : List Contribution).length = _
    rw [if_pos hinfinite, length_append, hchk.single]
  have hothers := hscan.others_eq
  have hopenEq := hscan.open_eq
  unfold openReservations at hothers hopenEq
  simp only [hrec, if_neg hclosed, hlocked] at hopenSet hlockedSet
  unfold MasterNodeInfo.usedSpots MasterNodeInfo.totalNumLockedContributions openReservations
  have hlockedEq := hscan.locked_eq
  rw [hlist]
  change total (fun c : Contributor => c.lockedContributions.length) _ + _ = _
  unfold MasterNodeInfo.totalNumLockedContributions at hlockedEq
  omega

theorem totalReserved_creditContribution (hf : Hf) (blockHeight : UInt64) (index : UInt32)
    (hscan : Scanned info scan contributors position c) (hchk : SpotChecked info scan stake)
    (h : SpotsKept info) (hopen : Opened info contributors position)
    (hlast : info.totalNumLockedContributions + scan.otherReservations + 1 =
      maxNumberOfContributors) :
    info.stakingRequirement.toNat <= (creditContribution hf blockHeight index stake info
      contributors position).totalReserved.toNat := by
  have hrec := hscan.record { address := stake.address }
  have hc : c ∈ contributors := hrec ▸ hopen.record { address := stake.address }
  have hresv := creditContribution_totalReserved h.accounted hopen hrec
    (rfl : creditContribution hf blockHeight index stake info contributors position = _)
  have hcredited := creditedAmount_toNat h.accounted hopen hc stake.transferred
  have hadd := amount_add_toNat h.accounted hopen hc stake.transferred
  have hopenEq := hscan.open_eq
  by_cases hlt : c.amount < c.reserved
  · -- The spot was reserved, so none was free before.
    rw [if_pos hlt] at hopenEq
    have hcovered := h.covered (by unfold MasterNodeInfo.usedSpots; omega)
    rw [<- hcovered]
    omega
  · have hunfilled := hscan.unfilled_eq
    rw [if_neg hlt] at hunfilled
    have hpaid := UInt64.le_iff_toNat_le.mp (hchk.completes hunfilled hlast)
    rw [UInt64.toNat_sub_of_le _ _ h.accounted.bounded] at hpaid
    have hnat := UInt64.le_iff_toNat_le.mp (UInt64.not_lt.mp hlt)
    omega

variable (hf) (blockHeight : UInt64) (index : UInt32) (stake)
  (hscan : Scanned info scan contributors position c)

include hscan

theorem addresses_creditContribution :
    (creditContribution hf blockHeight index stake info contributors
      position).contributors.map Contributor.address = contributors.map Contributor.address := by
  have hlt : position < (contributors.map Contributor.address).length := by
    rw [length_map]
    exact hscan.position_lt
  have haddr : (contributors.getD position { address := stake.address }).address =
      (contributors.map Contributor.address)[position] := by
    rw [getElem_map, getD_eq_getElem?_getD, getElem?_eq_getElem hscan.position_lt]
    rfl
  change (contributors.set position _).map Contributor.address = _
  rw [map_set]
  change (contributors.map Contributor.address).set position
    (contributors.getD position { address := stake.address }).address = _
  rw [haddr, set_getElem_self hlt]

end Step

theorem SpotsKept.applyContribution {info next : MasterNodeInfo} (h : SpotsKept info)
    (hfork : Hf.hf17POS <= hf) {blockHeight : UInt64} {index : UInt32} {stake : StakingComponents}
    (happly : applyContribution hf blockHeight index extra info stake = .ok next) :
    SpotsKept next := by
  have haccounted := h.accounted.applyContribution happly
  have hreq := applyContribution_stakingRequirement happly
  rcases applyContribution_eq_ok happly with ⟨scan, credited, hval, hcredited, rfl⟩
  have hchk := spotChecked_of_validateContribution hfork hval
  have hscanEq := validateContribution_eq_ok hval
  have hopen := opened_openContributor h.accounted stake.address
  rcases scanned_openContributor h.distinct stake.address with ⟨c, hscan⟩
  rw [<- hscanEq] at hopen hscan
  have hused := usedSpots_creditContribution hfork blockHeight index hscan hchk h.accounted hopen
  have hcovered := totalReserved_creditContribution hf blockHeight index hscan hchk h hopen
  have hdist := hscan.distinct
  rw [<- addresses_creditContribution hf stake blockHeight index hscan] at hdist
  rw [hcredited] at hused hcovered hdist
  have hactivate : (credited.activate blockHeight).usedSpots = credited.usedSpots ∧
      (credited.activate blockHeight).totalReserved = credited.totalReserved := by
    unfold MasterNodeInfo.activate
    split <;> exact ⟨rfl, rfl⟩
  rcases hactivate with ⟨husedEq, hresvEq⟩
  constructor
  · exact haccounted
  · rw [activate_contributors]
    exact hdist
  · rw [husedEq, hused]
    exact hchk.free
  · intro hfull
    rw [husedEq, hused] at hfull
    refine UInt64.le_antisymm haccounted.bounded ?_
    rw [hreq, UInt64.le_iff_toNat_le, hresvEq]
    exact hcovered hfull

end Beldex.Staking
