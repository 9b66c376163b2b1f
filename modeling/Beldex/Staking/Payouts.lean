import Beldex.Coinbase.MinerTx
import Beldex.Staking.Funding

/-!
# Payouts of a master node

The reward of a fully funded master node is split by the stakes of its
contributors, after the operator's cut.  Each portion is rounded down, and so is
each share of a reward; the first contributor takes what the rounding leaves.  With
the stakes accounted for, and the operator among the contributors, the portions
make up the whole but for less than one per contributor, and the shares make up
the reward exactly.
-/

namespace Beldex.Staking

open Basic Crypto
open Coinbase (AccountPublicAddress PayoutEntry Payout getPortionOfReward
  distributeRewardByPortions masterNodeInfoToPayout)
open Foundation Foundation.Sums List

variable {P : Type} (node : MasterNode)

def MasterNode.payoutInfo : Coinbase.MasterNodeInfo where
  contributors := node.contributors.map fun c => ⟨c.address, c.amount⟩
  operatorAddress := node.operatorAddress
  portionsForOperator := node.portionsForOperator
  stakingRequirement := node.stakingRequirement
  totalContributed := node.totalContributed
  activeSinceHeight := node.activeSinceHeight.toInt
  lastRewardBlockHeight := node.lastRewardBlockHeight
  lastRewardTransactionIndex := node.lastRewardTransactionIndex

structure PayoutReady (node : MasterNode) : Prop where
  accounted : StakeAccounted node.toMasterNodeInfo
  distinct : (node.contributors.map Contributor.address).Nodup
  operator : node.operatorAddress ∈ node.contributors.map Contributor.address
  requirement_pos : 0 < node.stakingRequirement.toNat
  portions_le : node.portionsForOperator.toNat <= stakingPortions

/-! ## Portions -/

def MasterNode.remainingPortions : Nat :=
  stakingPortions - node.portionsForOperator.toNat

def MasterNode.stakePortions (c : Contributor) : Nat :=
  node.remainingPortions * c.amount.toNat / node.stakingRequirement.toNat

def MasterNode.operatorCut (c : Contributor) : Nat :=
  if c.address = node.operatorAddress then node.portionsForOperator.toNat else 0

section

variable {node : MasterNode} {c : Contributor}

theorem PayoutReady.amount_le (h : PayoutReady node) (hc : c ∈ node.contributors) :
    c.amount.toNat <= node.stakingRequirement.toNat :=
  calc
    c.amount.toNat <= total (fun c => c.amount.toNat) node.contributors :=
      le_total_of_mem (fun c : Contributor => c.amount.toNat) hc
    _ = node.totalContributed.toNat := h.accounted.contributed.symm
    _ <= node.stakingRequirement.toNat := UInt64.le_iff_toNat_le.mp h.accounted.contributed_le

theorem PayoutReady.stakePortions_le (h : PayoutReady node) (hc : c ∈ node.contributors) :
    node.stakePortions c <= node.remainingPortions := by
  refine Nat.div_le_of_le_mul ?_
  rw [mul_comm node.stakingRequirement.toNat]
  exact Nat.mul_le_mul_left _ (h.amount_le hc)

theorem stakingPortions_lt : stakingPortions < 2 ^ 64 := by
  decide

theorem toNat_remaining (h : PayoutReady node) :
    (UInt64.ofNat stakingPortions - node.portionsForOperator).toNat = node.remainingPortions := by
  have hall := toNat_stakingPortions
  rw [UInt64.toNat_sub_of_le _ _ (UInt64.le_iff_toNat_le.mpr (hall ▸ h.portions_le)), hall]
  rfl

theorem PayoutReady.payouts_eq (h : PayoutReady node) (key : PublicKey) :
    (masterNodeInfoToPayout key node.payoutInfo).payouts.map (fun entry => entry.portions.toNat) =
      node.contributors.map fun c => node.stakePortions c + node.operatorCut c := by
  unfold masterNodeInfoToPayout MasterNode.payoutInfo
  rw [map_map, map_map]
  refine map_congr_left fun c hc => ?_
  have hle := h.stakePortions_le hc
  have hports := h.portions_le
  have hbound := stakingPortions_lt
  have hstake : (Common.mulDiv128 c.amount
      (UInt64.ofNat stakingPortions - node.portionsForOperator)
        node.stakingRequirement).toNat = node.stakePortions c := by
    rw [Common.mulDiv128_eq _ _ (UInt64.lt_iff_toNat_lt.mpr h.requirement_pos),
      toNat_remaining h, mul_comm, UInt64.toNat_ofNat']
    refine Nat.mod_eq_of_lt ?_
    unfold MasterNode.remainingPortions at hle
    change node.stakePortions c < _
    omega
  unfold MasterNode.remainingPortions at hle
  unfold MasterNode.operatorCut
  dsimp only [Function.comp_apply]
  split
  · rw [UInt64.toNat_add, hstake]
    refine Nat.mod_eq_of_lt ?_
    omega
  · rw [hstake]
    rfl

theorem PayoutReady.total_portions (h : PayoutReady node) (hfunded : node.isFullyFunded = true)
    (key : PublicKey) :
    total (fun entry => entry.portions.toNat)
        (masterNodeInfoToPayout key node.payoutInfo).payouts <= stakingPortions ∧
      stakingPortions <= total (fun entry => entry.portions.toNat)
        (masterNodeInfoToPayout key node.payoutInfo).payouts + node.contributors.length := by
  have hfull : total (fun c => c.amount.toNat) node.contributors =
      node.stakingRequirement.toNat := by
    rw [<- h.accounted.contributed, h.accounted.isFullyFunded_iff.mp hfunded]
  have hsplit : total (fun entry => entry.portions.toNat)
      (masterNodeInfoToPayout key node.payoutInfo).payouts =
        total node.stakePortions node.contributors + node.portionsForOperator.toNat := by
    have hcut := total_unique Contributor.address h.distinct h.operator
      node.portionsForOperator.toNat
    have hboth : total (fun entry => entry.portions.toNat)
        (masterNodeInfoToPayout key node.payoutInfo).payouts =
          total (fun c => node.stakePortions c + node.operatorCut c) node.contributors := by
      unfold total
      rw [h.payouts_eq key]
    rw [hboth, total_add]
    exact congrArg _ hcut
  have hmost := total_div_le (fun c : Contributor => c.amount.toNat) node.remainingPortions
    h.requirement_pos (le_of_eq hfull)
  have hleast := le_total_div_add_length (fun c : Contributor => c.amount.toNat)
    node.remainingPortions h.requirement_pos hfull
  have hports := h.portions_le
  rw [hsplit]
  change total node.stakePortions node.contributors <= node.remainingPortions at hmost
  change node.remainingPortions <= total node.stakePortions node.contributors + _ at hleast
  unfold MasterNode.remainingPortions at hmost hleast
  omega

end

/-! ## Shares of a reward -/

/-- The shares of a reward: nothing is paid twice or wrapped around, all of it is paid, and
nobody gets less than the portion rounded down. -/
structure PaysExactly (payouts : List PayoutEntry) (reward : UInt64) : Prop where
  paid_le : total (fun entry => (getPortionOfReward entry.portions reward).toNat) payouts <=
    reward.toNat
  paid_eq : (payouts.map fun entry => getPortionOfReward entry.portions reward).sum.toNat =
    total (fun entry => (getPortionOfReward entry.portions reward).toNat) payouts
  total_eq : total UInt64.toNat (distributeRewardByPortions payouts reward true) = reward.toNat
  floor_le : forall (i : Nat) entry share, payouts[i]? = some entry ->
    (distributeRewardByPortions payouts reward true)[i]? = some share ->
      reward.toNat * entry.portions.toNat / stakingPortions <= share.toNat

section

variable {payouts : List PayoutEntry} {reward : UInt64}

/-- What is left over goes to the first share. -/
theorem total_remainder {α : Type} (f : α -> UInt64) {first : α} {rest : List α}
    (hpaid : total (fun a => (f a).toNat) (first :: rest) <= reward.toNat) :
    (f first).toNat <= (f first + (reward - ((first :: rest).map f).sum)).toNat ∧
      total UInt64.toNat ((f first + (reward - ((first :: rest).map f).sum)) :: rest.map f) =
        reward.toNat := by
  have hlt := reward.toNat_lt
  have hsum := toNat_sum f (lt_of_le_of_lt hpaid hlt)
  have hleft := UInt64.toNat_sub_of_le _ _ (UInt64.le_iff_toNat_le.mpr (hsum ▸ hpaid))
  have hrest : total UInt64.toNat (rest.map f) = total (fun a => (f a).toNat) rest := by
    unfold total
    rw [map_map]
    rfl
  rw [total_cons, hrest, UInt64.toNat_add, hleft, hsum]
  rw [total_cons] at hpaid ⊢
  omega

theorem paysExactly_of_total_le (hne : payouts ≠ [])
    (htotal : total (fun entry => entry.portions.toNat) payouts <= stakingPortions) :
    PaysExactly payouts reward := by
  have hportion : forall entry, entry ∈ payouts ->
      (getPortionOfReward entry.portions reward).toNat =
        reward.toNat * entry.portions.toNat / stakingPortions := by
    intro entry hent
    have hle := le_total_of_mem (fun entry : PayoutEntry => entry.portions.toNat) hent
    exact toNat_portionsToAmount (Or.inl (hle.trans htotal))
  have hpaid : total (fun entry => (getPortionOfReward entry.portions reward).toNat) payouts <=
      reward.toNat := by
    have hdiv := total_div_le (fun entry : PayoutEntry => entry.portions.toNat) reward.toNat
      (show 0 < stakingPortions by decide) htotal
    have hsame : total (fun entry => (getPortionOfReward entry.portions reward).toNat) payouts =
        total (fun entry => reward.toNat * entry.portions.toNat / stakingPortions) payouts := by
      unfold total
      rw [map_congr_left hportion]
    rwa [hsame]
  have hsum := toNat_sum (fun entry : PayoutEntry => getPortionOfReward entry.portions reward)
    (lt_of_le_of_lt hpaid reward.toNat_lt)
  cases payouts with
  | nil => exact absurd rfl hne
  | cons first rest =>
    rcases total_remainder (fun e : PayoutEntry => getPortionOfReward e.portions reward) hpaid with
      ⟨hfirst, hexact⟩
    refine ⟨hpaid, hsum, hexact, ?_⟩
    intro i entry share hent hshare
    rw [<- hportion entry (mem_of_getElem? hent)]
    cases i with
    | zero =>
      cases hent
      cases hshare
      exact hfirst
    | succ i =>
      have hshare : (rest.map fun entry => getPortionOfReward entry.portions reward)[i]? =
          some share := hshare
      rw [getElem?_cons_succ] at hent
      rw [getElem?_map, hent] at hshare
      cases hshare
      exact le_refl _

end

/-! ## The theorem -/

def FitsWords : Prop :=
  forall c, c ∈ node.contributors -> c.amount.toNat * node.remainingPortions < 2 ^ 128 ∧
    c.amount.toNat * node.remainingPortions / node.stakingRequirement.toNat < 2 ^ 64 ∧
    c.amount.toNat * node.remainingPortions / node.stakingRequirement.toNat +
      node.portionsForOperator.toNat < 2 ^ 64

variable {node : MasterNode}

theorem PayoutReady.fitsWords (h : PayoutReady node) : FitsWords node := by
  intro c hc
  have hle := h.stakePortions_le hc
  have hports := h.portions_le
  have hbound := stakingPortions_lt
  have hamt := c.amount.toNat_lt
  unfold MasterNode.stakePortions at hle
  rw [mul_comm] at hle
  have hrem : node.remainingPortions < 2 ^ 64 :=
    lt_of_le_of_lt (Nat.sub_le _ _) hbound
  refine ⟨?_, lt_of_le_of_lt hle hrem, ?_⟩
  · calc
      c.amount.toNat * node.remainingPortions < 2 ^ 64 * 2 ^ 64 :=
        Nat.mul_lt_mul'' hamt hrem
      _ = 2 ^ 128 := by decide
  · unfold MasterNode.remainingPortions at hle ⊢
    omega

/-- The payouts of a fully funded master node: nothing overflows, the portions are at most the
whole and lack less than one per contributor, and every reward is paid exactly. -/
theorem payouts_sum_exactly {node : MasterNode} (h : PayoutReady node)
    (hfunded : node.isFullyFunded = true) (key : PublicKey) :
    FitsWords node ∧ total (fun entry => entry.portions.toNat)
      (masterNodeInfoToPayout key node.payoutInfo).payouts <= stakingPortions ∧
    stakingPortions <= total (fun entry => entry.portions.toNat)
      (masterNodeInfoToPayout key node.payoutInfo).payouts + node.contributors.length ∧
    forall reward, PaysExactly (masterNodeInfoToPayout key node.payoutInfo).payouts reward := by
  rcases h.total_portions hfunded key with ⟨hmost, hleast⟩
  refine ⟨h.fitsWords, hmost, hleast, fun reward => paysExactly_of_total_le ?_ hmost⟩
  intro hnil
  have hlen := congrArg length (h.payouts_eq key)
  rw [hnil, map_nil, length_nil, length_map] at hlen
  have hmem := h.operator
  rw [length_eq_zero_iff.mp hlen.symm] at hmem
  exact not_mem_nil hmem

/-! ## Records that the list builds -/

variable {hf : Hf} {blockHeight : UInt64} {index : UInt32} {key : PublicKey}
  {env : RegistrationOracles P} {nettype : NetworkType} {tx : Transaction P}
  {extra : RegistrationExtra} {fields : RegistrationFields} {blockTimestamp : UInt64}

theorem getStakingRequirement_pos (height : UInt64) : 0 < (getStakingRequirement height).toNat := by
  unfold getStakingRequirement
  split
  · decide
  · decide

theorem Registered.addresses_eq (h : Registered hf fields blockHeight node) :
    node.contributors.map Contributor.address = fields.contributorArgs.addresses := by
  rw [h.contributors_eq, map_map]
  exact map_fst_zip (le_of_eq h.lengths)

theorem isRegistrationTx_payoutReady
    (h : isRegistrationTx env nettype hf tx extra blockTimestamp blockHeight index =
      .ok (key, node)) : PayoutReady node := by
  rcases isRegistrationTx_eq_ok h with ⟨fields, _, hreg, hoperator, hports⟩
  have haddrs := hreg.addresses_eq
  refine ⟨hreg.accounted, hreg.distinct, ?_, ?_, hports⟩
  · rw [haddrs, hoperator]
    cases hlist : fields.contributorArgs.addresses with
    | nil =>
      have hlengths := hreg.lengths
      rw [hlist] at hlengths
      exact absurd (length_eq_zero_iff.mp hlengths.symm) hreg.portions_ne
    | cons first rest => exact mem_cons_self
  · rw [hreg.requirement_eq]
    exact getStakingRequirement_pos blockHeight

variable {info : MasterNodeInfo} {stake : StakingComponents}

theorem PayoutReady.applyContribution (h : PayoutReady node) {extra : StakingExtra}
    (happly : applyContribution hf blockHeight index extra node.toMasterNodeInfo stake =
      .ok info) : PayoutReady { node with toMasterNodeInfo := info } := by
  have haddresses : (info.contributors.map Contributor.address).Nodup ∧
      forall address, address ∈ node.contributors.map Contributor.address ->
        address ∈ info.contributors.map Contributor.address := by
    rcases applyContribution_eq_ok happly with ⟨scan, credited, hval, rfl, rfl⟩
    rcases scanned_openContributor h.distinct stake.address with ⟨c, hscan⟩
    rw [<- validateContribution_eq_ok hval] at hscan
    rw [activate_contributors, addresses_creditContribution hf stake blockHeight index hscan]
    refine ⟨hscan.distinct, fun address hmem => ?_⟩
    unfold openContributor
    split
    · rw [map_append]
      exact mem_append_left _ hmem
    · exact hmem
  refine ⟨h.accounted.applyContribution happly, haddresses.1, haddresses.2 _ h.operator, ?_,
    h.portions_le⟩
  have hreq := applyContribution_stakingRequirement happly
  rw [hreq]
  exact h.requirement_pos

/-- What payouts rest on holds from the registration of a node on, whatever stakes follow. -/
theorem registration_payoutReady
    (h : isRegistrationTx env nettype hf tx extra blockTimestamp blockHeight index =
      .ok (key, node)) {nodes : MasterNodes} (hnode : nodes.find? key = some node)
    (stakes : List (StakingTx P)) :
    exists next, (stakes.foldl (contribute env.toStakingOracles nettype) nodes).find? key =
      some next ∧ PayoutReady next := by
  have hready := isRegistrationTx_payoutReady h
  clear h
  induction stakes generalizing nodes node with
  | nil => exact ⟨node, hnode, hready⟩
  | cons s rest ih =>
    rcases contribute_cases env.toStakingOracles nettype hnode s with ⟨next, hnext, hcases⟩
    refine ih hnext ?_
    rcases hcases with rfl | ⟨stake, info, happly, rfl⟩
    · exact hready
    · exact hready.applyContribution happly

theorem registration_payoutReady_quarters :
    exists node, isRegistrationTx ledgerOracles .mainnet .hf18Bns (stakeOf 1 2500000000000)
        (registerFour quarters) 50 60000 0 = .ok (⟨7⟩, node) ∧
      exists next, ([stakingTxOf 2 2499999999999].foldl
        (contribute ledgerOracles.toStakingOracles .mainnet)
        (Table.empty.set ⟨7⟩ node)).find? ⟨7⟩ = some next ∧ PayoutReady next := by
  refine Exists.imp (fun node h => ⟨h, ?_⟩) ⟨_, rfl⟩
  exact registration_payoutReady h (Table.find?_set_self _ _ _) _

/-! ## A node with a strange operator -/

/-- Two contributors with a stake of five each, and an operator with half of the portions. -/
def halfForOperator (operator : Nat) : MasterNode where
  lastRewardBlockHeight := 0
  lastRewardTransactionIndex := 0
  activeSinceHeight := 1
  contributors :=
    [{ amount := 5, reserved := 5, address := sampleAddress 1 },
      { amount := 5, reserved := 5, address := sampleAddress 2 }]
  totalContributed := 10
  totalReserved := 10
  stakingRequirement := 10
  registrationHeight := 0
  portionsForOperator := 9223372036854775806
  swarmId := 0
  operatorAddress := sampleAddress operator
  lastIpChangeHeight := 0
  registrationHfVersion := .hf18Bns

theorem halfForOperator_accounted (operator : Nat) :
    StakeAccounted (halfForOperator operator).toMasterNodeInfo := by
  refine ⟨rfl, rfl, ?_, UInt64.le_refl 10⟩
  intro c hc
  rcases mem_cons.mp hc with rfl | hc
  · decide
  · rw [mem_singleton.mp hc]
    decide

/-- With the first contributor as the operator every reward is paid exactly. -/
theorem payouts_sum_exactly_halfForOperator :
    (halfForOperator 1).isFullyFunded = true ∧ forall reward,
      PaysExactly (masterNodeInfoToPayout ⟨7⟩ (halfForOperator 1).payoutInfo).payouts reward := by
  have hready : PayoutReady (halfForOperator 1) :=
    ⟨halfForOperator_accounted 1, by decide, by decide, by decide, by decide⟩
  exact ⟨rfl, (payouts_sum_exactly hready rfl ⟨7⟩).2.2.2⟩

/-- The cut of an operator who is not a contributor is paid to nobody. -/
theorem halfForOperator_lost :
    StakeAccounted (halfForOperator 3).toMasterNodeInfo ∧ (halfForOperator 3).isFullyFunded = true ∧
    ((halfForOperator 3).contributors.map Contributor.address).Nodup ∧
    (halfForOperator 3).portionsForOperator.toNat <= stakingPortions ∧
    total (fun entry => entry.portions.toNat)
      (masterNodeInfoToPayout ⟨7⟩ (halfForOperator 3).payoutInfo).payouts +
        (halfForOperator 3).contributors.length < stakingPortions :=
  ⟨halfForOperator_accounted 3, rfl, by decide, by decide, by decide⟩

end Beldex.Staking
