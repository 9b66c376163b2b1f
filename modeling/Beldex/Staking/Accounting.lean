import Beldex.Foundation.Sums
import Beldex.Staking.Contribution

/-!
# Stake accounting

The totals of a master node are the sums over its contributors, no contributor
has paid more than what is reserved for them, and the reservations fit the
staking requirement.  A contribution keeps this at every hard fork, and under it
none of the subtractions of the code goes below zero.
-/

namespace Beldex.Staking

open Basic Crypto Coinbase Foundation Foundation.Fallible Foundation.Sums Table List UInt64

variable {P : Type}

structure StakeAccounted (info : MasterNodeInfo) : Prop where
  contributed : info.totalContributed.toNat = total (fun c => c.amount.toNat) info.contributors
  reserved : info.totalReserved.toNat = total (fun c => c.reserved.toNat) info.contributors
  filled : forall c, c ∈ info.contributors -> c.amount <= c.reserved
  bounded : info.totalReserved <= info.stakingRequirement

/-! ## What the totals say -/

variable {info : MasterNodeInfo}

theorem StakeAccounted.contributed_le (h : StakeAccounted info) :
    info.totalContributed <= info.stakingRequirement := by
  rw [UInt64.le_iff_toNat_le]
  calc
    info.totalContributed.toNat = total (fun c => c.amount.toNat) info.contributors :=
      h.contributed
    _ <= total (fun c => c.reserved.toNat) info.contributors :=
      total_le_total _ _ fun c hc => UInt64.le_iff_toNat_le.mp (h.filled c hc)
    _ = info.totalReserved.toNat := h.reserved.symm
    _ <= info.stakingRequirement.toNat := UInt64.le_iff_toNat_le.mp h.bounded

theorem StakeAccounted.isFullyFunded_iff (h : StakeAccounted info) :
    info.isFullyFunded = true <-> info.totalContributed = info.stakingRequirement := by
  have hle := h.contributed_le
  unfold MasterNodeInfo.isFullyFunded
  rw [decide_eq_true_iff]
  constructor
  · intro hge
    exact UInt64.le_antisymm hle hge
  · intro heq
    exact heq ▸ UInt64.le_refl _

/-! ## The scan of the contributors -/

structure ScanSound (seen : List Contributor) (scan : ContributorScan) : Prop where
  position_lt : scan.newContributor = false -> scan.contributorPosition < seen.length
  unfilled_le : scan.contrUnfilledReserved.toNat <= total (fun c => c.reserved.toNat) seen

variable {scan : ContributorScan}

theorem ScanSound.step {seen : List Contributor} (h : ScanSound seen scan)
    (address : AccountPublicAddress) (c : Contributor) :
    ScanSound (seen ++ [c]) (scanContributor address scan seen.length c) := by
  have htotal : total (fun c => c.reserved.toNat) (seen ++ [c]) =
      total (fun c => c.reserved.toNat) seen + c.reserved.toNat := by
    rw [total_append, total_cons, total_nil, add_zero]
  have hlen : (seen ++ [c]).length = seen.length + 1 := length_append
  have hkept : ScanSound (seen ++ [c]) scan := by
    constructor
    · intro hnew
      have := h.position_lt hnew
      omega
    · have := h.unfilled_le
      omega
  fun_cases scanContributor address scan seen.length c with
  | case1 haddr =>
    constructor
    · intro _
      change seen.length < (seen ++ [c]).length
      omega
    · split
      next hfill =>
        rw [UInt64.toNat_sub_of_le _ _ (UInt64.le_of_lt hfill)]
        omega
      · exact hkept.unfilled_le
  | case2 => exact ⟨hkept.position_lt, hkept.unfilled_le⟩
  | case3 => exact hkept

theorem ScanSound.run {seen rest : List Contributor} (h : ScanSound seen scan)
    (address : AccountPublicAddress) :
    ScanSound (seen ++ rest) (scanFrom address scan seen.length rest) := by
  induction rest generalizing seen scan with
  | nil => simpa [scanFrom] using h
  | cons c rest ih =>
    have hstep := ih (h.step address c)
    rw [append_assoc, singleton_append, length_append] at hstep
    exact hstep

theorem scanContributors_sound (address : AccountPublicAddress) (contributors : List Contributor) :
    ScanSound contributors (scanContributors address contributors) := by
  have hstart : ScanSound [] {} := by
    constructor
    · intro hnew
      cases hnew
    · exact Nat.zero_le _
  exact hstart.run address

/-! ## The record that is credited -/

structure Opened (info : MasterNodeInfo) (contributors : List Contributor)
    (position : Nat) : Prop where
  position_lt : position < contributors.length
  amounts : total (fun c => c.amount.toNat) contributors =
    total (fun c => c.amount.toNat) info.contributors
  reservations : total (fun c => c.reserved.toNat) contributors =
    total (fun c => c.reserved.toNat) info.contributors
  filled : forall c, c ∈ contributors -> c.amount <= c.reserved

theorem opened_openContributor (h : StakeAccounted info) (address : AccountPublicAddress) :
    Opened info
      (openContributor (scanContributors address info.contributors) address info.contributors).1
      (openContributor (scanContributors address info.contributors) address
        info.contributors).2 := by
  have hsound := scanContributors_sound address info.contributors
  generalize scanContributors address info.contributors = scan at hsound ⊢
  unfold openContributor
  cases hnew : scan.newContributor with
  | false => exact ⟨hsound.position_lt hnew, rfl, rfl, h.filled⟩
  | true =>
    constructor
    · simp
    · simp [total_append]
    · simp [total_append]
    · intro c hc
      rcases mem_append.mp hc with hc | hc
      · exact h.filled c hc
      · rw [mem_singleton.mp hc]
        exact UInt64.le_refl _

variable {contributors : List Contributor} {position : Nat}

theorem Opened.record (h : Opened info contributors position) (fresh : Contributor) :
    contributors.getD position fresh ∈ contributors := by
  rw [getD_eq_getElem?_getD, getElem?_eq_getElem h.position_lt]
  exact getElem_mem h.position_lt

variable {c : Contributor} {next : MasterNodeInfo}

section

variable (h : StakeAccounted info) (hopen : Opened info contributors position)
  (hc : c ∈ contributors)
include h hopen hc

theorem maxAmount_toNat
    :
    (maxAmount info c).toNat =
      c.reserved.toNat + (info.stakingRequirement.toNat - info.totalReserved.toNat) := by
  have hresv : c.reserved.toNat <= info.totalReserved.toNat := by
    rw [h.reserved, <- hopen.reservations]
    exact le_total_of_mem (fun c => c.reserved.toNat) hc
  have hbnd := UInt64.le_iff_toNat_le.mp h.bounded
  have hlt := info.stakingRequirement.toNat_lt
  unfold maxAmount
  rw [UInt64.toNat_add, UInt64.toNat_sub_of_le _ _ h.bounded]
  exact Nat.mod_eq_of_lt (by omega)

theorem amount_le_maxAmount
    : c.amount <= maxAmount info c := by
  have hfilled := UInt64.le_iff_toNat_le.mp (hopen.filled c hc)
  rw [UInt64.le_iff_toNat_le, maxAmount_toNat h hopen hc]
  omega

theorem creditedAmount_le
    (transferred : UInt64) :
    c.amount.toNat + (creditedAmount info c transferred).toNat <=
      c.reserved.toNat + (info.stakingRequirement.toNat - info.totalReserved.toNat) := by
  have hamt := amount_le_maxAmount h hopen hc
  have hroom : (maxAmount info c - c.amount).toNat = (maxAmount info c).toNat - c.amount.toNat :=
    UInt64.toNat_sub_of_le _ _ hamt
  have hmax := maxAmount_toNat h hopen hc
  have hle := UInt64.le_iff_toNat_le.mp hamt
  have hcredited : (creditedAmount info c transferred).toNat <=
      (maxAmount info c - c.amount).toNat := by
    unfold creditedAmount
    by_cases hlt : transferred < maxAmount info c - c.amount
    · rw [if_pos hlt]
      exact le_of_lt (lt_iff_toNat_lt.mp hlt)
    · rw [if_neg hlt]
  omega

end

/-! ## The credit -/

theorem amount_add_toNat (h : StakeAccounted info) (hopen : Opened info contributors position)
    (hc : c ∈ contributors) (transferred : UInt64) :
    (c.amount + creditedAmount info c transferred).toNat =
      c.amount.toNat + (creditedAmount info c transferred).toNat := by
  have hle := creditedAmount_le h hopen hc transferred
  have hmax := maxAmount_toNat h hopen hc
  have hlt := (maxAmount info c).toNat_lt
  rw [UInt64.toNat_add]
  exact Nat.mod_eq_of_lt (by omega)

theorem credit_reserved_toNat (c : Contributor) (hf : Hf) (credited : UInt64)
    (locked : List Contribution) :
    (c.credit hf credited locked).reserved.toNat =
      max c.reserved.toNat (c.amount + credited).toNat := by
  change (if c.reserved < c.amount + credited then c.amount + credited
    else c.reserved).toNat = _
  split
  next hlt =>
    exact (Nat.max_eq_right (le_of_lt (lt_iff_toNat_lt.mp hlt))).symm
  next hlt =>
    exact (Nat.max_eq_left (UInt64.le_iff_toNat_le.mp (UInt64.not_lt.mp hlt))).symm

section Credit

variable {hf : Hf} {blockHeight : UInt64} {index : UInt32} {stake : StakingComponents}
  (h : StakeAccounted info) (hopen : Opened info contributors position)
  (hrec : contributors.getD position { address := stake.address } = c)
  (hnext : creditContribution hf blockHeight index stake info contributors position = next)

include h hopen hrec hnext

theorem creditContribution_totalReserved :
    next.totalReserved.toNat + c.reserved.toNat = info.totalReserved.toNat +
      max c.reserved.toNat (c.amount + creditedAmount info c stake.transferred).toNat := by
  have hc : c ∈ contributors := hrec ▸ hopen.record { address := stake.address }
  have hle := creditedAmount_le h hopen hc stake.transferred
  have hadd := amount_add_toNat h hopen hc stake.transferred
  have hreq := info.stakingRequirement.toNat_lt
  have hvalue : next.totalReserved =
      if c.reserved < c.amount + creditedAmount info c stake.transferred then
        info.totalReserved + (c.amount + creditedAmount info c stake.transferred - c.reserved)
      else info.totalReserved := by
    rw [<- hnext, <- hrec]
    rfl
  rw [hvalue]
  generalize creditedAmount info c stake.transferred = credited at hle hadd ⊢
  by_cases hlt : c.reserved < c.amount + credited
  · have hnat := lt_iff_toNat_lt.mp hlt
    rw [if_pos hlt, UInt64.toNat_add, UInt64.toNat_sub_of_le _ _ (UInt64.le_of_lt hlt),
      Nat.mod_eq_of_lt (by omega)]
    omega
  · have hnat := UInt64.le_iff_toNat_le.mp (UInt64.not_lt.mp hlt)
    rw [if_neg hlt]
    omega

theorem creditContribution_totalContributed : next.totalContributed.toNat =
    info.totalContributed.toNat + (creditedAmount info c stake.transferred).toNat := by
  have hc : c ∈ contributors := hrec ▸ hopen.record { address := stake.address }
  have hle := creditedAmount_le h hopen hc stake.transferred
  have hreq := info.stakingRequirement.toNat_lt
  have hbnd := UInt64.le_iff_toNat_le.mp h.bounded
  -- The other contributors have paid at most what is reserved for them.
  have hothers : info.totalContributed.toNat + c.reserved.toNat <=
      info.totalReserved.toNat + c.amount.toNat := by
    rw [h.contributed, h.reserved, <- hopen.amounts, <- hopen.reservations]
    exact total_add_le_total_add (fun c => c.amount.toNat) (fun c => c.reserved.toNat)
      (fun c hc => UInt64.le_iff_toNat_le.mp (hopen.filled c hc)) hc
  have hvalue : next.totalContributed =
      info.totalContributed + creditedAmount info c stake.transferred := by
    rw [<- hnext, <- hrec]
    rfl
  rw [hvalue, UInt64.toNat_add]
  exact Nat.mod_eq_of_lt (by omega)

end Credit

theorem StakeAccounted.credit (h : StakeAccounted info) (hf : Hf) (blockHeight : UInt64)
    (index : UInt32) (stake : StakingComponents) (hopen : Opened info contributors position) :
    StakeAccounted (creditContribution hf blockHeight index stake info contributors position) := by
  have hset := fun (f : Contributor -> Nat) a =>
    total_set f hopen.position_lt a { address := stake.address }
  generalize hrec : contributors.getD position { address := stake.address } = c at hset
  have hc : c ∈ contributors := hrec ▸ hopen.record { address := stake.address }
  generalize hnext : creditContribution hf blockHeight index stake info contributors position = next
  have hcontributed := creditContribution_totalContributed h hopen hrec hnext
  have hresv := creditContribution_totalReserved h hopen hrec hnext
  have hreq : next.stakingRequirement = info.stakingRequirement := by
    rw [<- hnext]
    rfl
  have hcontrs : next.contributors = contributors.set position
      (c.credit hf (creditedAmount info c stake.transferred) stake.lockedContributions) := by
    rw [<- hnext, <- hrec]
    rfl
  have hle := creditedAmount_le h hopen hc stake.transferred
  have hadd := amount_add_toNat h hopen hc stake.transferred
  generalize creditedAmount info c stake.transferred = credited at *
  have hmax := credit_reserved_toNat c hf credited stake.lockedContributions
  constructor
  · have hamts := hset (fun c => c.amount.toNat)
      (c.credit hf credited stake.lockedContributions)
    rw [hopen.amounts, <- h.contributed] at hamts
    change _ = _ + (c.amount + credited).toNat at hamts
    rw [hcontrs, hcontributed]
    omega
  · have hreservations := hset (fun c => c.reserved.toNat)
      (c.credit hf credited stake.lockedContributions)
    rw [hopen.reservations, <- h.reserved] at hreservations
    rw [hcontrs]
    omega
  · intro d hd
    rw [hcontrs] at hd
    rcases mem_or_eq_of_mem_set hd with hd | rfl
    · exact hopen.filled d hd
    · rw [UInt64.le_iff_toNat_le, hmax]
      exact le_max_right _ _
  · have hbnd := UInt64.le_iff_toNat_le.mp h.bounded
    rw [hreq, UInt64.le_iff_toNat_le]
    omega

theorem StakeAccounted.activate (h : StakeAccounted info) (blockHeight : UInt64) :
    StakeAccounted (info.activate blockHeight) := by
  unfold MasterNodeInfo.activate
  split
  · exact ⟨h.contributed, h.reserved, h.filled, h.bounded⟩
  · exact h

/-! ## A contribution transaction -/

variable {hf : Hf} {extra : StakingExtra} {stake : StakingComponents}

theorem validateContribution_eq_ok (h : validateContribution hf extra info stake = .ok scan) :
    scan = scanContributors stake.address info.contributors := by
  unfold validateContribution at h
  simp only [rejectIf_bind_ok] at h
  rcases h with ⟨_, _, _, _, _, _, h⟩
  cases h
  rfl

theorem activate_contributors (info : MasterNodeInfo) (blockHeight : UInt64) :
    (info.activate blockHeight).contributors = info.contributors := by
  unfold MasterNodeInfo.activate
  split
  · rfl
  · rfl

variable {blockHeight : UInt64} {index : UInt32}
  (happly : applyContribution hf blockHeight index extra info stake = .ok next)

include happly

theorem applyContribution_eq_ok : exists scan credited,
    validateContribution hf extra info stake = .ok scan ∧
      creditContribution hf blockHeight index stake info
        (openContributor scan stake.address info.contributors).1
        (openContributor scan stake.address info.contributors).2 = credited ∧
      next = credited.activate blockHeight := by
  rcases bind_ok.mp happly with ⟨scan, hval, hnext⟩
  exact ⟨scan, _, hval, rfl, (Except.ok.inj hnext).symm⟩

theorem StakeAccounted.applyContribution (h : StakeAccounted info) : StakeAccounted next := by
  rcases applyContribution_eq_ok happly with ⟨scan, credited, hval, rfl, rfl⟩
  rw [validateContribution_eq_ok hval]
  have hopen := opened_openContributor h stake.address
  exact (h.credit hf blockHeight index stake hopen).activate blockHeight

theorem applyContribution_stakingRequirement :
    next.stakingRequirement = info.stakingRequirement := by
  rcases applyContribution_eq_ok happly with ⟨scan, credited, _, rfl, rfl⟩
  unfold MasterNodeInfo.activate
  split <;> rfl

omit happly

structure NoUnderflow (info : MasterNodeInfo) (address : AccountPublicAddress) : Prop where
  needed : info.totalReserved <= info.stakingRequirement
  reservedByOthers :
    (scanContributors address info.contributors).contrUnfilledReserved <= info.totalReserved
  room :
    let opened := openContributor (scanContributors address info.contributors) address
      info.contributors
    let contributor := opened.1.getD opened.2 { address := address }
    contributor.amount <= maxAmount info contributor ∧
      (maxAmount info contributor).toNat = contributor.reserved.toNat +
        (info.stakingRequirement - info.totalReserved).toNat

theorem StakeAccounted.noUnderflow (h : StakeAccounted info) (address : AccountPublicAddress) :
    NoUnderflow info address := by
  have hopen := opened_openContributor h address
  have hrec := hopen.record { address := address }
  constructor
  · exact h.bounded
  · rw [UInt64.le_iff_toNat_le, h.reserved]
    exact (scanContributors_sound address info.contributors).unfilled_le
  · constructor
    · exact amount_le_maxAmount h hopen hrec
    · rw [maxAmount_toNat h hopen hrec, UInt64.toNat_sub_of_le _ _ h.bounded]

/-- Contribution transactions keep the accounts of every master node, whatever the hard
fork and the transaction, and never subtract below zero on the way. -/
theorem stakeAccounting (env : StakingOracles P) (nettype : NetworkType) (hf : Hf)
    (blockHeight : UInt64) (tx : Transaction P) (extra : StakingExtra) (index : UInt32)
    (infos : MasterNodesInfos) (key : PublicKey) (info : MasterNodeInfo)
    (hinfo : infos.find? key = some info) (h : StakeAccounted info) :
    (forall address, NoUnderflow info address) ∧ exists next, (infosAfter infos
          (processContributionTx env nettype hf blockHeight tx extra index infos)).find? key =
          some next ∧ StakeAccounted next ∧ next.stakingRequirement = info.stakingRequirement ∧
        next.totalContributed <= next.stakingRequirement ∧
        (next.isFullyFunded = true <-> next.totalContributed = next.stakingRequirement) := by
  refine ⟨h.noUnderflow, ?_⟩
  cases hproc : processContributionTx env nettype hf blockHeight tx extra index infos with
  | error reason => exact ⟨info, hinfo, h, rfl, h.contributed_le, h.isFullyFunded_iff⟩
  | ok result =>
    rcases orReject_bind_ok.mp hproc with ⟨stake, _, hstake⟩
    rcases orReject_bind_ok.mp hstake with ⟨curinfo, hcur, hcurinfo⟩
    rcases bind_ok.mp hcurinfo with ⟨next, happly, hres⟩
    cases hres
    change exists next', (infos.set stake.masterNodePubkey next).find? key = some next' ∧ _
    rw [find?_set]
    by_cases hkey : key = stake.masterNodePubkey
    · rw [hkey, hcur] at hinfo
      cases hinfo
      have hnext := h.applyContribution happly
      rw [if_pos hkey]
      exact ⟨next, rfl, hnext, applyContribution_stakingRequirement happly,
        hnext.contributed_le, hnext.isFullyFunded_iff⟩
    · rw [if_neg hkey]
      exact ⟨info, hinfo, h, rfl, h.contributed_le, h.isFullyFunded_iff⟩

/-! ## A third contributor joins -/

def sampleAddress (n : Nat) : AccountPublicAddress where
  spendPublicKey := ⟨BitVec.ofNat 256 n⟩
  viewPublicKey := ⟨BitVec.ofNat 256 n⟩

/-- Every output pays 25 units to the address it is decoded with. -/
def sampleOracles : StakingOracles Unit where
  generateKeyDerivation := fun _ key => some key
  derivationToScalar := fun key _ => key
  derivePublicKey := fun _ _ key => some key
  decodeRctSimple := fun _ _ _ => some 25
  decodeRct := fun _ _ _ => none
  checkKeyImageSignature := fun _ _ _ => true

def stakeOfThree : Transaction Unit :=
  { Transaction.setNull Unit with
    vout := [{ amount := 0, target := .toKey ⟨3⟩ }]
    rctSignatures :=
      { type := .clsag, txnFee := 0, outPk := [], clsags := [], pseudoOuts := [] } }

def extraOfThree : StakingExtra where
  masterNodePubkey := some ⟨7⟩
  masterNodeContributor := some (sampleAddress 3)
  txSecretKey := some zeroKey
  txKeyImageProofs := some [{ keyImage := ⟨9⟩, signature := nullSignature }]

/-- The operator has paid a quarter, and half is reserved for a second contributor. -/
def reservedHalf : MasterNodeInfo where
  lastRewardBlockHeight := 1
  lastRewardTransactionIndex := 0
  activeSinceHeight := 0
  contributors :=
    [{ amount := 25, reserved := 25, address := sampleAddress 1
       lockedContributions := [{ keyImagePubKey := ⟨1⟩, keyImage := ⟨1⟩, amount := 25 }] },
     { amount := 0, reserved := 50, address := sampleAddress 2 }]
  totalContributed := 25
  totalReserved := 75
  stakingRequirement := 100

theorem reservedHalf_accounted : StakeAccounted reservedHalf := by
  constructor
  · rfl
  · rfl
  · decide
  · decide

theorem stakeAccounting_thirdContributor :
    (exists funded,
      processContributionTx sampleOracles .mainnet .hf17POS 10 stakeOfThree extraOfThree 0
        ((empty : MasterNodesInfos).set ⟨7⟩ reservedHalf) = .ok funded) ∧ exists next,
        (infosAfter ((empty : MasterNodesInfos).set ⟨7⟩ reservedHalf)
          (processContributionTx sampleOracles .mainnet .hf17POS 10 stakeOfThree
            extraOfThree 0 ((empty : MasterNodesInfos).set ⟨7⟩ reservedHalf))).find?
          ⟨7⟩ = some next ∧ StakeAccounted next := by
  constructor
  · exact ⟨_, rfl⟩
  · rcases (stakeAccounting sampleOracles .mainnet .hf17POS 10 stakeOfThree extraOfThree 0
      ((empty : MasterNodesInfos).set ⟨7⟩ reservedHalf) ⟨7⟩ reservedHalf rfl
      reservedHalf_accounted).2 with ⟨next, hnext, haccounted, _⟩
    exact ⟨next, hnext, haccounted⟩

end Beldex.Staking
