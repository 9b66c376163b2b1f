import Beldex.Staking.Spots

/-!
# Master nodes that cannot be funded

From a registration on, contributions fill the spots of a master node one by one.
When fewer than all spots are reserved at the registration, the contribution into
the last free spot pays whatever is missing.  When all of them are reserved,
nobody pays what the rounding of the reserved amounts has cut off, and the node is
left short of its requirement for good.
-/

namespace Beldex.Staking

open Basic Crypto Coinbase Foundation Foundation.Fallible Foundation.Sums Table List UInt64

variable {P : Type}

/-! ## The portions of a registration -/

variable {portions : List UInt64}

theorem toNat_stakingPortions : (UInt64.ofNat stakingPortions).toNat = stakingPortions := by
  decide

theorem portionsLeft_eq_some {left rest : UInt64} (h : portionsLeft left portions = some rest) :
    left.toNat = rest.toNat + total UInt64.toNat portions := by
  fun_induction portionsLeft left portions with
  | case1 =>
    cases h
    rfl
  | case2 => cases h
  | case3 left portion portions hlt ih =>
    have hle := UInt64.not_lt.mp hlt
    have hnat := le_iff_toNat_le.mp hle
    have hrest := ih h
    rw [UInt64.toNat_sub_of_le _ _ hle] at hrest
    rw [total_cons]
    omega

theorem reservePortions_complete {hf : Hf} (hfork : Hf.hf17POS <= hf) {reserved last : UInt64}
    {i : Nat} (h : reservePortions hf reserved i portions = some last) (hne : portions ≠ [])
    (hspots : i + portions.length = maxNumberOfContributors)
    (hsum : reserved.toNat + total UInt64.toNat portions <= stakingPortions) :
    stakingPortions <= reserved.toNat + total UInt64.toNat portions := by
  induction portions generalizing reserved i with
  | nil => exact absurd rfl hne
  | cons portion rest ih =>
    unfold reservePortions at h
    rw [length_cons] at hspots
    rw [total_cons] at hsum ⊢
    have hall := toNat_stakingPortions
    split at h
    · cases h
    next hmin =>
      cases rest with
      | nil =>
        have hle : reserved <= UInt64.ofNat stakingPortions := by
          rw [le_iff_toNat_le, hall]
          omega
        rw [getMinNodeContribution_last hfork _ _ hspots, UInt64.not_lt,
          le_iff_toNat_le, UInt64.toNat_sub_of_le _ _ hle, hall] at hmin
        rw [total_nil]
        omega
      | cons next rest =>
        have hadd : (reserved + portion).toNat = reserved.toNat + portion.toNat := by
          rw [UInt64.toNat_add]
          refine Nat.mod_eq_of_lt ?_
          have hbound : stakingPortions < 2 ^ 64 := by decide
          omega
        have hrest := ih h (cons_ne_nil _ _) (by omega) (by rw [hadd]; omega)
        rw [hadd] at hrest
        omega

theorem checkMasterNodePortions_eq_true {hf : Hf} (h : checkMasterNodePortions hf portions = true) :
    portions.length <= maxNumberOfContributors ∧
      exists reserved, reservePortions hf 0 0 portions = some reserved := by
  unfold checkMasterNodePortions at h
  split at h
  · cases h
  next hlen =>
    split at h
    next reserved hresv =>
      exact ⟨not_lt.mp hlen, reserved, hresv⟩
    · cases h

/-! ## The reserved spots -/

def reservedContributor (stakingRequirement : UInt64)
    (spot : AccountPublicAddress × UInt64) : Contributor where
  reserved := portionsToAmount spot.2 stakingRequirement
  address := spot.1

structure SpotsReserved (spots : List (AccountPublicAddress × UInt64))
    (info next : MasterNodeInfo) : Prop where
  contributors_eq : next.contributors =
    info.contributors ++ spots.map (reservedContributor info.stakingRequirement)
  totalReserved_eq : next.totalReserved = info.totalReserved +
    (spots.map fun spot => portionsToAmount spot.2 info.stakingRequirement).sum
  requirement_eq : next.stakingRequirement = info.stakingRequirement
  contributed_eq : next.totalContributed = info.totalContributed
  distinct : (info.contributors.map Contributor.address).Nodup ->
    (next.contributors.map Contributor.address).Nodup

theorem reserveSpot_eq_ok {info next : MasterNodeInfo} {spot : AccountPublicAddress × UInt64}
    (h : reserveSpot info spot = .ok next) : SpotsReserved [spot] info next := by
  rcases rejectIf_bind_ok.mp h with ⟨hfresh, hnext⟩
  cases hnext
  constructor
  · rfl
  · simp
  · rfl
  · rfl
  · intro hdist
    rw [map_append, map_singleton, nodup_append_comm]
    refine nodup_cons.mpr ⟨?_, hdist⟩
    intro hmem
    rcases mem_map.mp hmem with ⟨c, hc, heq⟩
    exact any_eq_false.mp hfresh c hc (beq_iff_eq.mpr heq)

theorem run_reserveSpot {info next : MasterNodeInfo} {spots : List (AccountPublicAddress × UInt64)}
    (h : run reserveSpot info spots = .ok next) : SpotsReserved spots info next := by
  induction spots generalizing info with
  | nil =>
    cases h
    exact ⟨by simp, by simp, rfl, rfl, id⟩
  | cons spot rest ih =>
    rcases run_cons_ok.mp h with ⟨mid, hspot, hrest⟩
    have hfirst := reserveSpot_eq_ok hspot
    have hothers := ih hrest
    constructor
    · rw [hothers.contributors_eq, hfirst.contributors_eq, hfirst.requirement_eq]
      simp
    · rw [hothers.totalReserved_eq, hfirst.totalReserved_eq, hfirst.requirement_eq,
        map_singleton, sum_singleton, map_cons, sum_cons, add_assoc]
    · rw [hothers.requirement_eq, hfirst.requirement_eq]
    · rw [hothers.contributed_eq, hfirst.contributed_eq]
    · intro hdist
      exact hothers.distinct (hfirst.distinct hdist)

theorem toNat_sum {α : Type} (f : α -> UInt64) {l : List α}
    (h : total (fun a => (f a).toNat) l < 2 ^ 64) :
    (l.map f).sum.toNat = total (fun a => (f a).toNat) l := by
  induction l with
  | nil => rfl
  | cons a rest ih =>
    rw [total_cons] at h
    rw [map_cons, sum_cons, UInt64.toNat_add, ih (by omega), total_cons]
    exact Nat.mod_eq_of_lt h

/-! ## An accepted registration -/

theorem catchInvalid_eq_ok {x : Except String Unit} : catchInvalid x = .ok () <-> x = .ok () := by
  cases x with
  | _ => simp [catchInvalid]

def RegistrationFields.spots (fields : RegistrationFields) : List (AccountPublicAddress × UInt64) :=
  fields.contributorArgs.addresses.zip fields.contributorArgs.portions

structure Registered (hf : Hf) (fields : RegistrationFields) (blockHeight : UInt64)
    (node : MasterNode) : Prop where
  lengths : fields.contributorArgs.addresses.length = fields.contributorArgs.portions.length
  spots_le : fields.contributorArgs.portions.length <= maxNumberOfContributors
  portions_ne : fields.contributorArgs.portions ≠ []
  enough : exists reserved, reservePortions hf 0 0 fields.contributorArgs.portions = some reserved
  left : exists rest,
    portionsLeft (UInt64.ofNat stakingPortions) fields.contributorArgs.portions = some rest
  contributors_eq : node.contributors =
    fields.spots.map (reservedContributor (getStakingRequirement blockHeight))
  totalReserved_eq : node.totalReserved = (fields.spots.map fun spot =>
      portionsToAmount spot.2 (getStakingRequirement blockHeight)).sum
  requirement_eq : node.stakingRequirement = getStakingRequirement blockHeight
  contributed_eq : node.totalContributed = 0
  distinct : (node.contributors.map Contributor.address).Nodup

variable {key : PublicKey} {node : MasterNode}

theorem isRegistrationTx_eq_ok {env : RegistrationOracles P} {nettype : NetworkType} {hf : Hf}
    {tx : Transaction P} {extra : RegistrationExtra} {blockTimestamp blockHeight : UInt64}
    {index : UInt32}
    (h : isRegistrationTx env nettype hf tx extra blockTimestamp blockHeight index =
      .ok (key, node)) :
    exists fields, regTxExtractFields extra = some fields ∧ Registered hf fields blockHeight node ∧
      node.operatorAddress = fields.contributorArgs.addresses.headD ⟨nullPkey, nullPkey⟩ ∧
      node.portionsForOperator.toNat <= stakingPortions := by
  rcases orReject_bind_ok.mp h with ⟨fields, hfields, h⟩
  rcases bind_ok.mp h with ⟨_, hargs, h⟩
  rcases bind_ok.mp h with ⟨_, hsig, h⟩
  rcases rejectIf_bind_ok.mp h with ⟨_, h⟩
  rcases orReject_bind_ok.mp h with ⟨stake, _, h⟩
  rcases bind_ok.mp h with ⟨_, _, h⟩
  rcases bind_ok.mp h with ⟨info, hinfo, h⟩
  rcases rejectIf_bind_ok.mp h with ⟨_, h⟩
  cases h
  have hvalid := catchInvalid_eq_ok.mp hargs
  unfold validateContributorArgs at hvalid
  simp only [rejectIf_bind_ok, rejectIf_ok] at hvalid
  rcases hvalid with ⟨hempty, hlengths, _, hoperator, hcheck⟩
  rw [decide_eq_false_iff_not, UInt64.not_lt, UInt64.le_iff_toNat_le, toNat_stakingPortions]
    at hoperator
  refine ⟨fields, hfields, ?_, rfl, hoperator⟩
  rcases orReject_bind_ok.mp (catchInvalid_eq_ok.mp hsig) with ⟨hash, hhash, _⟩
  have hspots := run_reserveSpot hinfo
  rw [Bool.not_eq_false'] at hcheck
  rcases checkMasterNodePortions_eq_true hcheck with ⟨hlen, henough⟩
  constructor
  · exact (bne_eq_false_iff_eq.mp hlengths).symm
  · exact hlen
  · intro hnil
    rw [hnil] at hempty
    cases hempty
  · exact henough
  · unfold getRegistrationHash at hhash
    split at hhash
    · cases hhash
    · rcases Option.map_eq_some_iff.mp hhash with ⟨rest, hrest, _⟩
      exact ⟨rest, hrest⟩
  · simpa [RegistrationFields.spots] using hspots.contributors_eq
  · simpa [RegistrationFields.spots] using hspots.totalReserved_eq
  · exact hspots.requirement_eq
  · exact hspots.contributed_eq
  · exact hspots.distinct nodup_nil

section Registered

variable {hf : Hf} {fields : RegistrationFields} {blockHeight : UInt64} {node : MasterNode}
  (h : Registered hf fields blockHeight node)

include h in
theorem Registered.total_spots (f : UInt64 -> Nat) :
    total (fun spot => f spot.2) fields.spots = total f fields.contributorArgs.portions := by
  have hsnd : fields.spots.map Prod.snd = fields.contributorArgs.portions :=
    map_snd_zip (le_of_eq h.lengths.symm)
  unfold total
  rw [<- hsnd, map_map]
  rfl

theorem getStakingRequirement_le (height : UInt64) :
    (getStakingRequirement height).toNat <= 100000000000000 := by
  unfold getStakingRequirement
  split
  · decide
  · decide

/-- The quotient fits a word unless both factors are more than the whole. -/
theorem toNat_portionsToAmount {portions requirement : UInt64}
    (h : portions.toNat <= stakingPortions ∨ requirement.toNat <= stakingPortions) :
    (portionsToAmount portions requirement).toNat =
      requirement.toNat * portions.toNat / stakingPortions := by
  have hwhole : 0 < stakingPortions := by decide
  unfold portionsToAmount
  rw [Common.mulDiv128_eq _ _ (by decide), toNat_stakingPortions, toNat_ofNat']
  refine Nat.mod_eq_of_lt (Nat.div_lt_of_lt_mul ?_)
  rcases h with hle | hle
  · rw [mul_comm]
    exact Nat.mul_lt_mul_of_le_of_lt hle requirement.toNat_lt hwhole
  · exact Nat.mul_lt_mul_of_le_of_lt hle portions.toNat_lt hwhole

theorem portionsToAmount_toNat (portions height : UInt64) :
    (portionsToAmount portions (getStakingRequirement height)).toNat =
      (getStakingRequirement height).toNat * portions.toNat / stakingPortions :=
  toNat_portionsToAmount (Or.inr (le_trans (getStakingRequirement_le height) (by decide)))

include h in
theorem Registered.portions_le :
    total UInt64.toNat fields.contributorArgs.portions <= stakingPortions := by
  rcases h.left with ⟨rest, hrest⟩
  have hall := toNat_stakingPortions
  have hsum := portionsLeft_eq_some hrest
  omega

include h in
theorem Registered.total_amounts :
    total (fun spot => (portionsToAmount spot.2 (getStakingRequirement blockHeight)).toNat)
        fields.spots = total (fun portions =>
          (getStakingRequirement blockHeight).toNat * portions.toNat / stakingPortions)
        fields.contributorArgs.portions := by
  rw [<- h.total_spots]
  simp only [portionsToAmount_toNat]

include h in
theorem Registered.totalReserved_toNat :
    node.totalReserved.toNat = total (fun portions =>
          (getStakingRequirement blockHeight).toNat * portions.toNat / stakingPortions)
        fields.contributorArgs.portions := by
  have hle := total_div_le UInt64.toNat (getStakingRequirement blockHeight).toNat
    (show 0 < stakingPortions by decide) h.portions_le
  have hlt := (getStakingRequirement blockHeight).toNat_lt
  have hamts := h.total_amounts
  rw [h.totalReserved_eq, toNat_sum]
  · exact hamts
  · omega

include h in
theorem Registered.accounted : StakeAccounted node.toMasterNodeInfo := by
  constructor
  · rw [h.contributed_eq, h.contributors_eq]
    symm
    rw [show (0 : UInt64).toNat = 0 from rfl, total_eq_zero_iff]
    intro c hc
    rcases mem_map.mp hc with ⟨spot, _, rfl⟩
    rfl
  · rw [h.totalReserved_toNat, <- h.total_amounts, h.contributors_eq]
    unfold total
    rw [map_map]
    rfl
  · intro c hc
    rw [h.contributors_eq] at hc
    rcases mem_map.mp hc with ⟨spot, _, rfl⟩
    exact le_iff_toNat_le.mpr (Nat.zero_le _)
  · rw [le_iff_toNat_le, h.totalReserved_toNat, h.requirement_eq]
    exact total_div_le _ _ (by decide) h.portions_le

/-- If every spot is reserved, none of the reserved amounts has been rounded. -/
def UnroundedSpots (stakingRequirement : UInt64) (portions : List UInt64) : Prop :=
  portions.length = maxNumberOfContributors ->
    (forall p, p ∈ portions -> portionsToAmount p stakingRequirement ≠ 0) ->
      forall p, p ∈ portions -> stakingPortions ∣ stakingRequirement.toNat * p.toNat

include h in
theorem Registered.portions_eq (hfork : Hf.hf17POS <= hf)
    (hspots : fields.contributorArgs.portions.length = maxNumberOfContributors) :
    total UInt64.toNat fields.contributorArgs.portions = stakingPortions := by
  have hle := h.portions_le
  rcases h.enough with ⟨reserved, hresv⟩
  have hge := reservePortions_complete hfork hresv h.portions_ne (by omega)
    (by rw [UInt64.toNat_zero]; omega)
  rw [UInt64.toNat_zero] at hge
  omega

include h in
theorem Registered.usedSpots_eq :
    node.usedSpots =
      total (fun p => if portionsToAmount p (getStakingRequirement blockHeight) = 0 then 0 else 1)
        fields.contributorArgs.portions := by
  have hlocked : node.totalNumLockedContributions = 0 := by
    change total _ _ = 0
    rw [total_eq_zero_iff, h.contributors_eq]
    intro c hc
    rcases mem_map.mp hc with ⟨spot, _, rfl⟩
    rfl
  have hopen (requirement : UInt64) (spot : AccountPublicAddress × UInt64) :
      (if (reservedContributor requirement spot).amount <
          (reservedContributor requirement spot).reserved then 1 else 0) =
        if portionsToAmount spot.2 requirement = 0 then 0 else 1 := by
    change (if 0 < portionsToAmount spot.2 requirement then 1 else 0) = _
    by_cases hzero : portionsToAmount spot.2 requirement = 0
    · rw [if_pos hzero, hzero, if_neg (UInt64.lt_irrefl 0)]
    · rw [if_neg hzero, if_pos (UInt64.pos_iff_ne_zero.mpr hzero)]
  unfold MasterNodeInfo.usedSpots openReservations
  rw [hlocked, zero_add, h.contributors_eq, <- h.total_spots]
  unfold total
  rw [map_map]
  exact congrArg sum (map_congr_left fun spot _ => hopen _ spot)

include h in
theorem Registered.usedSpots_iff :
    node.usedSpots = maxNumberOfContributors <->
      fields.contributorArgs.portions.length = maxNumberOfContributors ∧
        forall p, p ∈ fields.contributorArgs.portions ->
          portionsToAmount p (getStakingRequirement blockHeight) ≠ 0 := by
  have hspots := h.spots_le
  rw [h.usedSpots_eq]
  generalize fields.contributorArgs.portions = portions at hspots ⊢
  have hcount := total_indicator_iff
    (fun p => portionsToAmount p (getStakingRequirement blockHeight) ≠ 0) portions
  simp only [ne_eq, ite_not] at hcount
  constructor
  · intro hused
    have hlen : portions.length = maxNumberOfContributors := by omega
    exact ⟨hlen, hcount.2.mp (by omega)⟩
  · rintro ⟨hlen, hall⟩
    rw [hcount.2.mpr hall, hlen]

include h in
theorem Registered.covered_iff (hfork : Hf.hf17POS <= hf)
    (hspots : fields.contributorArgs.portions.length = maxNumberOfContributors) :
    node.totalReserved = node.stakingRequirement <->
      forall p, p ∈ fields.contributorArgs.portions ->
        stakingPortions ∣ (getStakingRequirement blockHeight).toNat * p.toNat := by
  rw [<- total_div_eq_iff UInt64.toNat _ (by decide) (h.portions_eq hfork hspots),
    <- h.totalReserved_toNat, h.requirement_eq, UInt64.toNat_inj]

include h in
theorem Registered.spotsKept (hfork : Hf.hf17POS <= hf) (hunrounded :
      UnroundedSpots (getStakingRequirement blockHeight) fields.contributorArgs.portions) :
    SpotsKept node.toMasterNodeInfo := by
  constructor
  · exact h.accounted
  · exact h.distinct
  · rw [h.usedSpots_eq]
    have hspots := h.spots_le
    have hcount := (total_indicator_iff
      (fun p => portionsToAmount p (getStakingRequirement blockHeight) ≠ 0)
      fields.contributorArgs.portions).1
    simp only [ne_eq, ite_not] at hcount
    omega
  · intro hused
    rcases h.usedSpots_iff.mp hused with ⟨hspots, hamts⟩
    exact (h.covered_iff hfork hspots).mpr (hunrounded hspots hamts)

end Registered

/-! ## Runs of contributions -/

structure StakingTx (P : Type) where
  hf : Hf
  blockHeight : UInt64
  tx : Transaction P
  extra : StakingExtra
  index : UInt32

variable (env : StakingOracles P) (nettype : NetworkType)

/-- The nodes after a staking transaction; an ignored contribution changes nothing. -/
def contribute (nodes : MasterNodes) (s : StakingTx P) : MasterNodes :=
  match nodes.processContributionTx env nettype s.hf s.blockHeight s.tx s.extra s.index with
  | .ok (next, _) => next
  | .error _ => nodes

variable {nodes : MasterNodes}

theorem contribute_cases (hnode : nodes.find? key = some node) (s : StakingTx P) :
    exists next, (contribute env nettype nodes s).find? key = some next ∧
      (next = node ∨ exists stake info,
        applyContribution s.hf s.blockHeight s.index s.extra node.toMasterNodeInfo stake =
          .ok info ∧ next = { node with toMasterNodeInfo := info }) := by
  unfold contribute
  cases hproc : nodes.processContributionTx env nettype s.hf s.blockHeight s.tx s.extra s.index with
  | error reason => exact ⟨node, hnode, Or.inl rfl⟩
  | ok result =>
    rcases orReject_bind_ok.mp hproc with ⟨stake, _, hstake⟩
    rcases orReject_bind_ok.mp hstake with ⟨current, hcur, hinfo⟩
    rcases bind_ok.mp hinfo with ⟨info, happly, hres⟩
    cases hres
    rw [find?_set]
    split
    next hkey =>
      rw [hkey, hcur] at hnode
      cases hnode
      exact ⟨_, rfl, Or.inr ⟨stake, info, happly, rfl⟩⟩
    · exact ⟨node, hnode, Or.inl rfl⟩

theorem run_contribute_spotsKept (hnode : nodes.find? key = some node)
    (h : SpotsKept node.toMasterNodeInfo) {stakes : List (StakingTx P)}
    (hfork : forall s, s ∈ stakes -> Hf.hf17POS <= s.hf) :
    exists next, (stakes.foldl (contribute env nettype) nodes).find? key = some next ∧
      SpotsKept next.toMasterNodeInfo := by
  induction stakes generalizing nodes node with
  | nil => exact ⟨node, hnode, h⟩
  | cons s rest ih =>
    rcases contribute_cases env nettype hnode s with ⟨next, hnext, hcases⟩
    refine ih hnext ?_ fun t ht => hfork t (mem_cons_of_mem s ht)
    rcases hcases with rfl | ⟨stake, info, happly, rfl⟩
    · exact h
    · exact h.applyContribution (hfork s mem_cons_self) happly

/-- Whatever contributions follow, the node is funded once its spots are taken, and the
last spot is never given away while the reservations fall short. -/
def NeverStranded (key : PublicKey) (node : MasterNode) : Prop :=
  forall (nodes : MasterNodes) (stakes : List (StakingTx P)),
    nodes.find? key = some node -> (forall s, s ∈ stakes -> Hf.hf17POS <= s.hf) ->
    exists next, (stakes.foldl (contribute env nettype) nodes).find? key = some next ∧
      (next.totalNumLockedContributions = maxNumberOfContributors -> next.isFullyFunded = true) ∧
      ¬ next.isStranded

/-- A registered node is never stranded exactly when no reserved amount is rounded while
all spots are reserved. -/
theorem neverStranded_iff (env : RegistrationOracles P) (nettype : NetworkType) (hf : Hf)
    (tx : Transaction P) (extra : RegistrationExtra) (blockTimestamp blockHeight : UInt64)
    (index : UInt32) (key : PublicKey) (node : MasterNode) (fields : RegistrationFields)
    (hfork : Hf.hf17POS <= hf)
    (hregister : isRegistrationTx env nettype hf tx extra blockTimestamp blockHeight index =
      .ok (key, node)) (hfields : regTxExtractFields extra = some fields) :
    NeverStranded env.toStakingOracles nettype key node <->
      UnroundedSpots (getStakingRequirement blockHeight) fields.contributorArgs.portions := by
  rcases isRegistrationTx_eq_ok hregister with ⟨fields', hfields', hreg, _⟩
  rw [hfields] at hfields'
  cases hfields'
  constructor
  · intro hnever
    rcases hnever (empty.set key node) [] (find?_set_self _ _ _) (by simp) with
      ⟨next, hnext, _, hstranded⟩
    rw [foldl_nil, find?_set_self] at hnext
    cases hnext
    intro hspots hamts
    refine (hreg.covered_iff hfork hspots).mp (UInt64.le_antisymm hreg.accounted.bounded ?_)
    refine UInt64.not_lt.mp ?_
    intro hlt
    exact hstranded ⟨hreg.usedSpots_iff.mpr ⟨hspots, hamts⟩, hlt⟩
  · intro hunrounded nodes stakes hnode hstakes
    have hkept := hreg.spotsKept hfork hunrounded
    rcases run_contribute_spotsKept env.toStakingOracles nettype hnode hkept hstakes with
      ⟨next, hnext, hspots⟩
    exact ⟨next, hnext, hspots.isFullyFunded, hspots.not_isStranded⟩

/-! ## Four contributors -/

set_option maxRecDepth 20000

/-- Every output pays the fee of its transaction to the address it is decoded with. -/
def payingOracles : RegistrationOracles P where
  generateKeyDerivation := fun _ key => some key
  derivationToScalar := fun key _ => key
  derivePublicKey := fun _ _ key => some key
  decodeRctSimple := fun rct _ _ => some rct.txnFee
  decodeRct := fun _ _ _ => none
  checkKeyImageSignature := fun _ _ _ => true
  cnFastHash := fun _ _ _ => nullHash
  checkKey := fun _ => true
  checkSignature := fun _ _ _ => true
  formatKey := fun _ => ""
  formatHash := fun _ => ""

def ledgerOracles : RegistrationOracles Unit :=
  payingOracles

/-- A stake of an amount by the sample contributor number `n`. -/
def stakeOf (n : Nat) (amount : UInt64) : Transaction Unit :=
  { Transaction.setNull Unit with
    version := .v4TxTypes
    type := .stake
    vout := [{ amount := 0, target := .toKey ⟨BitVec.ofNat 256 n⟩ }]
    rctSignatures :=
      { type := .clsag, txnFee := amount, outPk := [], clsags := [], pseudoOuts := [] } }

def extraOf (n : Nat) : StakingExtra where
  masterNodePubkey := some ⟨7⟩
  masterNodeContributor := some (sampleAddress n)
  txSecretKey := some zeroKey
  txKeyImageProofs :=
    some [{ keyImage := ⟨BitVec.ofNat 256 n⟩, signature := nullSignature }]

/-- Four contributors with the given portions; the first one registers. -/
def registerFour (portions : List UInt64) : RegistrationExtra :=
  { extraOf 1 with
    masterNodeRegister :=
      some
        { publicSpendKeys := [⟨1⟩, ⟨2⟩, ⟨3⟩, ⟨4⟩]
          publicViewKeys := [⟨1⟩, ⟨2⟩, ⟨3⟩, ⟨4⟩]
          portionsForOperator := 0
          portions := portions
          expirationTimestamp := 100
          masterNodeSignature := nullSignature } }

def stakingTxOf (n : Nat) (amount : UInt64) : StakingTx Unit where
  hf := .hf18Bns
  blockHeight := 60000
  tx := stakeOf n amount
  extra := extraOf n
  index := 0

def quarters : List UInt64 :=
  [4611686018427387903, 4611686018427387903, 4611686018427387903, 4611686018427387903]

/-- The operator takes three portions more than a quarter. -/
def nearlyQuarters : List UInt64 :=
  [4611686018427387906, 4611686018427387902, 4611686018427387902, 4611686018427387902]

theorem neverStranded_iff_quarters :
    exists node, isRegistrationTx ledgerOracles .mainnet .hf18Bns (stakeOf 1 2500000000000)
        (registerFour quarters) 50 60000 0 = .ok (⟨7⟩, node) ∧
      NeverStranded ledgerOracles.toStakingOracles .mainnet ⟨7⟩ node := by
  refine ⟨_, rfl, ?_⟩
  refine (neverStranded_iff ledgerOracles .mainnet .hf18Bns (stakeOf 1 2500000000000)
    (registerFour quarters) 50 60000 0 ⟨7⟩ _ _ (by decide) rfl rfl).mpr ?_
  intro _ _ p hp
  simp only [quarters, mem_cons, not_mem_nil, or_false, or_self] at hp
  rw [hp]
  decide

/-- Everybody pays exactly what is reserved for them; all spots are taken, and the node
lacks three units for good. -/
theorem nearlyQuarters_stranded :
    exists node next, isRegistrationTx ledgerOracles .mainnet .hf18Bns (stakeOf 1 2500000000000)
        (registerFour nearlyQuarters) 50 60000 0 = .ok (⟨7⟩, node) ∧
      total UInt64.toNat nearlyQuarters = stakingPortions ∧
      ([stakingTxOf 1 2500000000000, stakingTxOf 2 2499999999999,
          stakingTxOf 3 2499999999999, stakingTxOf 4 2499999999999].foldl
        (contribute ledgerOracles.toStakingOracles .mainnet)
        (empty.set ⟨7⟩ node)).find? ⟨7⟩ = some next ∧
      next.totalNumLockedContributions = maxNumberOfContributors ∧ next.isFullyFunded = false ∧
      next.isStranded ∧ ¬ NeverStranded ledgerOracles.toStakingOracles .mainnet ⟨7⟩ node := by
  refine ⟨_, _, rfl, rfl, rfl, rfl, rfl, ?_, ?_⟩
  · exact ⟨rfl, by decide⟩
  · intro hnever
    rcases hnever (empty.set ⟨7⟩ _) [] (find?_set_self _ _ _) (by simp) with
      ⟨next, hnext, _, hstranded⟩
    rw [foldl_nil, find?_set_self] at hnext
    cases hnext
    exact hstranded ⟨rfl, by decide⟩

end Beldex.Staking
