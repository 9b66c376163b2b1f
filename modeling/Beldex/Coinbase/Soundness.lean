import Beldex.Coinbase.MinerTx

/-!
# Which outputs of a coinbase are checked

The number of outputs is computed from the payout lists, the verified outputs
from the non-zero shares.  The two agree when no share is zero.  The output of
the miner, which comes first, is never looked at.
-/

namespace Beldex.Coinbase

open Basic Crypto Foundation Foundation.Fallible List

variable {P : Type}

/-! ## The cursor -/

def nonZeroShares (payouts : List (AccountPublicAddress × UInt64)) :
    List (AccountPublicAddress × UInt64) :=
  payouts.filter fun p => p.2 != 0

theorem nonZeroShares_cons (p : AccountPublicAddress × UInt64)
    (rest : List (AccountPublicAddress × UInt64)) :
    nonZeroShares (p :: rest) =
      if p.2 = 0 then nonZeroShares rest else p :: nonZeroShares rest := by
  unfold nonZeroShares
  rw [filter_cons]
  by_cases hzero : p.2 = 0
  · simp [hzero]
  · simp [hzero]

variable {verify : Nat -> AccountPublicAddress -> UInt64 -> Except String Unit} {next : Nat}

theorem verifyPayouts_eq_ok {payouts : List (AccountPublicAddress × UInt64)} {voutIndex : Nat} :
    verifyPayouts verify voutIndex payouts = .ok next <->
      next = voutIndex + (nonZeroShares payouts).length ∧
      forall j p, (nonZeroShares payouts)[j]? = some p ->
        verify (voutIndex + j) p.1 p.2 = .ok () := by
  induction payouts generalizing voutIndex with
  | nil =>
    constructor
    · intro h
      cases h
      exact ⟨rfl, fun j p hp => by cases hp⟩
    · rintro ⟨rfl, _⟩
      rfl
  | cons first rest ih =>
    rcases first with ⟨address, share⟩
    unfold verifyPayouts
    rw [nonZeroShares_cons]
    by_cases hzero : share = 0
    · rw [if_pos hzero, if_pos hzero]
      exact ih
    · rw [if_neg hzero, if_neg hzero, length_cons]
      refine bind_ok.trans ⟨?_, ?_⟩
      · rintro ⟨_, hfirst, hrest⟩
        rcases ih.mp hrest with ⟨rfl, hall⟩
        refine ⟨by omega, ?_⟩
        intro j p hp
        cases j with
        | zero =>
          cases hp
          exact hfirst
        | succ j =>
          have hver := hall j p hp
          rw [add_right_comm] at hver
          exact hver
      · rintro ⟨rfl, hall⟩
        refine ⟨(), hall 0 _ rfl, ih.mpr ⟨by omega, ?_⟩⟩
        intro j p hp
        rw [add_right_comm]
        exact hall (j + 1) p hp

theorem nonZeroShares_append (ps qs : List (AccountPublicAddress × UInt64)) :
    nonZeroShares (ps ++ qs) = nonZeroShares ps ++ nonZeroShares qs := by
  exact filter_append _ _

variable {ps : List (AccountPublicAddress × UInt64)}

theorem nonZeroShares_eq_self (h : forall p, p ∈ ps -> p.2 ≠ 0) : nonZeroShares ps = ps := by
  apply filter_eq_self.mpr
  intro p hp
  simpa using h p hp

theorem ne_zero_of_length_nonZeroShares (h : ps.length <= (nonZeroShares ps).length) :
    forall p, p ∈ ps -> p.2 ≠ 0 := by
  intro p hp
  have hfull := length_filter_eq_length_iff.mp (le_antisymm (length_filter_le _ _) h) p hp
  simpa using hfull

theorem nonZeroShares_fee (payouts : List PayoutEntry) (fee : UInt64) :
    nonZeroShares (if 0 < fee then payoutShares payouts fee true else []) =
      nonZeroShares (payoutShares payouts fee true) := by
  split
  · rfl
  next hfee =>
    have hzero : fee = 0 := by
      simpa [UInt64.pos_iff_ne_zero] using hfee
    rw [hzero]
    refine (filter_eq_nil_iff.mpr ?_).symm
    intro p hp
    unfold payoutShares at hp
    rw [distributeRewardByPortions_zero] at hp
    have hshare := eq_of_mem_replicate (of_mem_zip hp).2
    simp [hshare]

theorem length_payoutShares (payouts : List PayoutEntry) (totalReward : UInt64)
    (distributeRemainder : Bool) :
    (payoutShares payouts totalReward distributeRemainder).length = payouts.length := by
  unfold payoutShares
  rw [length_zip, length_map, length_distributeRewardByPortions, Nat.min_self]

/-! ## What a coinbase has to pay -/

def minerVouts (mode : VerifyMode) (parts : BlockRewardParts) : Nat :=
  match mode with
  | .miner => if 0 < parts.baseMiner + parts.minerFee then 1 else 0
  | _ => 0

def prescribedPayouts (hfVersion : Hf) (mode : VerifyMode) (blockLeader producer : Payout)
    (parts : BlockRewardParts) : List (AccountPublicAddress × UInt64) :=
  match mode with
  | .miner =>
    payoutShares blockLeader.payouts parts.masterNodeTotal (decide (Hf.hf17POS <= hfVersion))
  | .posBlockLeaderIsProducer =>
    payoutShares blockLeader.payouts (parts.masterNodeTotal + parts.minerFee) true
  | .posDifferentBlockProducer =>
    (if 0 < parts.minerFee then payoutShares producer.payouts parts.minerFee true else []) ++
      payoutShares blockLeader.payouts parts.masterNodeTotal true

def governancePayout (net : Network) (b : Block P) (parts : BlockRewardParts) :
    List (AccountPublicAddress × UInt64) :=
  if hasGovernanceOutput net b parts then
    [(net.governanceWalletAddress b.majorVersion, parts.governancePaid)]
  else
    []

theorem expectedVoutsSize_eq (net : Network) (b : Block P) (mode : VerifyMode)
    (blockLeader producer : Payout) (parts : BlockRewardParts) :
    expectedVoutsSize net b mode blockLeader producer parts = minerVouts mode parts +
        (prescribedPayouts b.majorVersion mode blockLeader producer parts).length +
        (governancePayout net b parts).length := by
  have hgov : (governancePayout net b parts).length =
      if hasGovernanceOutput net b parts then 1 else 0 := by
    unfold governancePayout
    split <;> rfl
  unfold expectedVoutsSize
  rw [hgov]
  cases mode with
  | posDifferentBlockProducer =>
    by_cases hfee : 0 < parts.minerFee
    · simp [producerVouts, minerVouts, prescribedPayouts, length_payoutShares, hfee]
    · simp [producerVouts, minerVouts, prescribedPayouts, length_payoutShares, hfee]
  | _ => simp [producerVouts, minerVouts, prescribedPayouts, length_payoutShares]

variable {parts : BlockRewardParts}

theorem verifyCoinbaseAmounts_eq_ok {hfVersion : Hf} {mode : VerifyMode}
    {blockLeader producer : Payout} :
    (exists next,
      verifyCoinbaseAmounts verify hfVersion mode blockLeader producer parts = .ok next) <->
    forall j p, (nonZeroShares (prescribedPayouts hfVersion mode blockLeader producer parts))[j]? =
        some p -> verify (minerVouts mode parts + j) p.1 p.2 = .ok () := by
  cases mode with
  | posDifferentBlockProducer =>
    unfold prescribedPayouts minerVouts
    rw [nonZeroShares_append, nonZeroShares_fee]
    constructor
    · rintro ⟨next, h⟩ j p hp
      rcases bind_ok.mp h with ⟨voutIndex, hprod, hleader⟩
      rcases verifyPayouts_eq_ok.mp hprod with ⟨hindex, hprod⟩
      rcases verifyPayouts_eq_ok.mp hleader with ⟨_, hleader⟩
      by_cases hj : j < (nonZeroShares (payoutShares producer.payouts parts.minerFee true)).length
      · rw [getElem?_append_left hj] at hp
        exact hprod j p hp
      · rw [getElem?_append_right (le_of_not_gt hj)] at hp
        have hver := hleader _ p hp
        rw [hindex, add_assoc, Nat.add_sub_cancel' (le_of_not_gt hj)] at hver
        exact hver
    · intro h
      have hprod : verifyPayouts verify 0 (payoutShares producer.payouts parts.minerFee true) =
          _ :=
        verifyPayouts_eq_ok.mpr ⟨rfl, fun j p hp =>
          h j p ((getElem?_append_left (List.getElem?_eq_some_iff.mp hp).1).trans hp)⟩
      refine ⟨_, bind_ok.mpr ⟨_, hprod, verifyPayouts_eq_ok.mpr ⟨rfl, fun j p hp => ?_⟩⟩⟩
      have hleader := h ((nonZeroShares (payoutShares producer.payouts parts.minerFee
        true)).length + j) p
      rw [getElem?_append_right (Nat.le_add_right _ _), Nat.add_sub_cancel_left] at hleader
      rw [add_assoc]
      exact hleader hp
  | _ =>
    constructor
    · rintro ⟨next, h⟩
      exact (verifyPayouts_eq_ok.mp h).2
    · intro h
      exact ⟨_, verifyPayouts_eq_ok.mpr ⟨rfl, h⟩⟩

def firstPayout (O : CoinbaseOracles P) (infos : Table PublicKey MasterNodeInfo)
    (b : Block P) (parts : BlockRewardParts) : Nat :=
  minerVouts (verifyMode O (getBlockLeader infos) b) parts

def duePayouts (O : CoinbaseOracles P) (infos : Table PublicKey MasterNodeInfo) (b : Block P)
    (producer : Payout) (parts : BlockRewardParts) : List (AccountPublicAddress × UInt64) :=
  prescribedPayouts b.majorVersion (verifyMode O (getBlockLeader infos) b)
    (getBlockLeader infos) producer parts

/-! ## What an accepted coinbase has passed -/

/-- An output pays a share to an address under the one-time key of its position. -/
def PaysTo (O : CoinbaseOracles P) (height : UInt64) (outputIndex : Nat) (output : TxOut P)
    (p : AccountPublicAddress × UInt64) : Prop :=
  exists key, output.target = .toKey key ∧
    outputKey O height outputIndex p.1 = .ok key ∧ withinOne output.amount p.2 = true

variable {O : CoinbaseOracles P}

theorem verifyCoinbaseTxOutput_eq_ok {minerTx : Transaction P}
    {height : UInt64} {outputIndex : Nat} {receiver : AccountPublicAddress} {reward : UInt64}
    (h : verifyCoinbaseTxOutput O minerTx height outputIndex receiver reward = .ok ()) :
    exists output, minerTx.vout[outputIndex]? = some output ∧
      PaysTo O height outputIndex output (receiver, reward) := by
  rcases orReject_bind_ok.mp h with ⟨output, hout, hbind⟩
  rcases rejectIf_bind_ok.mp hbind with ⟨hamt, hmatch⟩
  refine ⟨output, hout, ?_⟩
  cases htarget : output.target with
  | toKey key =>
    rw [htarget] at hmatch
    rcases bind_ok.mp hmatch with ⟨outKey, hkey, hok⟩
    rw [rejectIf_ok, bne_eq_false_iff_eq] at hok
    exact ⟨key, htarget, hok ▸ hkey, by simpa using hamt⟩
  | _ => rw [htarget] at hmatch; cases hmatch

structure ValidatedMinerTx (O : CoinbaseOracles P) (net : Network)
    (infos : Table PublicKey MasterNodeInfo) (b : Block P) (producer : Payout)
    (parts : BlockRewardParts) : Prop where
  producer_eq : blockProducerPayout O infos (getBlockLeader infos) b = .ok producer
  size : b.minerTx.vout.length =
    firstPayout O infos b parts + (duePayouts O infos b producer parts).length +
      (governancePayout net b parts).length
  paid : forall j p, (nonZeroShares (duePayouts O infos b producer parts))[j]? = some p ->
    exists output, b.minerTx.vout[firstPayout O infos b parts + j]? = some output ∧
      PaysTo O (getBlockHeight b) (firstPayout O infos b parts + j) output p

theorem validateMinerTx_eq_ok {net : Network}
    {infos : Table PublicKey MasterNodeInfo} {b : Block P} (hfork : Hf.hf17POS <= b.majorVersion)
    (h : validateMinerTx O net infos b parts = .ok ()) :
    exists producer, ValidatedMinerTx O net infos b producer parts := by
  unfold validateMinerTx at h
  have hnine : ¬ b.majorVersion < Hf.hf9MasterNodes := by
    rw [Hf.lt_iff_not_le, not_not]
    exact Hf.le_trans (by decide) hfork
  rw [if_neg hnine] at h
  rcases rejectIf_bind_ok.mp h with ⟨_, hbind⟩
  rcases bind_ok.mp hbind with ⟨_, _, hbind⟩
  rcases bind_ok.mp hbind with ⟨producer, hprod, hbind⟩
  rcases rejectIf_bind_ok.mp hbind with ⟨hsize, hbind⟩
  rcases rejectIf_bind_ok.mp hbind with ⟨_, hbind⟩
  rcases bind_ok.mp hbind with ⟨next, hver, _⟩
  refine ⟨producer, hprod, ?_, ?_⟩
  · unfold firstPayout duePayouts
    rw [<- expectedVoutsSize_eq]
    exact bne_eq_false_iff_eq.mp hsize
  · intro j p hp
    exact verifyCoinbaseTxOutput_eq_ok (verifyCoinbaseAmounts_eq_ok.mp ⟨_, hver⟩ j p hp)

theorem checkGovernanceOutput_eq_ok {ctx : CoinbaseContext}
    {b : Block P} {args : CoinbaseArgs} (h : checkGovernanceOutput O ctx b args parts = .ok ())
    (hchk : governanceChecked ctx b args = true) :
    exists output, b.minerTx.vout.getLast? = some output ∧
      PaysTo O ctx.dbHeight (b.minerTx.vout.length - 1) output
        (ctx.net.governanceWalletAddress args.version, parts.governancePaid) := by
  unfold checkGovernanceOutput at h
  rw [if_pos hchk] at h
  rcases rejectIf_bind_ok.mp h with ⟨_, hbind⟩
  rcases orReject_bind_ok.mp hbind with ⟨output, hout, hbind⟩
  rcases rejectIf_bind_ok.mp hbind with ⟨hamt, hmatch⟩
  rw [bne_eq_false_iff_eq] at hamt
  refine ⟨output, hout, ?_⟩
  cases htarget : output.target with
  | toKey key =>
    rw [htarget, rejectIf_ok, Bool.not_eq_false'] at hmatch
    unfold validateGovernanceRewardKey at hmatch
    cases hkey : outputKey O ctx.dbHeight (b.minerTx.vout.length - 1)
        (ctx.net.governanceWalletAddress args.version) with
    | error reason =>
      rw [hkey] at hmatch
      cases hmatch
    | ok correctKey =>
      rw [hkey] at hmatch
      refine ⟨key, htarget, ?_, ?_⟩
      · rw [hkey, eq_of_beq hmatch]
      · rw [hamt]
        simp [withinOne]
  | _ => rw [htarget] at hmatch; cases hmatch

theorem governancePaid_eq {ctx : CoinbaseContext} {b : Block P} {args : CoinbaseArgs}
    (hfork : Hf.hf17POS <= args.version)
    (hcoins : args.alreadyGeneratedCoins ≠ 0) (h : rewardPartsOf ctx b args = .ok parts) :
    parts.governancePaid =
      calcBatchedGovernanceReward ctx.net ctx.networkVersion (getBlockHeight b) +
        (if featurePrivacyTokens <= args.version then args.registrationGovernanceFee
          else 0) := by
  have hten : Hf.hf10Bulletproofs <= args.version := Hf.le_trans (by decide) hfork
  have hnot : ¬ args.version < Hf.hf17POS := by
    rw [Hf.lt_iff_not_le, not_not]
    exact hfork
  rcases bind_ok.mp h with ⟨base, _, hbind⟩
  rcases rejectIf_bind_ok.mp hbind with ⟨_, hbind⟩
  rw [if_neg hcoins] at hbind
  simp only [if_neg hnot, if_pos hten] at hbind
  unfold fixedRewardParts at hbind
  simp only [rejectIf_bind_ok] at hbind
  cases hbind.2.2.2
  rfl

/-- A block whose coinbase passed all validation at the top of the chain.  The
callers have compared the version of the block with that of the network. -/
structure AcceptedCoinbase (O : CoinbaseOracles P) (ctx : CoinbaseContext) (b : Block P)
    (args : CoinbaseArgs) : Prop where
  version_eq : b.majorVersion = args.version
  network_eq : ctx.networkVersion ctx.dbHeight = args.version
  prevalidated : prevalidateMinerTransaction O b ctx.dbHeight args.version = .ok ()
  validated : exists baseReward, validateMinerTransaction O ctx b args = .ok baseReward

section Accepted

variable {O : CoinbaseOracles P} {ctx : CoinbaseContext} {b : Block P} {args : CoinbaseArgs}
  {parts : BlockRewardParts} {producer : Payout}
  (h : AcceptedCoinbase O ctx b args) (hfork : Hf.hf17POS <= args.version)
  (hcoins : args.alreadyGeneratedCoins ≠ 0) (hparts : rewardPartsOf ctx b args = .ok parts)

include h in
theorem AcceptedCoinbase.height_eq : getBlockHeight b = ctx.dbHeight := by
  have hpre := h.prevalidated
  rcases bind_ok.mp hpre with ⟨_, hinput, _⟩
  unfold checkCoinbaseInput at hinput
  unfold getBlockHeight
  split at hinput
  next height hvin =>
    rw [hvin]
    rw [rejectIf_ok, bne_eq_false_iff_eq] at hinput
    exact hinput
  · cases hinput
  · cases hinput

include h in
theorem AcceptedCoinbase.checks :
    exists parts, rewardPartsOf ctx b args = .ok parts ∧
      validateMinerTx O ctx.net ctx.masterNodesInfos b parts = .ok () ∧
      checkGovernanceOutput O ctx b args parts = .ok () := by
  rcases h.validated with ⟨baseReward, hvalid⟩
  rcases rejectIf_bind_ok.mp hvalid with ⟨_, hbind⟩
  rcases orReject_bind_ok.mp hbind with ⟨parts, hparts, hbind⟩
  rcases within_bind_ok.mp hbind with ⟨_, hminer, hbind⟩
  rcases bind_ok.mp hbind with ⟨_, hgov, _⟩
  exact ⟨parts, toOption_eq_some.mp hparts, hminer, hgov⟩

include h hfork hcoins hparts in
theorem AcceptedCoinbase.governanceChecked_eq :
    governanceChecked ctx b args = hasGovernanceOutput ctx.net b parts := by
  have hpaid := governancePaid_eq hfork hcoins hparts
  have hcoins' : (args.alreadyGeneratedCoins != 0) = true := by simpa using hcoins
  unfold governanceChecked hasGovernanceOutput
  rw [hcoins', Bool.true_and]
  cases hht : heightHasGovernanceOutput ctx.net b.majorVersion (getBlockHeight b) with
  | true => simp
  | false =>
    -- Off the payout heights only the registration fees are paid.
    have hbatched : calcBatchedGovernanceReward ctx.net ctx.networkVersion
        (getBlockHeight b) = 0 := by
      rw [h.version_eq, h.height_eq] at hht
      unfold calcBatchedGovernanceReward
      rw [h.height_eq, h.network_eq, hht]
      simp
    rw [hbatched, UInt64.zero_add] at hpaid
    rw [hpaid, h.version_eq]
    by_cases htoks : featurePrivacyTokens <= args.version
    · simp [htoks]
    · simp [htoks]

def checkedIndices (O : CoinbaseOracles P) (ctx : CoinbaseContext) (b : Block P)
    (producer : Payout) (parts : BlockRewardParts) : List Nat :=
  range' (firstPayout O ctx.masterNodesInfos b parts)
      (nonZeroShares (duePayouts O ctx.masterNodesInfos b producer parts)).length ++
    if hasGovernanceOutput ctx.net b parts then [b.minerTx.vout.length - 1] else []

/-- Every output is a native one, all but the output of the miner are the
prescribed payouts in their order, and each of those is verified. -/
structure CoinbaseSound (O : CoinbaseOracles P) (ctx : CoinbaseContext) (b : Block P)
    (producer : Payout) (parts : BlockRewardParts) : Prop where
  toKey : forall output, output ∈ b.minerTx.vout -> exists key, output.target = .toKey key
  prescribed : forall j output,
    b.minerTx.vout[firstPayout O ctx.masterNodesInfos b parts + j]? = some output -> exists p,
      (duePayouts O ctx.masterNodesInfos b producer parts ++
        governancePayout ctx.net b parts)[j]? = some p ∧
      PaysTo O (getBlockHeight b) (firstPayout O ctx.masterNodesInfos b parts + j) output p
  checked : forall i, i < b.minerTx.vout.length -> i < firstPayout O ctx.masterNodesInfos b parts ∨
      i ∈ checkedIndices O ctx b producer parts

/-- The miner is paid by a native output, and nobody's share is zero. -/
def NativeAndNonZero (O : CoinbaseOracles P) (ctx : CoinbaseContext) (b : Block P)
    (producer : Payout) (parts : BlockRewardParts) : Prop :=
  (0 < firstPayout O ctx.masterNodesInfos b parts ->
    forall output, b.minerTx.vout[0]? = some output -> exists key, output.target = .toKey key) ∧
  forall p, p ∈ duePayouts O ctx.masterNodesInfos b producer parts -> p.2 ≠ 0

theorem firstPayout_le_one (O : CoinbaseOracles P) (infos : Table PublicKey MasterNodeInfo)
    (b : Block P) (parts : BlockRewardParts) : firstPayout O infos b parts <= 1 := by
  unfold firstPayout minerVouts
  split
  · split <;> omega
  · omega

include h hfork hcoins hparts in
theorem AcceptedCoinbase.prescribed
    (hminer : ValidatedMinerTx O ctx.net ctx.masterNodesInfos b producer parts)
    (hlastOut : checkGovernanceOutput O ctx b args parts = .ok ())
    (hshares : forall p, p ∈ duePayouts O ctx.masterNodesInfos b producer parts -> p.2 ≠ 0)
    (j : Nat) (output : TxOut P)
    (hout : b.minerTx.vout[firstPayout O ctx.masterNodesInfos b parts + j]? = some output) :
    exists p, (duePayouts O ctx.masterNodesInfos b producer parts ++
        governancePayout ctx.net b parts)[j]? = some p ∧
      PaysTo O (getBlockHeight b) (firstPayout O ctx.masterNodesInfos b parts + j) output p := by
  have hsize := hminer.size
  have hbound := (List.getElem?_eq_some_iff.mp hout).1
  by_cases hj : j < (duePayouts O ctx.masterNodesInfos b producer parts).length
  · have hdue := getElem?_eq_getElem hj
    have hpaid := hminer.paid j
    rw [nonZeroShares_eq_self hshares] at hpaid
    rcases hpaid _ hdue with ⟨output', hout', hpays⟩
    rw [hout] at hout'
    cases hout'
    exact ⟨_, by rw [getElem?_append_left hj, hdue], hpays⟩
  · -- Only the governance output stands behind the payouts.
    unfold governancePayout at hsize
    by_cases hgov : hasGovernanceOutput ctx.net b parts = true
    · rw [if_pos hgov, length_singleton] at hsize
      have hlast : j = (duePayouts O ctx.masterNodesInfos b producer parts).length := by
        omega
      have hindex : b.minerTx.vout.length - 1 = firstPayout O ctx.masterNodesInfos b parts + j := by
        omega
      have hchk := (h.governanceChecked_eq hfork hcoins hparts).trans hgov
      rcases checkGovernanceOutput_eq_ok hlastOut hchk with ⟨output', hout', hpays⟩
      rw [getLast?_eq_getElem?, hindex, hout] at hout'
      cases hout'
      rw [hindex, <- h.height_eq, <- h.version_eq] at hpays
      refine ⟨_, ?_, hpays⟩
      unfold governancePayout
      rw [if_pos hgov, hlast, getElem?_append_right (le_refl _), Nat.sub_self]
      rfl
    · rw [if_neg hgov, length_nil] at hsize
      omega

theorem length_duePayouts_le
    (hminer : ValidatedMinerTx O ctx.net ctx.masterNodesInfos b producer parts)
    (hchk : forall i, i < b.minerTx.vout.length ->
      i < firstPayout O ctx.masterNodesInfos b parts ∨ i ∈ checkedIndices O ctx b producer parts) :
    (duePayouts O ctx.masterNodesInfos b producer parts).length <=
      (nonZeroShares (duePayouts O ctx.masterNodesInfos b producer parts)).length := by
  by_contra hlt
  have hsize := hminer.size
  have hmem := hchk (firstPayout O ctx.masterNodesInfos b parts +
    (nonZeroShares (duePayouts O ctx.masterNodesInfos b producer parts)).length) (by omega)
  unfold governancePayout at hsize
  unfold checkedIndices at hmem
  by_cases hgov : hasGovernanceOutput ctx.net b parts = true
  · rw [if_pos hgov, length_singleton] at hsize
    rw [if_pos hgov, mem_append, mem_range'_1, mem_singleton] at hmem
    omega
  · rw [if_neg hgov, append_nil, mem_range'_1] at hmem
    omega

/-- A coinbase is sound exactly when its miner output is native and no share is zero. -/
theorem coinbaseSound_iff (h : AcceptedCoinbase O ctx b args)
    (hfork : Hf.hf17POS <= args.version) (hcoins : args.alreadyGeneratedCoins ≠ 0) :
    exists parts producer, rewardPartsOf ctx b args = .ok parts ∧
      blockProducerPayout O ctx.masterNodesInfos (getBlockLeader ctx.masterNodesInfos) b =
        .ok producer ∧ (CoinbaseSound O ctx b producer parts <->
        NativeAndNonZero O ctx b producer parts) := by
  rcases h.checks with ⟨parts, hparts, hvalid, hlastOut⟩
  rcases validateMinerTx_eq_ok (h.version_eq ▸ hfork) hvalid with ⟨producer, hminer⟩
  refine ⟨parts, producer, hparts, hminer.producer_eq, ?_⟩
  have hsize := hminer.size
  constructor
  · intro hsound
    refine ⟨?_, ne_zero_of_length_nonZeroShares (length_duePayouts_le hminer hsound.checked)⟩
    intro _ output hout
    exact hsound.toKey output (mem_of_getElem? hout)
  · rintro ⟨hnative, hshares⟩
    have hprescribed := h.prescribed hfork hcoins hparts hminer hlastOut hshares
    refine ⟨?_, hprescribed, ?_⟩
    · intro output hmem
      rcases mem_iff_getElem?.mp hmem with ⟨i, hi⟩
      by_cases hfirst : i < firstPayout O ctx.masterNodesInfos b parts
      · have hzero : i = 0 := by
          have hone := firstPayout_le_one O ctx.masterNodesInfos b parts
          omega
        rw [hzero] at hi hfirst
        exact hnative hfirst output hi
      · rcases Nat.exists_eq_add_of_le (le_of_not_gt hfirst) with ⟨j, rfl⟩
        rcases hprescribed j output hi with ⟨_, _, key, hkey, _⟩
        exact ⟨key, hkey⟩
    · intro i hi
      unfold checkedIndices
      unfold governancePayout at hsize
      rw [nonZeroShares_eq_self hshares, mem_append, mem_range'_1]
      by_cases hgov : hasGovernanceOutput ctx.net b parts = true
      · rw [if_pos hgov, mem_singleton]
        rw [if_pos hgov, length_singleton] at hsize
        omega
      · rw [if_neg hgov, length_nil] at hsize
        omega

end Accepted

/-! ## Coinbases with an unchecked output -/

set_option maxRecDepth 20000

/-- Key derivation that leaves the spend key as it is. -/
def plainOracles : CoinbaseOracles Unit where
  generateKeyDerivation := fun _ _ => some zeroKey
  derivePublicKey := fun _ _ spend => some spend
  generatePosQuorum := fun _ _ _ _ => { validators := [], workers := [] }
  formatKey := fun _ => ""
  formatBlockHash := fun _ => ""

def sampleAddress (n : BitVec 256) : AccountPublicAddress := ⟨⟨n⟩, ⟨n⟩⟩

/-- A chain with one master node: its operator, who takes the given portions off
the top, and a second contributor. -/
def oneNodeContext (portionsForOperator : UInt64) : CoinbaseContext where
  net :=
    { type := .mainnet
      governanceRewardIntervalInBlocks := 5040
      governanceWalletAddress := fun _ => sampleAddress 9 }
  networkVersion := fun _ => .hf22PrivacyTokens
  dbHeight := 7
  currentBlockCumulWeightMedian := 0
  lastBlocksWeightMedian := 0
  masterNodesInfos := Table.empty.set ⟨1⟩
    { contributors := [⟨sampleAddress 3, 5⟩, ⟨sampleAddress 4, 5⟩]
      operatorAddress := sampleAddress 3
      portionsForOperator := portionsForOperator
      stakingRequirement := 10
      totalContributed := 10
      activeSinceHeight := 0
      lastRewardBlockHeight := 0
      lastRewardTransactionIndex := 0 }
  uninitialised := 0

def sampleArgs (fee : UInt64) : CoinbaseArgs where
  cumulativeBlockWeight := 0
  fee := fee
  alreadyGeneratedCoins := 1
  version := .hf22PrivacyTokens
  registrationGovernanceFee := 0

def minerBlock (vout : List (TxOut Unit)) : Block Unit :=
  { emptyBlock Unit with
    majorVersion := .hf22PrivacyTokens
    minorVersion := 22
    minerTx :=
      { Transaction.setNull Unit with
        version := .v4TxTypes
        unlockTime := 67
        vin := [.gen 7]
        vout := vout
        extra := some [.masterNodeWinner ⟨1⟩] } }

def toAddress (amount : UInt64) (n : BitVec 256) : TxOut Unit where
  amount := amount
  target := .toKey ⟨n⟩

def toZyphora (amount : UInt64) : TxOut Unit where
  amount := amount
  target := .zyphora
    { stealthAddress := ⟨8⟩, amountCommitment := (), blindedTokenId := ()
      encryptedAmount := 0, mixAttr := 0, version := 0 }

def honestBlock : Block Unit :=
  minerBlock [toAddress 5 2, toAddress 3125000000 3, toAddress 3125000000 4]

theorem coinbaseSound_iff_honestBlock :
    AcceptedCoinbase plainOracles (oneNodeContext 0) honestBlock (sampleArgs 5) ∧
    exists parts producer, rewardPartsOf (oneNodeContext 0) honestBlock (sampleArgs 5) = .ok parts ∧
      blockProducerPayout plainOracles (oneNodeContext 0).masterNodesInfos
        (getBlockLeader (oneNodeContext 0).masterNodesInfos) honestBlock = .ok producer ∧
      (CoinbaseSound plainOracles (oneNodeContext 0) honestBlock producer parts <->
        NativeAndNonZero plainOracles (oneNodeContext 0) honestBlock producer parts) :=
  have haccepted : AcceptedCoinbase plainOracles (oneNodeContext 0) honestBlock
      (sampleArgs 5) :=
    { version_eq := rfl, network_eq := rfl, prevalidated := rfl, validated := ⟨_, rfl⟩ }
  ⟨haccepted, coinbaseSound_iff haccepted (by decide) (by decide)⟩

def zyphoraMinerBlock : Block Unit :=
  minerBlock [toZyphora 5, toAddress 3125000000 3, toAddress 3125000000 4]

/-- A privacy-token output stands in the place of a payout with share zero. -/
def zyphoraShareBlock : Block Unit :=
  minerBlock [toAddress 6250000000 3, toZyphora 1]

/-- Coinbases with a privacy-token output are accepted. -/
theorem zyphoraCoinbase_accepted :
    (AcceptedCoinbase plainOracles (oneNodeContext 0) zyphoraMinerBlock (sampleArgs 5) ∧
      toZyphora 5 ∈ zyphoraMinerBlock.minerTx.vout) ∧
    (AcceptedCoinbase plainOracles (oneNodeContext (UInt64.ofNat stakingPortions))
        zyphoraShareBlock (sampleArgs 0) ∧ toZyphora 1 ∈ zyphoraShareBlock.minerTx.vout) ∧
    forall amount key, (toZyphora amount).target ≠ .toKey key :=
  ⟨⟨{ version_eq := rfl, network_eq := rfl, prevalidated := rfl, validated := ⟨_, rfl⟩ },
      by decide⟩,
    ⟨{ version_eq := rfl, network_eq := rfl, prevalidated := rfl, validated := ⟨_, rfl⟩ },
      by decide⟩, fun _ _ h => nomatch h⟩

end Beldex.Coinbase
