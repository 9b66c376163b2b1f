import Beldex.Coinbase.Built

/-!
# Templates and their validation

A coinbase that was built in the state it is validated in.  The two sides agree on
the leader, the keys and the governance output.  They part where a payout with a zero
share, which has an output but is not verified, stands before one with a share, and
where the fees that are left after the weight penalty are not the same.
-/

namespace Beldex.Coinbase

open Basic Crypto Foundation Foundation.Fallible List

variable {P : Type}

/-! ## The state of a template -/

def Network.Configured (net : Network) : Prop :=
  net.governanceRewardIntervalInBlocks = 5040 ∨ net.governanceRewardIntervalInBlocks = 500 ∨
    net.governanceRewardIntervalInBlocks = 100

def templateArgs (ctx : CoinbaseContext) (args : CoinbaseArgs) (extraNonce : List UInt8) :
    TemplateArgs where
  height := ctx.dbHeight
  medianWeight := ctx.currentBlockCumulWeightMedian
  alreadyGeneratedCoins := args.alreadyGeneratedCoins
  currentBlockWeight := args.cumulativeBlockWeight
  fee := args.fee
  extraNonce := extraNonce
  hardForkVersion := args.version

/-- The producer of a POS block is the one that the quorum of its round names. -/
structure SameProducer (O : CoinbaseOracles P) (ctx : CoinbaseContext) (b : Block P)
    (context : BeldexMinerTxContext) : Prop where
  sizes : verifyPosQuorumSizes (posQuorumOf O context.blockLeader b) = true
  key : blockProducerKey O context.blockLeader b = context.posBlockProducer.key
  round_zero : b.pos.round = 0 -> context.posBlockProducer.key = context.blockLeader.key
  payout : exists info, ctx.masterNodesInfos.find? context.posBlockProducer.key = some info ∧
    context.posBlockProducer = masterNodeInfoToPayout context.posBlockProducer.key info

/-- A block is validated in the state that its template was made in. -/
structure SameState (O : CoinbaseOracles P) (ctx : CoinbaseContext) (b : Block P)
    (args : CoinbaseArgs) (context : BeldexMinerTxContext) : Prop where
  configured : ctx.net.Configured
  version : b.majorVersion = args.version
  network : ctx.networkVersion ctx.dbHeight = args.version
  leader : context.blockLeader = getBlockLeader ctx.masterNodesInfos
  batched : context.batchedGovernance =
    calcBatchedGovernanceReward ctx.net ctx.networkVersion ctx.dbHeight
  registrations : context.registrationGovernanceFee = args.registrationGovernanceFee
  pos : blockHasPosComponents b = context.pos
  producer : context.pos = true -> SameProducer O ctx b context

/-- The parts of the reward that the validator computes.  On the testnet it does not take
the weight penalty off the fees of early blocks. -/
def validatedParts (ctx : CoinbaseContext) (args : CoinbaseArgs) (built : BlockRewardParts) :
    BlockRewardParts :=
  if ctx.net.type == .testnet && decide (ctx.dbHeight < 386000) then
    { built with
      minerFee := args.fee - paidRegistrationFee args.version args.registrationGovernanceFee }
  else
    built

section Agreement

variable {O : CoinbaseOracles P} {ctx : CoinbaseContext} {b : Block P} {args : CoinbaseArgs}
  {context : BeldexMinerTxContext} {uninitialised : UInt64} {keys : TemplateKeys}
  {extraNonce : List UInt8} {built : BlockRewardParts}

theorem SameState.verifyMode_eq (h : SameState O ctx b args context) :
    verifyMode O (getBlockLeader ctx.masterNodesInfos) b = templateMode context := by
  unfold verifyMode templateMode
  rw [<- h.leader, h.pos]
  cases hpos : context.pos with
  | true => rw [(h.producer hpos).key]
  | false => rfl

variable (hfork : Hf.hf17POS <= args.version) (hcoins : args.alreadyGeneratedCoins ≠ 0)
  (hst : SameState O ctx b args context)
  (h : Built O ctx.net uninitialised keys (templateArgs ctx args extraNonce) context built
  b.minerTx)

include h in
theorem Built.getBlockHeight_eq : getBlockHeight b = ctx.dbHeight := by
  unfold getBlockHeight
  rw [h.vin]
  rfl

include h in
theorem Built.winner_eq : getMasterNodeWinnerFromTxExtra b.minerTx = context.blockLeader.key := by
  unfold getMasterNodeWinnerFromTxExtra
  rw [h.extra]
  unfold templateExtra
  simp only [Option.getD_some, filterMap_append]
  split <;> split <;> split <;> rfl

/-! ## The rewards of the two sides -/

def feeAfterPenalty (base : BaseReward) (fee : UInt64) : UInt64 :=
  if fee <= base.rewardUnpenalized - base.reward then 0
  else fee - (base.rewardUnpenalized - base.reward)

theorem minerFeeAfterPenalty_eq (base : BaseReward) (context : BeldexBlockRewardContext) :
    minerFeeAfterPenalty base context =
      if context.testnetOverride then context.fee else feeAfterPenalty base context.fee :=
  rfl

theorem feeAfterPenalty_le (base : BaseReward) (fee : UInt64) :
    feeAfterPenalty base fee <= fee := by
  unfold feeAfterPenalty
  split
  · exact UInt64.zero_le
  next hpenalty =>
    exact UInt64.sub_le (UInt64.le_of_lt (UInt64.not_le.mp hpenalty))

structure TemplateReward (uninitialised : UInt64) (ctx : CoinbaseContext) (args : CoinbaseArgs)
    (context : BeldexMinerTxContext) (built : BlockRewardParts) (base : BaseReward) : Prop where
  base_eq : getBaseBlockReward uninitialised ctx.currentBlockCumulWeightMedian
    args.cumulativeBlockWeight args.alreadyGeneratedCoins args.version ctx.dbHeight = .ok base
  reward_ne_zero : base.reward ≠ 0
  unpenalized : base.rewardUnpenalized = blockRewardHf17Pos
  registered : paidRegistrationFee args.version args.registrationGovernanceFee <=
    feeAfterPenalty base args.fee
  built_eq : built =
    { masterNodeTotal := mnRewardHf17Pos
      governanceDue := foundationRewardHf17
      governancePaid := context.batchedGovernance +
        paidRegistrationFee args.version args.registrationGovernanceFee
      baseMiner := 0
      minerFee := feeAfterPenalty base args.fee -
        paidRegistrationFee args.version args.registrationGovernanceFee
      originalBaseReward := base.reward }

include hfork hcoins hst h in
theorem Built.templateReward :
    exists base, TemplateReward uninitialised ctx args context built base := by
  rcases (getBeldexBlockReward_eq_ok hfork hcoins).mp h.parts_eq with
    ⟨base, hbase, hne, hfee, hrew, hparts⟩
  unfold fixedParts at hparts
  rw [minerFeeAfterPenalty_eq, hst.registrations] at hfee hparts
  exact ⟨base, hbase, hne, hrew, hfee, hparts.symm⟩

variable {parts : BlockRewardParts}

include hfork hcoins in
theorem uninitialised_eq {b : Block P} (h : rewardPartsOf ctx b args = .ok parts)
    (hone : getBlockHeight b = 1) : ctx.uninitialised = blockRewardHf17Pos := by
  rcases (getBeldexBlockReward_eq_ok hfork hcoins).mp h with ⟨base, hbase, _, _, hrew, _⟩
  simp only [hone] at hbase
  cases hbase
  exact hrew

variable {base : BaseReward}

include hfork hcoins hst in
theorem TemplateReward.rewardPartsOf_eq
    (h : TemplateReward uninitialised ctx args context built base)
    (hht : getBlockHeight b = ctx.dbHeight)
    (hone : ctx.dbHeight = 1 -> ctx.uninitialised = blockRewardHf17Pos) :
    rewardPartsOf ctx b args = .ok (validatedParts ctx args built) := by
  have hbase : getBaseBlockReward ctx.uninitialised ctx.currentBlockCumulWeightMedian
      args.cumulativeBlockWeight args.alreadyGeneratedCoins args.version ctx.dbHeight =
        .ok base := by
    rw [<- h.base_eq]
    by_cases hfirst : ctx.dbHeight = 1
    · have hset := h.base_eq
      have hunpenalized := h.unpenalized
      rw [hfirst] at hset ⊢
      cases hset
      rw [hone hfirst, <- hunpenalized]
    · have hbranch : ¬ (56500 <= ctx.dbHeight ∧ args.version < Hf.hf17POS) :=
        fun h => not_lt_hf17 hfork h.2
      unfold getBaseBlockReward
      rw [if_neg hfirst, if_neg hfirst, if_neg hbranch, if_neg hbranch]
  have hfees := feeAfterPenalty_le base args.fee
  unfold rewardPartsOf
  simp only [if_pos hfork, hht]
  refine (getBeldexBlockReward_eq_ok hfork hcoins).mpr
    ⟨base, hbase, h.reward_ne_zero, ?_, h.unpenalized, ?_⟩
  · rw [minerFeeAfterPenalty_eq]
    split
    · exact UInt64.le_trans h.registered hfees
    · exact h.registered
  · unfold fixedParts validatedParts
    rw [minerFeeAfterPenalty_eq, h.built_eq, hst.batched]
    split
    · rfl
    · rfl

/-! ## The rules of the master node list -/

variable {p : AccountPublicAddress × UInt64}

theorem verifyCoinbaseTxOutput_of_paysTo {minerTx : Transaction P} {height : UInt64}
    {outputIndex : Nat} {output : TxOut P} (hout : minerTx.vout[outputIndex]? = some output)
    (hpays : PaysTo O height outputIndex output p) :
    verifyCoinbaseTxOutput O minerTx height outputIndex p.1 p.2 = .ok () := by
  rcases hpays with ⟨key, htarget, hkey, hamt⟩
  refine orReject_bind_ok.mpr ⟨output, hout, rejectIf_bind_ok.mpr ⟨?_, ?_⟩⟩
  · rw [hamt]
    rfl
  · rw [htarget]
    refine bind_ok.mpr ⟨key, hkey, rejectIf_ok.mpr ?_⟩
    rw [bne_eq_false_iff_eq]

theorem SameState.producer_found (h : SameState O ctx b args context) :
    exists producer,
      blockProducerPayout O ctx.masterNodesInfos (getBlockLeader ctx.masterNodesInfos) b =
        .ok producer ∧
      forall parts, prescribedPayouts b.majorVersion (templateMode context)
        (getBlockLeader ctx.masterNodesInfos) producer parts =
          templatePayouts args.version context parts := by
  unfold blockProducerPayout
  rw [h.verifyMode_eq, <- h.leader, h.version]
  cases hpos : context.pos with
  | false =>
    have hmode : templateMode context = .miner := by
      unfold templateMode
      rw [hpos]
      rfl
    unfold templatePayouts
    rw [hmode, if_pos rfl]
    exact ⟨_, rfl, fun _ => rfl⟩
  | true =>
    have hprod := h.producer hpos
    rcases hprod.payout with ⟨info, hinfo, hpay⟩
    have hmode : templateMode context ≠ .miner := by
      unfold templateMode
      rw [if_pos hpos]
      split <;> simp
    rw [if_neg hmode, hprod.key]
    refine ⟨context.posBlockProducer, ?_, fun _ => rfl⟩
    refine orReject_bind_ok.mpr ⟨info, hinfo, ?_⟩
    rw [<- hpay]

theorem SameState.checkPosQuorum_eq (h : SameState O ctx b args context) :
    checkPosQuorum O (getBlockLeader ctx.masterNodesInfos) b = .ok () := by
  unfold checkPosQuorum
  rw [h.verifyMode_eq, <- h.leader, h.pos]
  cases hpos : context.pos with
  | false => rfl
  | true =>
    have hprod := h.producer hpos
    rw [if_pos rfl]
    refine rejectIf_bind_ok.mpr ⟨?_, rejectIf_ok.mpr ?_⟩
    · rw [hprod.sizes]
      rfl
    · by_cases hround : b.pos.round = 0
      · unfold templateMode
        rw [if_pos hpos, if_pos (hprod.round_zero hround)]
        exact Bool.and_false _
      · rw [beq_false_of_ne hround]
        rfl

include hfork hst h in
theorem Built.validateMinerTx_iff :
    validateMinerTx O ctx.net ctx.masterNodesInfos b parts = .ok () <->
      parts.baseMiner = 0 ∧
      b.minerTx.vout.length = minerVouts (templateMode context) parts +
        (templatePayouts args.version context parts).length +
        (governancePayout ctx.net b parts).length ∧
      forall j p, (nonZeroShares (templatePayouts args.version context parts))[j]? = some p ->
        exists output,
          b.minerTx.vout[minerVouts (templateMode context) parts + j]? = some output ∧
          PaysTo O ctx.dbHeight (minerVouts (templateMode context) parts + j) output p := by
  have hnine : ¬ b.majorVersion < Hf.hf9MasterNodes := by
    rw [Hf.lt_iff_not_le, not_not, hst.version]
    exact Hf.le_trans (by decide) hfork
  have hbase : (decide (Hf.hf17POS <= b.majorVersion) && parts.baseMiner != 0) = false <->
      parts.baseMiner = 0 := by
    simp [hst.version, hfork]
  rcases hst.producer_found with ⟨producer, hprod, hpayouts⟩
  unfold validateMinerTx
  rw [if_neg hnine]
  constructor
  · intro hvalid
    rcases rejectIf_bind_ok.mp hvalid with ⟨_, hbind⟩
    rcases bind_ok.mp hbind with ⟨_, _, hbind⟩
    rcases bind_ok.mp hbind with ⟨found, hfound, hbind⟩
    cases hfound.symm.trans hprod
    rcases rejectIf_bind_ok.mp hbind with ⟨hsize, hbind⟩
    rcases rejectIf_bind_ok.mp hbind with ⟨hzero, hbind⟩
    rcases bind_ok.mp hbind with ⟨next, hver, _⟩
    rw [bne_eq_false_iff_eq, expectedVoutsSize_eq, hst.verifyMode_eq, hpayouts] at hsize
    rw [hst.verifyMode_eq, h.getBlockHeight_eq] at hver
    refine ⟨hbase.mp hzero, hsize, ?_⟩
    rw [<- hpayouts]
    intro j p hp
    exact verifyCoinbaseTxOutput_eq_ok (verifyCoinbaseAmounts_eq_ok.mp ⟨_, hver⟩ j p hp)
  · rintro ⟨hzero, hsize, hpaid⟩
    rw [<- hpayouts] at hpaid
    rcases verifyCoinbaseAmounts_eq_ok.mpr fun j p hp =>
      (hpaid j p hp).elim fun _ hout =>
        verifyCoinbaseTxOutput_of_paysTo hout.1 hout.2 with ⟨next, hver⟩
    refine rejectIf_bind_ok.mpr ⟨?_, ?_⟩
    · rw [h.winner_eq, hst.leader, bne_eq_false_iff_eq]
    · refine bind_ok.mpr ⟨(), hst.checkPosQuorum_eq, ?_⟩
      refine bind_ok.mpr ⟨producer, hprod, ?_⟩
      refine rejectIf_bind_ok.mpr ⟨?_, rejectIf_bind_ok.mpr ⟨hbase.mpr hzero, ?_⟩⟩
      · rw [bne_eq_false_iff_eq, expectedVoutsSize_eq, hst.verifyMode_eq, hpayouts]
        exact hsize
      · rw [hst.verifyMode_eq, h.getBlockHeight_eq]
        exact bind_ok.mpr ⟨next, hver, rfl⟩

/-! ## The governance output -/

theorem TemplateReward.governancePaid_eq
    (h : TemplateReward uninitialised ctx args context built base) :
    built.governancePaid = context.batchedGovernance +
      paidRegistrationFee args.version args.registrationGovernanceFee := by
  rw [h.built_eq]

theorem SameState.batched_spec (h : SameState O ctx b args context)
    (hfork : Hf.hf17POS <= args.version) :
    (heightHasGovernanceOutput ctx.net args.version ctx.dbHeight = true <->
      context.batchedGovernance ≠ 0) ∧
    context.batchedGovernance.toNat <= 8500000000000000000 := by
  have hnine : ¬ args.version <= Hf.hf9MasterNodes := fun hle =>
    absurd (Hf.le_trans hfork hle) (by decide)
  rw [h.batched]
  unfold calcBatchedGovernanceReward
  rw [h.network, if_neg hnine]
  cases hht : heightHasGovernanceOutput ctx.net args.version ctx.dbHeight with
  | false => simp
  | true =>
    simp only [Bool.not_true, Bool.false_eq_true, if_false, true_iff]
    split
    · decide
    · rcases h.configured with hintv | hintv | hintv
      all_goals
        rw [hintv]
        decide

theorem SameState.batched_eq_zero (h : SameState O ctx b args context)
    (hfork : Hf.hf17POS <= args.version)
    (hht : heightHasGovernanceOutput ctx.net args.version ctx.dbHeight ≠ true) :
    context.batchedGovernance = 0 := by
  by_contra hne
  exact hht ((h.batched_spec hfork).1.mpr hne)

theorem SameState.hasGovernanceOutput_iff (h : SameState O ctx b args context)
    (hfork : Hf.hf17POS <= args.version) (hht : getBlockHeight b = ctx.dbHeight)
    (hpaid : parts.governancePaid = context.batchedGovernance +
      paidRegistrationFee args.version args.registrationGovernanceFee)
    (hbatched : heightHasGovernanceOutput ctx.net args.version ctx.dbHeight = true ->
      parts.governancePaid ≠ 0) :
    hasGovernanceOutput ctx.net b parts = true <-> parts.governancePaid ≠ 0 := by
  unfold hasGovernanceOutput
  rw [h.version, hht]
  cases hgov : heightHasGovernanceOutput ctx.net args.version ctx.dbHeight with
  | true => simp [hbatched hgov]
  | false =>
    -- off the payout heights only the registration fees are paid
    have hzero := h.batched_eq_zero hfork (by rw [hgov]; exact Bool.false_ne_true)
    rw [hzero, UInt64.zero_add] at hpaid
    unfold paidRegistrationFee at hpaid
    by_cases htoks : featurePrivacyTokens <= args.version
    · simp [htoks, UInt64.pos_iff_ne_zero]
    · rw [if_neg htoks] at hpaid
      simp [htoks, hpaid]

theorem SameState.governanceChecked_iff (h : SameState O ctx b args context)
    (hcoins : args.alreadyGeneratedCoins ≠ 0) (hht : getBlockHeight b = ctx.dbHeight) :
    governanceChecked ctx b args = true <->
      heightHasGovernanceOutput ctx.net args.version ctx.dbHeight = true ∨
        paidRegistrationFee args.version args.registrationGovernanceFee ≠ 0 := by
  unfold governanceChecked paidRegistrationFee
  rw [h.version, hht]
  by_cases htoks : featurePrivacyTokens <= args.version
  · simp [hcoins, htoks, UInt64.pos_iff_ne_zero]
  · simp [hcoins, htoks]

include hfork hcoins h in
theorem Built.governance_output (hpaid : built.governancePaid ≠ 0) :
    exists key, b.minerTx.vout.getLast? =
        some { amount := built.governancePaid, target := .toKey key } ∧
      outputKey O ctx.dbHeight (b.minerTx.vout.length - 1)
        (ctx.net.governanceWalletAddress args.version) = .ok key := by
  have houts := h.outputs
  have hgov : governanceRewards ctx.net (templateArgs ctx args extraNonce) built =
      [⟨.governance, ctx.net.governanceWalletAddress args.version, built.governancePaid⟩] :=
    if_pos ⟨hfork, hcoins, hpaid⟩
  rw [hgov] at houts
  rcases rewardOutputs_eq_ok houts with ⟨hamts, hall⟩
  have hlen := congrArg length hamts
  rw [length_map, length_map, length_append, length_singleton] at hlen
  have hlast := hall (b.minerTx.vout.length - 1)
    ⟨.governance, ctx.net.governanceWalletAddress args.version, built.governancePaid⟩ (by
      rw [hlen, Nat.add_sub_cancel, getElem?_append_right (le_refl _), Nat.sub_self]
      rfl)
  rcases hlast with ⟨output, hout, hmade⟩
  have htype : RewardType.governance ≠ RewardType.miner := by
    decide
  rcases rewardOutput_eq_ok htype hmade with ⟨key, rfl, hkey⟩
  rw [zero_add] at hkey
  rw [getLast?_eq_getElem?]
  exact ⟨key, hout, hkey⟩

include hfork hcoins hst h in
theorem Built.checkGovernanceOutput_iff (hparts : parts.governancePaid = built.governancePaid)
    (hrew : TemplateReward uninitialised ctx args context built base) :
    checkGovernanceOutput O ctx b args parts = .ok () <->
      (heightHasGovernanceOutput ctx.net args.version ctx.dbHeight = true ->
        built.governancePaid ≠ 0) := by
  have hchk := hst.governanceChecked_iff hcoins h.getBlockHeight_eq
  unfold checkGovernanceOutput
  constructor
  · intro hok hht
    rw [if_pos (hchk.mpr (Or.inl hht))] at hok
    have hfirst := (rejectIf_bind_ok.mp hok).1
    simpa [hfork, hparts] using hfirst
  · intro hbatched
    split
    next hcheck =>
      have hne : built.governancePaid ≠ 0 := by
        by_cases hht : heightHasGovernanceOutput ctx.net args.version ctx.dbHeight = true
        · exact hbatched hht
        · rw [hrew.governancePaid_eq, hst.batched_eq_zero hfork hht, UInt64.zero_add]
          exact (hchk.mp hcheck).resolve_left hht
      rcases h.governance_output hfork hcoins hne with ⟨key, hlast, hkey⟩
      refine rejectIf_bind_ok.mpr ⟨by simp [hparts, hne], ?_⟩
      refine orReject_bind_ok.mpr ⟨_, hlast, rejectIf_bind_ok.mpr ⟨?_, ?_⟩⟩
      · rw [hparts, bne_eq_false_iff_eq]
      · refine rejectIf_ok.mpr ?_
        unfold validateGovernanceRewardKey
        rw [hkey]
        simp
    · rfl

/-! ## The amounts -/

/-- A payout of the builder takes the place of a share that the validator looks for. -/
def TakesPlace (O : CoinbaseOracles P) (height : UInt64) (firstVout : Nat)
    (payouts : List (AccountPublicAddress × UInt64)) (place : Nat)
    (p : AccountPublicAddress × UInt64) : Prop :=
  exists q, payouts[place]? = some q ∧ withinOne q.2 p.2 = true ∧
    outputKey O height (firstVout + place) q.1 = outputKey O height (firstVout + place) p.1

/-- The two sides of a template agree: coins were generated before, the first block has the
reward that it is compared with, there are as many outputs as the validator counts, and the
amounts stay in range.  A share that is not zero is looked for as many places before its own
output as there are zero shares before it. -/
structure TemplateAgrees (O : CoinbaseOracles P) (ctx : CoinbaseContext) (args : CoinbaseArgs)
    (context : BeldexMinerTxContext) (built validated : BlockRewardParts) : Prop where
  coins : args.alreadyGeneratedCoins ≠ 0
  first : ctx.dbHeight = 1 -> ctx.uninitialised = blockRewardHf17Pos
  size : minerVouts (templateMode context) built +
      (templatePayouts args.version context built).length =
    minerVouts (templateMode context) validated +
      (templatePayouts args.version context validated).length
  aligned : forall before p after,
    templatePayouts args.version context validated = before ++ p :: after -> p.2 ≠ 0 ->
    TakesPlace O ctx.dbHeight (minerVouts (templateMode context) validated)
      (templatePayouts args.version context built) (nonZeroShares before).length p
  fits : context.batchedGovernance.toNat + mnRewardHf17Pos.toNat +
    (validated.minerFee.toNat +
      (paidRegistrationFee args.version args.registrationGovernanceFee).toNat) + 1 < 2 ^ 64
  covered : validated.minerFee.toNat <=
    context.batchedGovernance.toNat + mnRewardHf17Pos.toNat + built.minerFee.toNat

variable {validated : BlockRewardParts}

variable {j : Nat}

include h in
theorem Built.payout_output {q : AccountPublicAddress × UInt64}
    (hq : (templatePayouts args.version context built)[j]? = some q) :
    exists key, b.minerTx.vout[minerVouts (templateMode context) built + j]? =
        some { amount := q.2, target := .toKey key } ∧
      outputKey O ctx.dbHeight (minerVouts (templateMode context) built + j) q.1 = .ok key := by
  have hlt := (List.getElem?_eq_some_iff.mp hq).1
  have hrew : (minerReward context built ++
      ((templatePayouts args.version context built).map fun p => ⟨.mnode, p.1, p.2⟩) ++
      governanceRewards ctx.net (templateArgs ctx args extraNonce) built)[
        minerVouts (templateMode context) built + j]? = some ⟨.mnode, q.1, q.2⟩ := by
    rw [<- length_minerReward, append_assoc, getElem?_append_right (Nat.le_add_right _ _),
      Nat.add_sub_cancel_left, getElem?_append_left (by rw [length_map]; exact hlt),
      getElem?_map, hq]
    rfl
  rcases (rewardOutputs_eq_ok h.outputs).2 _ _ hrew with ⟨output, hout, hmade⟩
  have htype : RewardType.mnode ≠ RewardType.miner := by
    decide
  rcases rewardOutput_eq_ok htype hmade with ⟨key, rfl, hkey⟩
  rw [zero_add] at hkey
  exact ⟨key, hout, hkey⟩

include h in
theorem Built.length_vout :
    b.minerTx.vout.length = minerVouts (templateMode context) built +
      (templatePayouts args.version context built).length +
      (governanceRewards ctx.net (templateArgs ctx args extraNonce) built).length := by
  have hlen := congrArg length (rewardOutputs_eq_ok h.outputs).1
  rw [length_map, length_map, length_append, length_append, length_map, length_minerReward] at hlen
  exact hlen

theorem length_le_templatePayouts (hf : Hf) (context : BeldexMinerTxContext)
    (parts : BlockRewardParts) :
    context.blockLeader.payouts.length <= (templatePayouts hf context parts).length := by
  unfold templatePayouts prescribedPayouts
  split
  · rw [length_payoutShares]
  · rw [length_payoutShares]
  · rw [length_append, length_payoutShares]
    exact Nat.le_add_left _ _

include h in
theorem Built.vout_ne_nil : b.minerTx.vout ≠ [] := by
  intro hnil
  have hlen := h.length_vout
  have hleader := length_pos_iff.mpr h.leader
  have hpayouts := length_le_templatePayouts args.version context built
  rw [hnil, length_nil] at hlen
  omega

include h in
theorem Built.paid_iff_aligned
    (hsize : minerVouts (templateMode context) built +
        (templatePayouts args.version context built).length =
      minerVouts (templateMode context) validated +
        (templatePayouts args.version context validated).length)
    (hp : (nonZeroShares (templatePayouts args.version context validated))[j]? = some p) :
    (exists output,
        b.minerTx.vout[minerVouts (templateMode context) validated + j]? = some output ∧
        PaysTo O ctx.dbHeight (minerVouts (templateMode context) validated + j) output p) <->
      TakesPlace O ctx.dbHeight (minerVouts (templateMode context) validated)
        (templatePayouts args.version context built) j p := by
  have hvouts : minerVouts (templateMode context) built =
      minerVouts (templateMode context) validated := by
    cases hmode : templateMode context with
    | miner =>
      unfold templatePayouts prescribedPayouts at hsize
      rw [hmode, length_payoutShares, length_payoutShares] at hsize
      omega
    | _ => rfl
  have hlt := (List.getElem?_eq_some_iff.mp hp).1
  have hfilter : (nonZeroShares (templatePayouts args.version context validated)).length <=
      (templatePayouts args.version context validated).length := length_filter_le _ _
  have hbound : j < (templatePayouts args.version context built).length := by
    omega
  rcases h.payout_output (getElem?_eq_getElem hbound) with ⟨key, hout, hkey⟩
  rw [hvouts] at hout hkey
  constructor
  · rintro ⟨output, hout', key', htarget, hkey', hamt⟩
    cases hout.symm.trans hout'
    cases htarget
    exact ⟨_, getElem?_eq_getElem hbound, hamt, hkey.trans hkey'.symm⟩
  · rintro ⟨q, hq, hamt, hsame⟩
    cases (getElem?_eq_getElem hbound).symm.trans hq
    exact ⟨_, hout, key, rfl, hsame.symm.trans hkey, hamt⟩

variable {ps : List (AccountPublicAddress × UInt64)}

theorem exists_split_of_nonZeroShares (h : (nonZeroShares ps)[j]? = some p) :
    exists before after, ps = before ++ p :: after ∧ p.2 ≠ 0 ∧
      (nonZeroShares before).length = j := by
  rcases List.getElem?_eq_some_iff.mp h with ⟨hlt, hget⟩
  have hcut := (nonZeroShares ps).take_append_drop j
  rw [drop_eq_getElem_cons hlt, hget] at hcut
  rcases filter_eq_append_iff.mp hcut.symm with ⟨front, back, hps, hfront, hback⟩
  rcases filter_eq_cons_iff.mp hback with ⟨zeros, after, rfl, hzeros, hne, _⟩
  refine ⟨front ++ zeros, after, by rw [hps, append_assoc], bne_iff_ne.mp hne, ?_⟩
  have hnone : nonZeroShares zeros = [] := filter_eq_nil_iff.mpr hzeros
  have hplace : (nonZeroShares front).length = j := by
    rw [nonZeroShares, hfront, length_take_of_le hlt.le]
  rw [nonZeroShares_append, hnone, append_nil, hplace]

theorem getElem?_nonZeroShares (before after : List (AccountPublicAddress × UInt64))
    (hne : p.2 ≠ 0) :
    (nonZeroShares (before ++ p :: after))[(nonZeroShares before).length]? = some p := by
  rw [nonZeroShares_append, getElem?_append_right (le_refl _), Nat.sub_self, nonZeroShares_cons,
    if_neg hne]
  rfl

theorem validateMinerTransaction_eq_ok :
    (exists baseReward, validateMinerTransaction O ctx b args = .ok baseReward) <->
      b.minerTx.vout ≠ [] ∧
      exists parts, rewardPartsOf ctx b args = .ok parts ∧
        validateMinerTx O ctx.net ctx.masterNodesInfos b parts = .ok () ∧
        checkGovernanceOutput O ctx b args parts = .ok () ∧
        getOutsMoneyAmount b.minerTx <=
          parts.baseMiner + parts.governancePaid + parts.masterNodeTotal + 1 + parts.minerFee ∧
        parts.minerFee + paidRegistrationFee args.version args.registrationGovernanceFee <=
          getOutsMoneyAmount b.minerTx := by
  constructor
  · rintro ⟨_, hvalid⟩
    rcases rejectIf_bind_ok.mp hvalid with ⟨hne, hbind⟩
    rcases orReject_bind_ok.mp hbind with ⟨parts, hparts, hbind⟩
    rcases within_bind_ok.mp hbind with ⟨_, hminer, hbind⟩
    rcases bind_ok.mp hbind with ⟨_, hgov, hbind⟩
    rcases rejectIf_bind_ok.mp hbind with ⟨hmax, hbind⟩
    rcases rejectIf_bind_ok.mp hbind with ⟨hmin, _⟩
    rw [decide_eq_false_iff_not, UInt64.not_lt] at hmax hmin
    exact ⟨isEmpty_eq_false_iff.mp hne, parts, toOption_eq_some.mp hparts, hminer, hgov, hmax, hmin⟩
  · rintro ⟨hne, parts, hparts, hminer, hgov, hmax, hmin⟩
    refine ⟨getOutsMoneyAmount b.minerTx -
      (parts.minerFee + paidRegistrationFee args.version args.registrationGovernanceFee),
      rejectIf_bind_ok.mpr ⟨isEmpty_eq_false_iff.mpr hne, ?_⟩⟩
    refine orReject_bind_ok.mpr ⟨parts, toOption_eq_some.mpr hparts, ?_⟩
    refine within_bind_ok.mpr ⟨(), hminer, bind_ok.mpr ⟨(), hgov, ?_⟩⟩
    refine rejectIf_bind_ok.mpr ⟨?_, rejectIf_bind_ok.mpr ⟨?_, rfl⟩⟩
    · rw [decide_eq_false_iff_not, UInt64.not_lt]
      exact hmax
    · rw [decide_eq_false_iff_not, UInt64.not_lt]
      exact hmin

theorem baseMiner_ne_zero (hcoins : args.alreadyGeneratedCoins = 0)
    (h : rewardPartsOf ctx b args = .ok parts) : parts.baseMiner ≠ 0 := by
  rcases bind_ok.mp h with ⟨base, _, hbind⟩
  rcases rejectIf_bind_ok.mp hbind with ⟨hne, hparts⟩
  rw [if_pos hcoins] at hparts
  cases hparts
  simpa using hne

theorem TemplateReward.validatedParts_eq
    (h : TemplateReward uninitialised ctx args context built base) :
    exists fee, feeAfterPenalty base args.fee <= fee ∧
      paidRegistrationFee args.version args.registrationGovernanceFee <= fee ∧
      validatedParts ctx args built =
        { built with
          minerFee := fee - paidRegistrationFee args.version args.registrationGovernanceFee } := by
  have hfees := feeAfterPenalty_le base args.fee
  unfold validatedParts
  split
  · exact ⟨args.fee, hfees, UInt64.le_trans h.registered hfees, rfl⟩
  · refine ⟨_, UInt64.le_refl _, h.registered, ?_⟩
    rw [h.built_eq]

theorem governancePaid_validatedParts (ctx : CoinbaseContext) (args : CoinbaseArgs)
    (built : BlockRewardParts) :
    (validatedParts ctx args built).governancePaid = built.governancePaid := by
  unfold validatedParts
  split <;> rfl

include hfork hst h in
theorem Built.money_iff (hrew : TemplateReward uninitialised ctx args context built base)
    (hval : validatedParts ctx args built = validated) :
    (getOutsMoneyAmount b.minerTx <= validated.baseMiner + validated.governancePaid +
        validated.masterNodeTotal + 1 + validated.minerFee ∧
      validated.minerFee + paidRegistrationFee args.version args.registrationGovernanceFee <=
        getOutsMoneyAmount b.minerTx) <->
    context.batchedGovernance.toNat + mnRewardHf17Pos.toNat +
        (validated.minerFee.toNat +
          (paidRegistrationFee args.version args.registrationGovernanceFee).toNat) + 1 < 2 ^ 64 ∧
      validated.minerFee.toNat <=
        context.batchedGovernance.toNat + mnRewardHf17Pos.toNat + built.minerFee.toNat := by
  have hbatched := (hst.batched_spec hfork).2
  have hmoney := h.money
  have hreg := hrew.registered
  rcases hrew.validatedParts_eq with ⟨fee, hfee, hreg', hparts⟩
  cases hval.symm.trans hparts
  have hbuilt := hrew.built_eq
  have hmn : mnRewardHf17Pos.toNat = 6250000000 := rfl
  have hlt := fee.toNat_lt
  generalize hpaid : paidRegistrationFee args.version args.registrationGovernanceFee = paid at *
  generalize feeAfterPenalty base args.fee = left at *
  rw [hmoney, hbuilt]
  simp only [UInt64.le_iff_toNat_le, UInt64.toNat_add, UInt64.toNat_sub_of_le _ _ hreg,
    UInt64.toNat_sub_of_le _ _ hreg', hmn, UInt64.toNat_zero, UInt64.toNat_one] at *
  omega

include hfork hcoins hst h in
theorem Built.length_governancePayout (hparts : parts.governancePaid = built.governancePaid)
    (hrew : TemplateReward uninitialised ctx args context built base)
    (hbatched : heightHasGovernanceOutput ctx.net args.version ctx.dbHeight = true ->
      built.governancePaid ≠ 0) :
    (governancePayout ctx.net b parts).length =
      (governanceRewards ctx.net (templateArgs ctx args extraNonce) built).length := by
  have hiff := hst.hasGovernanceOutput_iff hfork h.getBlockHeight_eq
    (hparts.trans hrew.governancePaid_eq) (fun hht => hparts ▸ hbatched hht)
  rw [hparts] at hiff
  unfold governancePayout governanceRewards
  by_cases hne : built.governancePaid = 0
  · rw [if_neg (fun htrue => hiff.mp htrue hne), if_neg (fun hall => hall.2.2 hne)]
    rfl
  · rw [if_pos (hiff.mpr hne), if_pos ⟨hfork, hcoins, hne⟩]
    rfl

/-- A template is accepted in its own state exactly when the two sides agree. -/
theorem template_accepted_iff (hfork : Hf.hf17POS <= args.version)
    (hst : SameState O ctx b args context)
    (hbuilt : constructMinerTx O ctx.net uninitialised keys (templateArgs ctx args extraNonce)
      context = .ok b.minerTx) :
    exists built,
      templateParts uninitialised (templateArgs ctx args extraNonce) context = .ok built ∧
      ((exists parts baseReward, rewardPartsOf ctx b args = .ok parts ∧
          validateMinerTx O ctx.net ctx.masterNodesInfos b parts = .ok () ∧
          validateMinerTransaction O ctx b args = .ok baseReward) <->
        TemplateAgrees O ctx args context built (validatedParts ctx args built)) := by
  rcases constructMinerTx_eq_ok hfork hbuilt with ⟨built, h⟩
  refine ⟨built, h.parts_eq, ?_⟩
  have hht := h.getBlockHeight_eq
  constructor
  · rintro ⟨parts, baseReward, hparts, hminer, hvalid⟩
    have hcoins : args.alreadyGeneratedCoins ≠ 0 := fun hzero =>
      baseMiner_ne_zero hzero hparts ((h.validateMinerTx_iff hfork hst).mp hminer).1
    have hone : ctx.dbHeight = 1 -> ctx.uninitialised = blockRewardHf17Pos := fun hfirst =>
      uninitialised_eq hfork hcoins hparts (hht.trans hfirst)
    rcases h.templateReward hfork hcoins hst with ⟨base, hrew⟩
    have hval := hrew.rewardPartsOf_eq hfork hcoins hst hht hone
    have hsame := governancePaid_validatedParts ctx args built
    cases hparts.symm.trans hval
    rcases (validateMinerTransaction_eq_ok.mp ⟨_, hvalid⟩).2 with
      ⟨parts', hparts', _, hgov, hmoney⟩
    cases hparts'.symm.trans hval
    rcases (h.validateMinerTx_iff hfork hst).mp hminer with ⟨_, hcount, hshares⟩
    have hmax := (h.money_iff hfork hst hrew rfl).mp hmoney
    have hdue := h.length_governancePayout hfork hcoins hst hsame hrew
      ((h.checkGovernanceOutput_iff hfork hcoins hst hsame hrew).mp hgov)
    rw [h.length_vout, hdue] at hcount
    have hsize := Nat.add_right_cancel hcount
    refine ⟨hcoins, hone, hsize, ?_, hmax.1, hmax.2⟩
    intro before p after hsplit hne
    have hp := getElem?_nonZeroShares before after hne
    rw [<- hsplit] at hp
    exact (h.paid_iff_aligned hsize hp).mp (hshares _ p hp)
  · intro hagrees
    rcases h.templateReward hfork hagrees.coins hst with ⟨base, hrew⟩
    have hval := hrew.rewardPartsOf_eq hfork hagrees.coins hst hht hagrees.first
    have hsame := governancePaid_validatedParts ctx args built
    -- nothing wraps around, so that the governance output has an amount where one is due
    have hbatched : heightHasGovernanceOutput ctx.net args.version ctx.dbHeight = true ->
        built.governancePaid ≠ 0 := by
      intro hdue hzero
      have hne := (hst.batched_spec hfork).1.mp hdue
      have hfits := hagrees.fits
      have hsum := congrArg UInt64.toNat (hrew.governancePaid_eq.symm.trans hzero)
      rw [UInt64.toNat_add, Nat.mod_eq_of_lt (by omega), UInt64.toNat_zero] at hsum
      exact hne (UInt64.toNat_inj.mp (by rw [UInt64.toNat_zero]; omega))
    have hminer : validateMinerTx O ctx.net ctx.masterNodesInfos b
        (validatedParts ctx args built) = .ok () := by
      refine (h.validateMinerTx_iff hfork hst).mpr ⟨?_, ?_, ?_⟩
      · unfold validatedParts
        rw [hrew.built_eq]
        split <;> rfl
      · rw [h.length_vout, hagrees.size,
          h.length_governancePayout hfork hagrees.coins hst hsame hrew hbatched]
      · intro j p hp
        rcases exists_split_of_nonZeroShares hp with ⟨before, after, hsplit, hne, hplace⟩
        refine (h.paid_iff_aligned hagrees.size hp).mpr ?_
        rw [<- hplace]
        exact hagrees.aligned before p after hsplit hne
    have hgov :=
      (h.checkGovernanceOutput_iff hfork hagrees.coins hst hsame hrew).mpr hbatched
    have hmoney := (h.money_iff hfork hst hrew rfl).mpr ⟨hagrees.fits, hagrees.covered⟩
    rcases validateMinerTransaction_eq_ok.mpr ⟨h.vout_ne_nil, _, hval, hminer, hgov,
      hmoney⟩ with ⟨baseReward, hvalid⟩
    exact ⟨_, baseReward, hval, hminer, hvalid⟩

end Agreement

/-! ## A template that its own network rejects -/

set_option maxRecDepth 20000

def sampleKeys : TemplateKeys where
  txSecret := zeroKey
  txPublic := ⟨6⟩
  governancePublic := ⟨9⟩

def templateContext (ctx : CoinbaseContext) (pos : Bool) (producer : Payout) :
    BeldexMinerTxContext where
  pos := pos
  posBlockProducer := producer
  minerBlockProducer := sampleAddress 2
  blockLeader := getBlockLeader ctx.masterNodesInfos
  batchedGovernance := calcBatchedGovernanceReward ctx.net ctx.networkVersion ctx.dbHeight
  registrationGovernanceFee := 0

def templateTx (O : CoinbaseOracles Unit) (ctx : CoinbaseContext) (fee : UInt64)
    (context : BeldexMinerTxContext) : Transaction Unit :=
  ((constructMinerTx O ctx.net 0 sampleKeys (templateArgs ctx (sampleArgs fee) [])
    context).toOption).getD (Transaction.setNull Unit)

def noProducer : Payout where
  key := nullPkey
  payouts := []

def minerContext : BeldexMinerTxContext :=
  templateContext (oneNodeContext 0) false noProducer

def minerTemplate : Block Unit :=
  { minerBlock [] with minerTx := templateTx plainOracles (oneNodeContext 0) 5 minerContext }

theorem sameState_minerTemplate :
    SameState plainOracles (oneNodeContext 0) minerTemplate (sampleArgs 5) minerContext where
  configured := Or.inl rfl
  version := rfl
  network := rfl
  leader := rfl
  batched := rfl
  registrations := rfl
  pos := rfl
  producer := by
    intro hpos
    cases hpos

theorem template_accepted_iff_minerTemplate :
    SameState plainOracles (oneNodeContext 0) minerTemplate (sampleArgs 5) minerContext ∧
    exists built,
      templateParts 0 (templateArgs (oneNodeContext 0) (sampleArgs 5) []) minerContext = .ok built ∧
      ((exists parts baseReward,
          rewardPartsOf (oneNodeContext 0) minerTemplate (sampleArgs 5) = .ok parts ∧
          validateMinerTx plainOracles (oneNodeContext 0).net
            (oneNodeContext 0).masterNodesInfos minerTemplate parts = .ok () ∧
          validateMinerTransaction plainOracles (oneNodeContext 0) minerTemplate (sampleArgs 5) =
            .ok baseReward) <->
        TemplateAgrees plainOracles (oneNodeContext 0) (sampleArgs 5) minerContext built
          (validatedParts (oneNodeContext 0) (sampleArgs 5) built)) :=
  have hbuilt : constructMinerTx plainOracles (oneNodeContext 0).net 0 sampleKeys
      (templateArgs (oneNodeContext 0) (sampleArgs 5) []) minerContext =
        .ok minerTemplate.minerTx := rfl
  ⟨sameState_minerTemplate, template_accepted_iff (by decide) sameState_minerTemplate hbuilt⟩

/-- Two master nodes: the leader has one contributor, and the operator of the other takes
everything from its second contributor. -/
def twoNodeContext : CoinbaseContext :=
  { oneNodeContext 0 with
    masterNodesInfos := (Table.empty.set ⟨1⟩
      { contributors := [⟨sampleAddress 5, 10⟩]
        operatorAddress := sampleAddress 5
        portionsForOperator := 0
        stakingRequirement := 10
        totalContributed := 10
        activeSinceHeight := 0
        lastRewardBlockHeight := 0
        lastRewardTransactionIndex := 0 }).set ⟨2⟩
      { contributors := [⟨sampleAddress 3, 5⟩, ⟨sampleAddress 4, 5⟩]
        operatorAddress := sampleAddress 3
        portionsForOperator := UInt64.ofNat stakingPortions
        stakingRequirement := 10
        totalContributed := 10
        activeSinceHeight := 0
        lastRewardBlockHeight := 1
        lastRewardTransactionIndex := 0 } }

def secondRoundOracles : CoinbaseOracles Unit :=
  { plainOracles with
    generatePosQuorum := fun _ _ _ _ =>
      { validators := replicate posQuorumNumValidators ⟨7⟩, workers := [⟨2⟩] } }

def secondRoundProducer : Payout where
  key := ⟨2⟩
  payouts := [⟨sampleAddress 3, UInt64.ofNat stakingPortions⟩, ⟨sampleAddress 4, 0⟩]

def secondRoundTemplate : Block Unit :=
  { minerBlock [] with
    pos := { randomValue := ⟨0⟩, round := 1, validatorBitset := 1 }
    minerTx := templateTx secondRoundOracles twoNodeContext 5
      (templateContext twoNodeContext true secondRoundProducer) }

/-- The zero share of the producer's second contributor has an output, which the cursor takes
for that of the leader. -/
theorem secondRoundTemplate_rejected :
    SameState secondRoundOracles twoNodeContext secondRoundTemplate (sampleArgs 5)
      (templateContext twoNodeContext true secondRoundProducer) ∧
    constructMinerTx secondRoundOracles twoNodeContext.net 0 sampleKeys
      (templateArgs twoNodeContext (sampleArgs 5) [])
      (templateContext twoNodeContext true secondRoundProducer) = .ok secondRoundTemplate.minerTx ∧
    secondRoundTemplate.minerTx.vout = [toAddress 5 3, toAddress 0 4, toAddress 6250000000 5] ∧
    exists reason, validateMinerTransaction secondRoundOracles twoNodeContext
      secondRoundTemplate (sampleArgs 5) = .error reason := by
  refine ⟨?_, rfl, rfl, _, rfl⟩
  exact
    { configured := Or.inl rfl
      version := rfl
      network := rfl
      leader := rfl
      batched := rfl
      registrations := rfl
      pos := rfl
      producer := fun _ =>
        { sizes := rfl
          key := rfl
          round_zero := by
            intro hround
            cases hround
          payout := ⟨_, rfl, rfl⟩ } }

end Beldex.Coinbase
