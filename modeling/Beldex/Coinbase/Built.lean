import Beldex.Coinbase.Construct
import Beldex.Coinbase.Soundness

/-!
# What a built coinbase is

The reward parts of the forks with fixed rewards, and the outputs, the input and the
extra section of a coinbase that was built with them.
-/

namespace Beldex.Coinbase

open Basic Crypto Foundation.Fallible List

variable {P : Type}

/-! ## The parts of a reward -/

def paidRegistrationFee (hf : Hf) (registrationGovernanceFee : UInt64) : UInt64 :=
  if featurePrivacyTokens <= hf then registrationGovernanceFee else 0

def fixedParts (hf : Hf) (base : BaseReward) (context : BeldexBlockRewardContext) :
    BlockRewardParts where
  masterNodeTotal := mnRewardHf17Pos
  governanceDue := foundationRewardHf17
  governancePaid :=
    context.batchedGovernance + paidRegistrationFee hf context.registrationGovernanceFee
  baseMiner := 0
  minerFee := minerFeeAfterPenalty base context -
    paidRegistrationFee hf context.registrationGovernanceFee
  originalBaseReward := base.reward

variable {hf : Hf}

theorem not_lt_hf17 (hfork : Hf.hf17POS <= hf) : ¬ hf < Hf.hf17POS := by
  rw [Hf.lt_iff_not_le, not_not]
  exact hfork

variable {parts : BlockRewardParts}

variable {context : BeldexBlockRewardContext}

theorem fixedRewardParts_eq_ok {base : BaseReward} :
    fixedRewardParts base mnRewardHf17Pos (paidRegistrationFee hf context.registrationGovernanceFee)
        context
        { governanceDue := foundationRewardHf17
          governancePaid := context.batchedGovernance +
            paidRegistrationFee hf context.registrationGovernanceFee
          originalBaseReward := base.reward } = .ok parts <->
      paidRegistrationFee hf context.registrationGovernanceFee <=
          minerFeeAfterPenalty base context ∧
        base.rewardUnpenalized = blockRewardHf17Pos ∧ fixedParts hf base context = parts := by
  have hallocated : foundationRewardHf17 + mnRewardHf17Pos = blockRewardHf17Pos := by
    decide
  unfold fixedRewardParts
  simp only [rejectIf_bind_ok, hallocated, decide_eq_false_iff_not, bne_eq_false_iff_eq,
    UInt64.not_lt, Except.ok.injEq]
  constructor
  · rintro ⟨hfee, _, hzero, hparts⟩
    have hrew : base.rewardUnpenalized = 0 + blockRewardHf17Pos := by
      rw [<- hzero, UInt64.sub_add_cancel]
    exact ⟨hfee, hrew.trans (UInt64.zero_add _), hparts⟩
  · rintro ⟨hfee, hrew, hparts⟩
    rw [hrew]
    exact ⟨hfee, UInt64.le_refl _, UInt64.sub_self _, hparts⟩

variable {currentBlockWeight medianWeight alreadyGeneratedCoins uninitialised : UInt64}

theorem getBeldexBlockReward_eq_ok (hfork : Hf.hf17POS <= hf)
    (hcoins : alreadyGeneratedCoins ≠ 0) :
    getBeldexBlockReward uninitialised medianWeight currentBlockWeight alreadyGeneratedCoins hf
        context = .ok parts <->
      exists base, getBaseBlockReward uninitialised medianWeight currentBlockWeight
          alreadyGeneratedCoins hf context.height = .ok base ∧ base.reward ≠ 0 ∧
        paidRegistrationFee hf context.registrationGovernanceFee <=
          minerFeeAfterPenalty base context ∧
        base.rewardUnpenalized = blockRewardHf17Pos ∧ fixedParts hf base context = parts := by
  have hten : Hf.hf10Bulletproofs <= hf := Hf.le_trans (by decide) hfork
  unfold getBeldexBlockReward
  simp only [bind_ok, rejectIf_ok, beq_eq_false_iff_ne, if_neg hcoins,
    if_neg (not_lt_hf17 hfork), if_pos hten, governanceRewardFormula, masterNodeRewardFormula,
    if_pos hfork]
  constructor
  · rintro ⟨base, hbase, _, hne, hparts⟩
    exact ⟨base, hbase, hne, fixedRewardParts_eq_ok.mp hparts⟩
  · rintro ⟨base, hbase, hne, hparts⟩
    exact ⟨base, hbase, (), hne, fixedRewardParts_eq_ok.mpr hparts⟩

variable {height : UInt64}

/-! ## The outputs of a template -/

variable {O : CoinbaseOracles P} {keys : TemplateKeys} {index : Nat} {rewards : List RewardPayout}

theorem rewardOutputs_eq_ok {outputs : List (TxOut P)}
    (h : rewardOutputs O keys height index rewards = .ok outputs) :
    outputs.map TxOut.amount = rewards.map RewardPayout.amount ∧
      forall j reward, rewards[j]? = some reward -> exists output, outputs[j]? = some output ∧
          rewardOutput O keys height (index + j) reward = .ok output := by
  induction rewards generalizing index outputs with
  | nil =>
    cases h
    exact ⟨rfl, fun j reward hrew => by cases hrew⟩
  | cons first rest ih =>
    rcases bind_ok.mp h with ⟨output, hfirst, hbind⟩
    rcases bind_ok.mp hbind with ⟨others, hrest, hok⟩
    cases hok
    rcases ih hrest with ⟨hamts, hall⟩
    have hamt : output.amount = first.amount := by
      rcases orReject_bind_ok.mp hfirst with ⟨key, _, hkey⟩
      cases hkey
      rfl
    refine ⟨by rw [map_cons, map_cons, hamt, hamts], ?_⟩
    intro j reward hrew
    cases j with
    | zero =>
      cases hrew
      exact ⟨output, rfl, hfirst⟩
    | succ j =>
      rw [getElem?_cons_succ] at hrew
      rcases hall j reward hrew with ⟨other, hother, hmade⟩
      refine ⟨other, hother, ?_⟩
      rw [<- add_assoc, add_right_comm]
      exact hmade

theorem outputKey_eq_ok {address : AccountPublicAddress} {key : PublicKey} :
    outputKey O height index address = .ok key <->
      getDeterministicOutputKey O address (getDeterministicKeypairFromHeight height) index =
        some key := by
  unfold outputKey getDeterministicOutputKey
  cases O.generateKeyDerivation address.viewPublicKey
      (getDeterministicKeypairFromHeight height) with
  | none => simp [orReject, bind, Except.bind]
  | some derivation =>
    simp only [orReject, bind, Except.bind, Option.bind]
    cases O.derivePublicKey derivation index address.spendPublicKey with
    | none => simp
    | some k => simp

theorem rewardOutput_eq_ok {reward : RewardPayout} {output : TxOut P} (htype : reward.type ≠ .miner)
    (h : rewardOutput O keys height index reward = .ok output) :
    exists key, output = { amount := reward.amount, target := .toKey key } ∧
      outputKey O height index reward.address = .ok key := by
  rcases orReject_bind_ok.mp h with ⟨key, hkey, hok⟩
  rw [if_neg htype] at hkey
  cases hok
  exact ⟨key, rfl, outputKey_eq_ok.mpr hkey⟩

/-! ## What a template pays -/

def templateMode (context : BeldexMinerTxContext) : VerifyMode :=
  if context.pos then
    if context.posBlockProducer.key = context.blockLeader.key then .posBlockLeaderIsProducer
    else .posDifferentBlockProducer
  else
    .miner

def templatePayouts (hf : Hf) (context : BeldexMinerTxContext) (parts : BlockRewardParts) :
    List (AccountPublicAddress × UInt64) :=
  prescribedPayouts hf (templateMode context) context.blockLeader context.posBlockProducer parts

def minerReward (context : BeldexMinerTxContext) (parts : BlockRewardParts) : List RewardPayout :=
  if 0 < minerVouts (templateMode context) parts then
    [⟨.miner, context.minerBlockProducer, parts.baseMiner + parts.minerFee⟩]
  else
    []

theorem minerVouts_templateMode_le_one (context : BeldexMinerTxContext)
    (parts : BlockRewardParts) : minerVouts (templateMode context) parts <= 1 := by
  unfold minerVouts
  split
  · split <;> omega
  · omega

theorem length_minerReward (context : BeldexMinerTxContext) (parts : BlockRewardParts) :
    (minerReward context parts).length = minerVouts (templateMode context) parts := by
  have hle := minerVouts_templateMode_le_one context parts
  unfold minerReward
  split
  · rw [length_singleton]
    omega
  · rw [length_nil]
    omega

variable {context : BeldexMinerTxContext} {produced : List RewardPayout}

theorem posRewards_eq_ok (hpos : context.pos = true)
    (h : posRewards hf context parts = .ok produced) :
    produced = minerReward context parts ++
      (templatePayouts hf context parts).map fun p => ⟨.mnode, p.1, p.2⟩ := by
  unfold posRewards at h
  simp only [rejectIf_bind_ok] at h
  rcases h with ⟨_, _, _, hprod⟩
  unfold minerReward templatePayouts templateMode
  rw [if_pos hpos]
  split at hprod
  next hkey =>
    rw [if_pos hkey.symm]
    cases hprod
    rfl
  next hkey =>
    rw [if_neg (Ne.symm hkey)]
    by_cases hfee : parts.minerFee = 0
    · rw [if_neg (not_not.mpr hfee)] at hprod
      cases hprod
      unfold prescribedPayouts
      simp only [hfee, UInt64.lt_irrefl, if_false]
      rfl
    · rw [if_pos hfee] at hprod
      cases hprod
      unfold prescribedPayouts payoutRewards
      simp only [if_pos (UInt64.pos_iff_ne_zero.mpr hfee), map_append]
      rfl

theorem minerRewards_eq_ok (hfork : Hf.hf17POS <= hf) (hpos : context.pos = false)
    (h : minerRewards hf context parts = .ok produced) :
    produced = minerReward context parts ++
      (templatePayouts hf context parts).map fun p => ⟨.mnode, p.1, p.2⟩ := by
  have hnine : Hf.hf9MasterNodes <= hf := Hf.le_trans (by decide) hfork
  have hmode : templateMode context = .miner := by
    unfold templateMode
    rw [hpos]
    rfl
  rcases rejectIf_bind_ok.mp h with ⟨_, hprod⟩
  simp only [if_pos hnine] at hprod
  cases hprod
  unfold minerReward templatePayouts minerVouts
  rw [hmode]
  simp only [UInt64.pos_iff_ne_zero]
  congr 1
  by_cases hzero : parts.baseMiner + parts.minerFee = 0
  · simp [hzero]
  · simp [hzero]

theorem producerRewards_eq_ok (hfork : Hf.hf17POS <= hf)
    (h : producerRewards hf context parts = .ok produced) :
    produced = minerReward context parts ++
      (templatePayouts hf context parts).map fun p => ⟨.mnode, p.1, p.2⟩ := by
  unfold producerRewards at h
  cases hpos : context.pos with
  | true =>
    rw [hpos, if_pos rfl] at h
    exact posRewards_eq_ok hpos h
  | false =>
    rw [hpos] at h
    exact minerRewards_eq_ok hfork hpos h

structure Built (O : CoinbaseOracles P) (net : Network) (uninitialised : UInt64)
    (keys : TemplateKeys) (args : TemplateArgs) (context : BeldexMinerTxContext)
    (parts : BlockRewardParts) (tx : Transaction P) : Prop where
  parts_eq : templateParts uninitialised args context = .ok parts
  leader : context.blockLeader.payouts ≠ []
  vin : tx.vin = [.gen args.height]
  extra : tx.extra = some (templateExtra keys args context)
  outputs : rewardOutputs O keys args.height 0
    (minerReward context parts ++
      ((templatePayouts args.hardForkVersion context parts).map fun p => ⟨.mnode, p.1, p.2⟩) ++
      governanceRewards net args parts) = .ok tx.vout
  money : getOutsMoneyAmount tx =
    parts.baseMiner + parts.minerFee + parts.governancePaid + parts.masterNodeTotal

variable {tx : Transaction P}

theorem getOutsMoneyAmount_eq (h : rewardOutputs O keys height 0 rewards = .ok tx.vout) :
    getOutsMoneyAmount tx = summaryAmounts rewards := by
  have hamts := (rewardOutputs_eq_ok h).1
  unfold getOutsMoneyAmount summaryAmounts
  rw [<- foldl_map (f := TxOut.amount) (g := fun a b => a + b), hamts, foldl_map]

theorem constructMinerTx_eq_ok {net : Network} {args : TemplateArgs}
    (hfork : Hf.hf17POS <= args.hardForkVersion)
    (h : constructMinerTx O net uninitialised keys args context = .ok tx) :
    exists parts, Built O net uninitialised keys args context parts tx := by
  have hnine : Hf.hf9MasterNodes <= args.hardForkVersion := Hf.le_trans (by decide) hfork
  have hsixteen : ¬ args.hardForkVersion <= Hf.hf16 := fun hle =>
    absurd (Hf.le_trans hfork hle) (by decide)
  rcases rejectIf_bind_ok.mp h with ⟨_, hbind⟩
  rcases orReject_bind_ok.mp hbind with ⟨parts, hparts, hbind⟩
  rcases rejectIf_bind_ok.mp hbind with ⟨hleader, hbind⟩
  rcases bind_ok.mp hbind with ⟨produced, hprod, hbind⟩
  rcases rejectIf_bind_ok.mp hbind with ⟨_, hbind⟩
  rcases rejectIf_bind_ok.mp hbind with ⟨_, hbind⟩
  rcases bind_ok.mp hbind with ⟨vout, hvout, hbind⟩
  rcases rejectIf_bind_ok.mp hbind with ⟨hmoney, hok⟩
  cases hok
  rw [producerRewards_eq_ok hfork hprod] at hvout hmoney
  refine ⟨parts, toOption_eq_some.mp hparts, ?_, rfl, rfl, hvout, ?_⟩
  · simpa [hnine] using hleader
  · rw [getOutsMoneyAmount_eq hvout, bne_eq_false_iff_eq.mp hmoney]
    unfold expectedAmount
    rw [if_neg hsixteen]

end Beldex.Coinbase
