import Beldex.Basic.Transaction
import Beldex.Common.IntUtil
import Beldex.Foundation.Fallible

/-!
# Block rewards

How much a block pays to the block leader, to the producer, to the governance
wallet and to a miner.  Amounts are machine words throughout, as in the code.
-/

namespace Beldex.Coinbase

open Basic Common Crypto Foundation.Fallible List

/-! ## Constants -/

def coin : UInt64 := 1000000000

def blockRewardHf16 : UInt64 := 2 * coin

def blockRewardHf17Pos : UInt64 := 10 * coin

/-- The share of the block leader: 62.5 percent of the block reward. -/
def mnRewardHf17Pos : UInt64 := 6250000000

/-- The share of the governance wallet: 37.5 percent of the block reward. -/
def foundationRewardHf17 : UInt64 := 3750000000

example : mnRewardHf17Pos + foundationRewardHf17 = blockRewardHf17Pos := by decide

def masterNodeBaseRewardPercentage : UInt64 := 95

def blockGrantedFullRewardZoneV5 : UInt64 := 300000

/-- An amount with its nine decimals, as error messages show it. -/
def printMoney (amount : UInt64) : String :=
  let decimals := toString (amount.toNat % 1000000000)
  toString (amount.toNat / 1000000000) ++ "." ++
    String.ofList (replicate (9 - decimals.length) '0') ++ decimals

/-! ## Payouts -/

structure AccountPublicAddress where
  spendPublicKey : PublicKey
  viewPublicKey : PublicKey
deriving DecidableEq

structure PayoutEntry where
  address : AccountPublicAddress
  portions : UInt64
deriving DecidableEq

structure Payout where
  key : PublicKey
  payouts : List PayoutEntry
deriving DecidableEq

def nullPayoutEntry : PayoutEntry where
  address := ⟨nullPkey, nullPkey⟩
  portions := UInt64.ofNat stakingPortions

def nullPayout : Payout where
  key := nullPkey
  payouts := [nullPayoutEntry]

def getPortionOfReward (portions totalMasterNodeReward : UInt64) : UInt64 :=
  mulDiv128 totalMasterNodeReward portions (UInt64.ofNat stakingPortions)

variable (payouts : List PayoutEntry)

/-- The shares of a reward; the first share takes what rounding leaves over. -/
def distributeRewardByPortions (totalReward : UInt64) (distributeRemainder : Bool) : List UInt64 :=
  let result := payouts.map fun entry => getPortionOfReward entry.portions totalReward
  match result with
  | [] => []
  | first :: rest =>
    if distributeRemainder then (first + (totalReward - result.sum)) :: rest
    else result

def calculateSumOfPortions (totalMasterNodeReward : UInt64) : UInt64 :=
  (payouts.map fun entry => getPortionOfReward entry.portions totalMasterNodeReward).sum

theorem length_distributeRewardByPortions (totalReward : UInt64) (distributeRemainder : Bool) :
    (distributeRewardByPortions payouts totalReward distributeRemainder).length =
      payouts.length := by
  unfold distributeRewardByPortions
  cases payouts with
  | nil => rfl
  | cons first rest =>
    cases distributeRemainder with
    | true => simp
    | false => simp

theorem getPortionOfReward_zero (portions : UInt64) : getPortionOfReward portions 0 = 0 := by
  unfold getPortionOfReward
  rw [mulDiv128_eq _ _ (by decide), UInt64.toNat_zero, Nat.zero_mul, Nat.zero_div]
  rfl

theorem sum_replicate_zero (n : Nat) : (replicate n (0 : UInt64)).sum = 0 := by
  induction n with
  | zero => rfl
  | succ n ih => rw [replicate_succ, sum_cons, ih, UInt64.add_zero]

theorem distributeRewardByPortions_zero (distributeRemainder : Bool) :
    distributeRewardByPortions payouts 0 distributeRemainder = replicate payouts.length 0 := by
  have hmap : (payouts.map fun entry => getPortionOfReward entry.portions 0) =
      replicate payouts.length 0 := by
    simp [getPortionOfReward_zero]
  unfold distributeRewardByPortions
  rw [hmap]
  cases payouts with
  | nil => rfl
  | cons first rest =>
    cases distributeRemainder with
    | true =>
      simp only [length_cons, replicate_succ, sum_cons, sum_replicate_zero]
      rfl
    | false => simp [replicate_succ]

/-! ## Reward formulas -/

structure Network where
  type : NetworkType
  governanceRewardIntervalInBlocks : UInt64
  governanceWalletAddress : Hf -> AccountPublicAddress

def governanceRewardFormula (hfVersion : Hf) : UInt64 :=
  if Hf.hf17POS <= hfVersion then foundationRewardHf17 else 0

def masterNodeRewardFormula (baseReward : UInt64) (hardForkVersion : Hf) : UInt64 :=
  if Hf.hf17POS <= hardForkVersion then
    mnRewardHf17Pos
  else if Hf.hf11InfiniteStaking <= hardForkVersion then
    baseReward / 10 * (masterNodeBaseRewardPercentage / 10)
  else
    0

def heightHasGovernanceOutput (net : Network) (hardForkVersion : Hf) (height : UInt64) : Bool :=
  if hardForkVersion < Hf.hf17POS then false
  else height == 742425 || height % net.governanceRewardIntervalInBlocks == 0

/-- The governance reward that a height pays; before the fork no height pays one. -/
def calcBatchedGovernanceReward (net : Network) (networkVersion : UInt64 -> Hf)
    (height : UInt64) : UInt64 :=
  if networkVersion height <= Hf.hf9MasterNodes then
    0
  else if !heightHasGovernanceOutput net (networkVersion height) height then
    0
  else if height == 742425 then
    8500000000 * coin
  else
    net.governanceRewardIntervalInBlocks * foundationRewardHf17

/-- The reward before the fixed rewards, where only the earliest blocks vary. -/
def blockRewardUnpenalizedFormulaV7 (version : Hf) (alreadyGeneratedCoins : UInt64) : UInt64 :=
  if version < Hf.hf7 then
    let targetMinutes : UInt64 := if version <= Hf.hf1 then 1 else 2
    let result := (0xffffffffffffffff - alreadyGeneratedCoins) >>> (28 - (targetMinutes - 1))
    if result < 500000000 * targetMinutes then 500000000 * targetMinutes else result
  else
    1000000000

structure BaseReward where
  reward : UInt64
  rewardUnpenalized : UInt64

/-- The base reward, reduced for blocks above the median weight.  The two early
returns leave the second result as the caller has it, uninitialised. -/
def getBaseBlockReward (uninitialised medianWeight currentBlockWeight
    alreadyGeneratedCoins : UInt64) (version : Hf) (height : UInt64) :
    Except String BaseReward :=
  if height = 1 then
    .ok { reward := 1400000000 * coin, rewardUnpenalized := uninitialised }
  else if 56500 <= height ∧ version < Hf.hf17POS then
    .ok { reward := 2 * coin, rewardUnpenalized := uninitialised }
  else
    let baseReward :=
      if Hf.hf17POS <= version then blockRewardHf17Pos
      else if Hf.hf16 <= version then blockRewardHf16
      else blockRewardUnpenalizedFormulaV7 version alreadyGeneratedCoins
    let medianWeight :=
      if medianWeight < blockGrantedFullRewardZoneV5 then blockGrantedFullRewardZoneV5
      else medianWeight
    if currentBlockWeight <= medianWeight then
      .ok { reward := baseReward, rewardUnpenalized := baseReward }
    else if 2 * medianWeight < currentBlockWeight then
      .error ("Block cumulative weight is too big: " ++ toString currentBlockWeight ++
        ", expected less than " ++ toString (2 * medianWeight))
    else
      let multiplicand := (2 * medianWeight - currentBlockWeight) * currentBlockWeight
      let (lo, hi) := mul128 baseReward multiplicand
      let reward := div12832 hi lo medianWeight.toUInt32
      .ok { reward := (div12832 reward.1 reward.2 medianWeight.toUInt32).2
            rewardUnpenalized := baseReward }

structure BlockRewardParts where
  masterNodeTotal : UInt64 := 0
  governanceDue : UInt64 := 0
  governancePaid : UInt64 := 0
  baseMiner : UInt64 := 0
  minerFee : UInt64 := 0
  originalBaseReward : UInt64 := 0

structure BeldexBlockRewardContext where
  testnetOverride : Bool
  height : UInt64
  fee : UInt64
  batchedGovernance : UInt64
  registrationGovernanceFee : UInt64 := 0
  blockLeaderPayouts : List PayoutEntry := [nullPayoutEntry]

/-- The miner fee of a fork with fixed rewards: the fees less the weight penalty. -/
def minerFeeAfterPenalty (base : BaseReward) (context : BeldexBlockRewardContext) : UInt64 :=
  if context.testnetOverride then
    context.fee
  else
    let penalty := base.rewardUnpenalized - base.reward
    if context.fee <= penalty then 0 else context.fee - penalty

def fixedRewardParts (base : BaseReward) (masterNodeReward registrationGovernanceFee : UInt64)
    (context : BeldexBlockRewardContext) (parts : BlockRewardParts) :
    Except String BlockRewardParts := do
  let minerFee := minerFeeAfterPenalty base context
  rejectIf (decide (minerFee < registrationGovernanceFee))
    ("registration_governance_fee (" ++ toString registrationGovernanceFee ++
      ") exceeds available miner fee (" ++ toString minerFee ++ ") after penalty")
  let allocated := parts.governanceDue + masterNodeReward
  rejectIf (decide (base.rewardUnpenalized < allocated))
    ("We allocated more reward " ++ printMoney allocated ++
      " than what was available " ++ printMoney base.rewardUnpenalized)
  rejectIf (base.rewardUnpenalized - allocated != 0)
    ("We allocated reward but there was still " ++
      printMoney (base.rewardUnpenalized - allocated) ++ " beldex left to distribute.")
  .ok { parts with
    masterNodeTotal := masterNodeReward
    minerFee := minerFee - registrationGovernanceFee }

/-- The parts of a reward before that fork: the miner has what the others leave. -/
def variableRewardParts (baseReward masterNodeReward : UInt64)
    (context : BeldexBlockRewardContext) (parts : BlockRewardParts) : BlockRewardParts :=
  let masterNodeTotal := calculateSumOfPortions context.blockLeaderPayouts masterNodeReward
  let nonMinerAmounts := parts.governanceDue + masterNodeTotal
  { parts with
    masterNodeTotal := masterNodeTotal
    baseMiner := if nonMinerAmounts < baseReward then baseReward - nonMinerAmounts else 0
    minerFee := context.fee }

def getBeldexBlockReward (uninitialised medianWeight currentBlockWeight
    alreadyGeneratedCoins : UInt64) (hardForkVersion : Hf)
    (context : BeldexBlockRewardContext) : Except String BlockRewardParts := do
  let base <- getBaseBlockReward uninitialised medianWeight currentBlockWeight
    alreadyGeneratedCoins hardForkVersion context.height
  rejectIf (base.reward == 0) "Unexpected base reward of 0"
  if alreadyGeneratedCoins = 0 then
    .ok { originalBaseReward := base.reward, baseMiner := base.reward }
  else
    let governanceDue := governanceRewardFormula hardForkVersion
    let registrationGovernanceFee :=
      if featurePrivacyTokens <= hardForkVersion then context.registrationGovernanceFee
      else 0
    let governancePaid :=
      (if Hf.hf10Bulletproofs <= hardForkVersion then context.batchedGovernance
        else governanceDue) + registrationGovernanceFee
    let masterNodeReward := masterNodeRewardFormula base.reward hardForkVersion
    let parts : BlockRewardParts :=
      { governanceDue := governanceDue
        governancePaid := governancePaid
        originalBaseReward := base.reward }
    if hardForkVersion < Hf.hf17POS then
      .ok (variableRewardParts base.reward masterNodeReward context parts)
    else
      fixedRewardParts base masterNodeReward registrationGovernanceFee context parts

end Beldex.Coinbase
