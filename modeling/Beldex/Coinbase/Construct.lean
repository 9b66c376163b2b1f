import Beldex.Coinbase.MinerTx

/-!
# Building a coinbase

The coinbase of a block template.  Every payout entry of the leader and of the
producer becomes one output, whatever its share is.
-/

namespace Beldex.Coinbase

open Basic Crypto Foundation.Fallible

variable {P : Type}

/-! ## Who is paid -/

inductive RewardType where
  | miner
  | mnode
  | governance
deriving DecidableEq

structure RewardPayout where
  type : RewardType
  address : AccountPublicAddress
  amount : UInt64

structure BeldexMinerTxContext where
  pos : Bool
  posBlockProducer : Payout
  minerBlockProducer : AccountPublicAddress
  blockLeader : Payout
  batchedGovernance : UInt64
  registrationGovernanceFee : UInt64

structure TemplateArgs where
  height : UInt64
  medianWeight : UInt64
  alreadyGeneratedCoins : UInt64
  currentBlockWeight : UInt64
  fee : UInt64
  extraNonce : List UInt8
  hardForkVersion : Hf

/-- The fresh key pair of a coinbase, and the public half of the pair of its height. -/
structure TemplateKeys where
  txSecret : Key
  txPublic : PublicKey
  governancePublic : PublicKey

def payoutRewards (payouts : List PayoutEntry) (totalReward : UInt64)
    (distributeRemainder : Bool) : List RewardPayout :=
  (payoutShares payouts totalReward distributeRemainder).map fun p => ⟨.mnode, p.1, p.2⟩

variable (hardForkVersion : Hf) (context : BeldexMinerTxContext) (parts : BlockRewardParts)

/-- The rewards of a POS block.  A producer other than the leader has only the fees. -/
def posRewards : Except String (List RewardPayout) := do
  let leader := context.blockLeader
  let producer := context.posBlockProducer
  rejectIf producer.payouts.isEmpty
    "Constructing a reward for block produced by POS but no payout entries specified"
  rejectIf (producer.key == nullPkey) "Null Key given for POS Block Producer"
  rejectIf (decide (hardForkVersion < Hf.hf17POS))
    ("POS Block Producer is not valid until HF16, current HF" ++ toString hardForkVersion.toNat)
  if leader.key = producer.key then
    .ok (payoutRewards leader.payouts (parts.masterNodeTotal + parts.minerFee) true)
  else if parts.minerFee ≠ 0 then
    .ok (payoutRewards producer.payouts parts.minerFee true ++
      payoutRewards leader.payouts parts.masterNodeTotal true)
  else
    .ok (payoutRewards leader.payouts parts.masterNodeTotal true)

def minerRewards : Except String (List RewardPayout) := do
  rejectIf (!context.posBlockProducer.payouts.isEmpty)
    "Constructing a reward for block produced by miner but payout entries specified"
  let minerAmount := parts.baseMiner + parts.minerFee
  .ok ((if minerAmount ≠ 0 then [⟨.miner, context.minerBlockProducer, minerAmount⟩] else []) ++
    if Hf.hf9MasterNodes <= hardForkVersion then
      payoutRewards context.blockLeader.payouts parts.masterNodeTotal
        (decide (Hf.hf17POS <= hardForkVersion))
    else
      [])

def governanceRewards (net : Network) (args : TemplateArgs) (parts : BlockRewardParts) :
    List RewardPayout :=
  if Hf.hf17POS <= args.hardForkVersion ∧ args.alreadyGeneratedCoins ≠ 0 ∧
      parts.governancePaid ≠ 0 then
    [⟨.governance, net.governanceWalletAddress args.hardForkVersion, parts.governancePaid⟩]
  else
    []

/-! ## Outputs -/

def getDeterministicOutputKey (O : CoinbaseOracles P) (address : AccountPublicAddress)
    (secret : Key) (outputIndex : Nat) : Option PublicKey := do
  let derivation <- O.generateKeyDerivation address.viewPublicKey secret
  O.derivePublicKey derivation outputIndex address.spendPublicKey

def rewardOutput (O : CoinbaseOracles P) (keys : TemplateKeys) (height : UInt64)
    (rewardIndex : Nat) (reward : RewardPayout) : Except String (TxOut P) := do
  let secret :=
    if reward.type = .miner then keys.txSecret else getDeterministicKeypairFromHeight height
  let key <- orReject (getDeterministicOutputKey O reward.address secret rewardIndex)
    "Failed to generate output one-time public key"
  .ok { amount := reward.amount, target := .toKey key }

def rewardOutputs (O : CoinbaseOracles P) (keys : TemplateKeys) (height : UInt64) :
    Nat -> List RewardPayout -> Except String (List (TxOut P))
  | _, [] => .ok []
  | rewardIndex, reward :: rest => do
      let output <- rewardOutput O keys height rewardIndex reward
      let outputs <- rewardOutputs O keys height (rewardIndex + 1) rest
      .ok (output :: outputs)

def summaryAmounts (rewards : List RewardPayout) : UInt64 :=
  rewards.foldl (fun amount reward => amount + reward.amount) 0

/-- What the rewards must add up to.  Before the fixed rewards the dust of the shares of
the leader is not paid. -/
def expectedAmount (rewards : List RewardPayout) : UInt64 :=
  if hardForkVersion <= Hf.hf16 then
    parts.baseMiner + parts.minerFee + parts.governancePaid +
      summaryAmounts (rewards.filter fun reward => reward.type = .mnode)
  else
    parts.baseMiner + parts.minerFee + parts.governancePaid + parts.masterNodeTotal

/-! ## The transaction -/

def maxRewards : Nat := 9

def extraNonceMaxCount : Nat := 255

def templateExtra (keys : TemplateKeys) (args : TemplateArgs) (context : BeldexMinerTxContext) :
    List (TxExtraField P) :=
  [.pubKey keys.txPublic] ++ (if args.extraNonce.isEmpty then [] else [.other]) ++
    (if args.alreadyGeneratedCoins ≠ 0 then [.pubKey keys.governancePublic] else []) ++
    [.masterNodeWinner context.blockLeader.key] ++
    -- the security signature
    (if Hf.hf12SecuritySignature <= args.hardForkVersion ∧ !context.pos then [.other] else [])

/-- The reward that a template is built with.  The override for early blocks of the
testnet is not set here. -/
def templateParts (uninitialised : UInt64) (args : TemplateArgs)
    (context : BeldexMinerTxContext) : Except String BlockRewardParts :=
  getBeldexBlockReward uninitialised args.medianWeight args.currentBlockWeight
    args.alreadyGeneratedCoins args.hardForkVersion
    { testnetOverride := false
      height := args.height
      fee := args.fee
      batchedGovernance := context.batchedGovernance
      registrationGovernanceFee := context.registrationGovernanceFee
      blockLeaderPayouts := context.blockLeader.payouts }

def producerRewards : Except String (List RewardPayout) :=
  if context.pos then posRewards hardForkVersion context parts
  else minerRewards hardForkVersion context parts

/-- Build a coinbase.  The outputs stand in an array of fixed size; more of them than fit
count as a failure here. -/
def constructMinerTx (O : CoinbaseOracles P) (net : Network) (uninitialised : UInt64)
    (keys : TemplateKeys) (args : TemplateArgs) (context : BeldexMinerTxContext) :
    Except String (Transaction P) := do
  rejectIf (decide (extraNonceMaxCount < args.extraNonce.length))
    "extra nonce could be 255 bytes max"
  let parts <- orReject (templateParts uninitialised args context).toOption
    "Failed to calculate block reward"
  rejectIf (decide (Hf.hf9MasterNodes <= args.hardForkVersion) &&
      context.blockLeader.payouts.isEmpty)
    "Constructing a block leader reward for block but no payout entries specified"
  let produced <- producerRewards args.hardForkVersion context parts
  let rewards := produced ++ governanceRewards net args parts
  rejectIf (decide (maxRewards < rewards.length))
    ("More rewards specified than supported, number of rewards: " ++ toString rewards.length ++
      ", capacity: " ++ toString maxRewards)
  rejectIf rewards.isEmpty "Zero rewards are to be payed out, there should be atleast 1"
  let vout <- rewardOutputs O keys args.height 0 rewards
  let expected := expectedAmount args.hardForkVersion parts rewards
  rejectIf (summaryAmounts rewards != expected)
    ("Failed to construct miner tx, summary_amounts = " ++ toString (summaryAmounts rewards) ++
      " not equal total block_reward = " ++ toString expected)
  let unlockTime := args.height + UInt64.ofNat minedMoneyUnlockWindow
  .ok
    { Transaction.setNull P with
      version := getMaxVersionForHf args.hardForkVersion
      unlockTime := unlockTime
      vin := [.gen args.height]
      vout := vout
      extra := some (templateExtra keys args context)
      outputUnlockTimes := vout.map fun _ => unlockTime }

end Beldex.Coinbase
