import Beldex.Coinbase.Reward
import Beldex.Foundation.Table

/-!
# Validation of a coinbase

`validateMinerTx` computes how many outputs a coinbase must have from the sizes
of the payout lists, and verifies outputs with a cursor that moves over the
payouts with a non-zero share only.  The validation of the amounts calls it and
checks the governance output itself.
-/

namespace Beldex.Coinbase

open Basic Crypto Foundation Foundation.Fallible

variable {P : Type}

section

/-! ## Master nodes -/

structure Contributor where
  address : AccountPublicAddress
  amount : UInt64

/-- The members of a registration that payouts and the leader queue read. -/
structure MasterNodeInfo where
  contributors : List Contributor
  operatorAddress : AccountPublicAddress
  portionsForOperator : UInt64
  stakingRequirement : UInt64
  totalContributed : UInt64
  activeSinceHeight : Int
  lastRewardBlockHeight : UInt64
  lastRewardTransactionIndex : UInt32

def MasterNodeInfo.isActive (info : MasterNodeInfo) : Bool :=
  decide (info.stakingRequirement <= info.totalContributed) && !decide (info.activeSinceHeight < 0)

/-- The portions of the contributors, the operator's cut with the operator. -/
def masterNodeInfoToPayout (key : PublicKey) (info : MasterNodeInfo) : Payout where
  key := key
  payouts := info.contributors.map fun contributor =>
    let remainingPortions := UInt64.ofNat stakingPortions - info.portionsForOperator
    let portions := Common.mulDiv128 contributor.amount remainingPortions info.stakingRequirement
    { address := contributor.address
      portions :=
        if contributor.address = info.operatorAddress then
          portions + info.portionsForOperator
        else
          portions }

def keyBytes (key : PublicKey) : List Nat :=
  (List.range 32).map fun i => (key.bits.extractLsb' (8 * i) 8).toNat

/-- The position in the reward queue: height, index, key. -/
def waitingSince (key : PublicKey) (info : MasterNodeInfo) : List Nat :=
  info.lastRewardBlockHeight.toNat :: info.lastRewardTransactionIndex.toNat :: keyBytes key

def keepOldest (oldest : Option (PublicKey × MasterNodeInfo)) (entry : PublicKey × MasterNodeInfo) :
    Option (PublicKey × MasterNodeInfo) :=
  if entry.2.isActive then
    match oldest with
    | none =>
      if waitingSince entry.1 entry.2 < 0xffffffffffffffff :: 0xffffffff :: keyBytes nullPkey then
        some entry
      else
        none
    | some best =>
      if waitingSince entry.1 entry.2 < waitingSince best.1 best.2 then some entry
      else oldest
  else
    oldest

variable (infos : Table PublicKey MasterNodeInfo)

def oldestWaiting : Option (PublicKey × MasterNodeInfo) :=
  infos.entries.foldl keepOldest none

def getBlockLeader : Payout :=
  match oldestWaiting infos with
  | none => nullPayout
  | some (key, info) =>
    if key = nullPkey then nullPayout else masterNodeInfoToPayout key info

/-! ## Oracles -/

/-- The key derivation, the choice of a quorum and the rendering of values that
the coinbase rules call. -/
structure CoinbaseOracles (P : Type) where
  generateKeyDerivation : PublicKey -> Key -> Option Key
  derivePublicKey : Key -> Nat -> PublicKey -> Option PublicKey
  generatePosQuorum : PublicKey -> Hf -> Hash -> UInt8 -> Quorum
  formatKey : PublicKey -> String
  formatBlockHash : Block P -> String

/-- The secret half of the key pair that a height determines. -/
def getDeterministicKeypairFromHeight (height : UInt64) : Key :=
  ⟨height.toBitVec.zeroExtend 256⟩

/-! ## One output -/

def withinOne (a b : UInt64) : Bool :=
  (if b < a then a - b else b - a) <= 1

variable (O : CoinbaseOracles P)

def outputKey (height : UInt64) (outputIndex : Nat) (receiver : AccountPublicAddress) :
    Except String PublicKey := do
  let derivation <- orReject
    (O.generateKeyDerivation receiver.viewPublicKey (getDeterministicKeypairFromHeight height))
    "Failed to generate key derivation"
  orReject (O.derivePublicKey derivation outputIndex receiver.spendPublicKey)
    "Failed derive public key"

def verifyCoinbaseTxOutput (minerTx : Transaction P) (height : UInt64) (outputIndex : Nat)
    (receiver : AccountPublicAddress) (reward : UInt64) : Except String Unit := do
  let output <- orReject minerTx.vout[outputIndex]?
    ("Output Index: " ++ toString outputIndex ++
      " , indexes out of bounds in vout array with size: ")
  rejectIf (!withinOne output.amount reward)
    ("Master node reward amount incorrect. Should be " ++ printMoney reward ++ ", is:" ++
      printMoney output.amount)
  match output.target with
  | .toKey key => do
      let outEphPublicKey <- outputKey O height outputIndex receiver
      rejectIf (key != outEphPublicKey)
        ("Invalid master node reward at output: " ++ toString outputIndex ++
          ", output key, specifies wrong key")
  | _ => .error "Master node output target type should be txout_to_key"

/-! ## The payouts of a coinbase -/

def payoutShares (payouts : List PayoutEntry) (totalReward : UInt64)
    (distributeRemainder : Bool) : List (AccountPublicAddress × UInt64) :=
  (payouts.map PayoutEntry.address).zip
    (distributeRewardByPortions payouts totalReward distributeRemainder)

/-- Verify payouts from a cursor on, which skips zero shares. -/
def verifyPayouts (verify : Nat -> AccountPublicAddress -> UInt64 -> Except String Unit) :
    Nat -> List (AccountPublicAddress × UInt64) -> Except String Nat
  | voutIndex, [] => .ok voutIndex
  | voutIndex, (address, share) :: rest =>
    if share = 0 then
      verifyPayouts verify voutIndex rest
    else do
      verify voutIndex address share
      verifyPayouts verify (voutIndex + 1) rest

inductive VerifyMode where
  | miner
  | posBlockLeaderIsProducer
  | posDifferentBlockProducer
deriving DecidableEq

def VerifyMode.text : VerifyMode -> String
  | .miner => "miner"
  | .posBlockLeaderIsProducer => "POS"
  | .posDifferentBlockProducer => "POS alt round"

variable (blockLeader : Payout) (b : Block P)

def posQuorumOf : Quorum :=
  O.generatePosQuorum blockLeader.key b.majorVersion b.prevId b.pos.round

def blockProducerKey : PublicKey :=
  (posQuorumOf O blockLeader b).workers.headD nullPkey

def verifyMode : VerifyMode :=
  if blockHasPosComponents b then
    if blockProducerKey O blockLeader b = blockLeader.key then .posBlockLeaderIsProducer
    else .posDifferentBlockProducer
  else
    .miner

/-- The quorum of a POS block exists, and round zero is produced by its leader. -/
def checkPosQuorum : Except String Unit :=
  if blockHasPosComponents b then do
    rejectIf (!verifyPosQuorumSizes (posQuorumOf O blockLeader b))
      ("POS block received but POS has insufficient nodes for quorum, block hash " ++
        O.formatBlockHash b ++ ", height " ++ toString (getBlockHeight b) ++ " ")
    rejectIf (b.pos.round == 0 && verifyMode O blockLeader b == .posDifferentBlockProducer)
      ("The block producer in POS round 0 should be the same node as the block leader: " ++
        O.formatKey blockLeader.key ++ ", actual producer: " ++
        O.formatKey (blockProducerKey O blockLeader b))
  else
    .ok ()

/-- The payouts of the producer of a POS block, who must be a master node. -/
def blockProducerPayout (infos : Table PublicKey MasterNodeInfo) (blockLeader : Payout)
    (b : Block P) : Except String Payout :=
  if verifyMode O blockLeader b = .miner then
    .ok { key := nullPkey, payouts := [] }
  else do
    let info <- orReject (infos.find? (blockProducerKey O blockLeader b))
      ("The POS block producer for round " ++ toString b.pos.round ++
        " is not currently a Master Node: " ++ O.formatKey (blockProducerKey O blockLeader b))
    .ok (masterNodeInfoToPayout (blockProducerKey O blockLeader b) info)

def hasGovernanceOutput (net : Network) (b : Block P) (parts : BlockRewardParts) : Bool :=
  heightHasGovernanceOutput net b.majorVersion (getBlockHeight b) ||
    (decide (featurePrivacyTokens <= b.majorVersion) && decide (0 < parts.governancePaid))

/-- The outputs that stand before or beside the payouts of the leader. -/
def producerVouts (mode : VerifyMode) (producer : Payout) (parts : BlockRewardParts) : Nat :=
  match mode with
  | .posDifferentBlockProducer => if 0 < parts.minerFee then producer.payouts.length else 0
  | .posBlockLeaderIsProducer => 0
  | .miner => if 0 < parts.baseMiner + parts.minerFee then 1 else 0

def expectedVoutsSize (net : Network) (b : Block P) (mode : VerifyMode)
    (blockLeader producer : Payout) (parts : BlockRewardParts) : Nat :=
  producerVouts mode producer parts + blockLeader.payouts.length +
    if hasGovernanceOutput net b parts then 1 else 0

def verifyCoinbaseAmounts
    (verify : Nat -> AccountPublicAddress -> UInt64 -> Except String Unit)
    (hfVersion : Hf) (mode : VerifyMode) (blockLeader producer : Payout)
    (parts : BlockRewardParts) : Except String Nat :=
  match mode with
  | .miner =>
    -- The output of the miner itself is not looked at.
    verifyPayouts verify (if 0 < parts.baseMiner + parts.minerFee then 1 else 0)
      (payoutShares blockLeader.payouts parts.masterNodeTotal (decide (Hf.hf17POS <= hfVersion)))
  | .posBlockLeaderIsProducer =>
    verifyPayouts verify 0
      (payoutShares blockLeader.payouts (parts.masterNodeTotal + parts.minerFee) true)
  | .posDifferentBlockProducer => do
      let voutIndex <- verifyPayouts verify 0
        (payoutShares producer.payouts parts.minerFee true)
      verifyPayouts verify voutIndex (payoutShares blockLeader.payouts parts.masterNodeTotal true)

def validateMinerTx (net : Network) (infos : Table PublicKey MasterNodeInfo) (b : Block P)
    (parts : BlockRewardParts) : Except String Unit :=
  if b.majorVersion < Hf.hf9MasterNodes then
    .ok ()
  else do
    let blockLeader := getBlockLeader infos
    let mode := verifyMode O blockLeader b
    rejectIf (blockLeader.key != getMasterNodeWinnerFromTxExtra b.minerTx)
      ("Master node reward winner is incorrect! Expected " ++ O.formatKey blockLeader.key ++
        ", block has " ++ O.formatKey (getMasterNodeWinnerFromTxExtra b.minerTx) ++ " ")
    checkPosQuorum O blockLeader b
    let producer <- blockProducerPayout O infos blockLeader b
    let expected := expectedVoutsSize net b mode blockLeader producer parts
    rejectIf (b.minerTx.vout.length != expected)
      ("Expected " ++ mode.text ++
        " block, the miner TX specifies a different amount of outputs vs the expected: " ++
        toString expected ++ ", miner tx outputs: " ++ toString b.minerTx.vout.length)
    rejectIf (decide (Hf.hf17POS <= b.majorVersion) && parts.baseMiner != 0)
      ("Miner reward is incorrect expected 0 reward, block specified " ++
        printMoney parts.baseMiner)
    let _ <- verifyCoinbaseAmounts
      (verifyCoinbaseTxOutput O b.minerTx (getBlockHeight b)) b.majorVersion mode
      blockLeader producer parts
    .ok ()

end

/-! ## Sanity checks -/

def outsFit : UInt64 -> List (TxOut P) -> Bool
  | _, [] => true
  | money, o :: rest =>
    if o.amount + money < money then false else outsFit (money + o.amount) rest

def checkOutsOverflow (tx : Transaction P) : Bool :=
  outsFit 0 tx.vout

def getOutsMoneyAmount (tx : Transaction P) : UInt64 :=
  tx.vout.foldl (fun amount o => amount + o.amount) 0

def checkCoinbaseInput (b : Block P) (height : UInt64) : Except String Unit :=
  match b.minerTx.vin with
  | [.gen h] =>
    rejectIf (h != height)
      ("The miner transaction in block has invalid height: " ++ toString h ++
        ", expected: " ++ toString height)
  | [_] => .error "coinbase transaction in the block has the wrong type"
  | _ => .error "coinbase transaction in the block has no inputs"

def checkCoinbaseType (b : Block P) (hfVersion : Hf) : Except String Unit :=
  if Hf.hf13Checkpointing <= hfVersion then do
    rejectIf (b.minerTx.type != .standard)
      "Coinbase invalid transaction type for coinbase transaction."
    rejectIf (decide (b.minerTx.version.toNat < (getMinVersionForHf hfVersion).toNat) ||
        decide ((getMaxVersionForHf hfVersion).toNat < b.minerTx.version.toNat))
      ("Coinbase invalid version: " ++ toString b.minerTx.version.toNat ++
        " for hardfork: " ++ toString hfVersion.toNat ++ " min/max version:  " ++
        toString (getMinVersionForHf hfVersion).toNat ++ "/" ++
        toString (getMaxVersionForHf hfVersion).toNat)
  else
    .ok ()

variable (O : CoinbaseOracles P)

def prevalidateMinerTransaction (b : Block P) (height : UInt64) (hfVersion : Hf) :
    Except String Unit := do
  checkCoinbaseInput b height
  let expected := height + UInt64.ofNat minedMoneyUnlockWindow
  rejectIf (b.minerTx.unlockTime != expected)
    ("coinbase transaction transaction has the wrong unlock time=" ++
      toString b.minerTx.unlockTime ++ ", expected " ++ toString expected)
  checkCoinbaseType b hfVersion
  rejectIf (decide (Hf.hf17POS <= hfVersion) && b.minerTx.rctSignatures.type != .null)
    "RingCT signatures not allowed in coinbase transactions"
  rejectIf (!checkOutsOverflow b.minerTx)
    ("miner transaction has money overflow in block " ++ O.formatBlockHash b)

/-! ## Amounts -/

structure CoinbaseContext where
  net : Network
  networkVersion : UInt64 -> Hf
  dbHeight : UInt64
  currentBlockCumulWeightMedian : UInt64
  lastBlocksWeightMedian : UInt64
  masterNodesInfos : Table PublicKey MasterNodeInfo
  /-- The value of a variable that one path of the reward function never sets. -/
  uninitialised : UInt64

structure CoinbaseArgs where
  cumulativeBlockWeight : UInt64
  fee : UInt64
  alreadyGeneratedCoins : UInt64
  version : Hf
  registrationGovernanceFee : UInt64

variable (ctx : CoinbaseContext)

def rewardPartsOf (b : Block P) (args : CoinbaseArgs) : Except String BlockRewardParts :=
  let medianWeight :=
    if Hf.hf17POS <= args.version then ctx.currentBlockCumulWeightMedian
    else ctx.lastBlocksWeightMedian
  let height := getBlockHeight b
  getBeldexBlockReward ctx.uninitialised medianWeight args.cumulativeBlockWeight
    args.alreadyGeneratedCoins args.version
    { fee := args.fee
      height := height
      testnetOverride := ctx.net.type == .testnet && decide (height < 386000)
      registrationGovernanceFee := args.registrationGovernanceFee
      batchedGovernance := calcBatchedGovernanceReward ctx.net ctx.networkVersion height }

def validateGovernanceRewardKey (height : UInt64) (address : AccountPublicAddress)
    (outputIndex : Nat) (key : PublicKey) : Bool :=
  match outputKey O height outputIndex address with
  | .ok correctKey => correctKey == key
  | .error _ => false

def governanceChecked (b : Block P) (args : CoinbaseArgs) : Bool :=
  args.alreadyGeneratedCoins != 0 &&
    (heightHasGovernanceOutput ctx.net b.majorVersion (getBlockHeight b) ||
      (decide (featurePrivacyTokens <= args.version) &&
        decide (0 < args.registrationGovernanceFee)))

def checkGovernanceOutput (b : Block P) (args : CoinbaseArgs) (parts : BlockRewardParts) :
    Except String Unit :=
  if governanceChecked ctx b args then do
    rejectIf (decide (Hf.hf17POS <= args.version) && parts.governancePaid == 0)
      "Governance reward should not be 0 after hardfork v17 if this height has a governance output because it is the batched payout height"
    let output <- orReject b.minerTx.vout.getLast? "miner tx has no outputs"
    rejectIf (output.amount != parts.governancePaid)
      ("Governance reward amount incorrect.  Should be: " ++
        printMoney parts.governancePaid ++ ", is: " ++ printMoney output.amount)
    match output.target with
    | .toKey key =>
      rejectIf (!validateGovernanceRewardKey O ctx.dbHeight
          (ctx.net.governanceWalletAddress args.version) (b.minerTx.vout.length - 1) key)
        "Governance reward public key incorrect."
    | _ => .error "Governance reward output target type should be txout_to_key"
  else
    .ok ()

/-- Validate the amounts of a coinbase; the result is the base reward. -/
def validateMinerTransaction (b : Block P) (args : CoinbaseArgs) : Except String UInt64 := do
  let moneyInUse := getOutsMoneyAmount b.minerTx
  rejectIf b.minerTx.vout.isEmpty "miner tx has no outputs"
  let parts <- orReject (rewardPartsOf ctx b args).toOption
    ("block weight " ++ toString args.cumulativeBlockWeight ++
      " is bigger than allowed for this blockchain")
  within "Miner tx failed validation: "
    (validateMinerTx O ctx.net ctx.masterNodesInfos b parts)
  checkGovernanceOutput O ctx b args parts
  -- One unit more than the parts add up to, for rounding.
  let maxBaseReward := parts.baseMiner + parts.governancePaid + parts.masterNodeTotal + 1
  let maxMoneyInUse := maxBaseReward + parts.minerFee
  rejectIf (decide (maxMoneyInUse < moneyInUse))
    ("coinbase transaction spends too much money (" ++ printMoney moneyInUse ++
      "). Maximum block reward is " ++ printMoney maxMoneyInUse ++ " (= " ++
      printMoney maxBaseReward ++ " base + " ++ printMoney parts.minerFee ++ " fees)")
  let recycledFee := parts.minerFee +
    (if featurePrivacyTokens <= args.version then args.registrationGovernanceFee else 0)
  rejectIf (decide (moneyInUse < recycledFee)) "base reward calculation bug"
  .ok (moneyInUse - recycledFee)

end Beldex.Coinbase
