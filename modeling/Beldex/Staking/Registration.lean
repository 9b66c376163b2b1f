import Beldex.Staking.Contribution

/-!
# Registration of a master node

The operator of a master node splits the staking requirement into portions and
names the contributors for whom they are reserved.  A registration transaction is
accepted when the portions are well formed and signed, and when it stakes at
least the operator's own part.  The reserved amounts are portions of the
requirement, each rounded down.
-/

namespace Beldex.Staking

open Basic Common Crypto Coinbase Foundation Foundation.Fallible

variable {P : Type}

/-! ## Records -/

structure PosSortKey where
  lastHeightValidatingInQuorum : UInt64 := 0
  quorumIndex : UInt8 := 0
deriving DecidableEq

structure MasterNode extends MasterNodeInfo where
  registrationHeight : UInt64
  requestedUnlockHeight : UInt64 := 0
  decommissionCount : UInt32 := 0
  lastDecommissionHeight : UInt64 := 0
  lastDecommissionReasonConsensusAll : UInt16 := 0
  lastDecommissionReasonConsensusAny : UInt16 := 0
  recommissionCredit : Int64 := 0
  portionsForOperator : UInt64
  swarmId : UInt64
  operatorAddress : AccountPublicAddress
  lastIpChangeHeight : UInt64
  registrationHfVersion : Hf
  posSorter : PosSortKey := {}

abbrev MasterNodes := Table PublicKey MasterNode

/-! ## The fields of the extra section -/

structure MasterNodeRegister where
  publicSpendKeys : List PublicKey
  publicViewKeys : List PublicKey
  portionsForOperator : UInt64
  portions : List UInt64
  expirationTimestamp : UInt64
  masterNodeSignature : Signature

structure RegistrationExtra extends StakingExtra where
  masterNodeRegister : Option MasterNodeRegister

structure ContributorArgs where
  addresses : List AccountPublicAddress
  portionsForOperator : UInt64
  portions : List UInt64

structure RegistrationFields where
  contributorArgs : ContributorArgs
  expirationTimestamp : UInt64
  masterNodeKey : PublicKey
  signature : Signature

def regTxExtractFields (extra : RegistrationExtra) : Option RegistrationFields := do
  let registration <- extra.masterNodeRegister
  let masterNodeKey <- extra.masterNodePubkey
  if registration.publicSpendKeys.length ≠ registration.publicViewKeys.length ∨
      registration.publicSpendKeys.length ≠ registration.portions.length then
    none
  else
    some
      { contributorArgs :=
          { addresses := List.zipWith AccountPublicAddress.mk registration.publicSpendKeys
              registration.publicViewKeys
            portionsForOperator := registration.portionsForOperator
            portions := registration.portions }
        expirationTimestamp := registration.expirationTimestamp
        masterNodeKey := masterNodeKey
        signature := registration.masterNodeSignature }

/-! ## Portions -/

def reservePortions (hf : Hf) : UInt64 -> Nat -> List UInt64 -> Option UInt64
  | reserved, _, [] => some reserved
  | reserved, i, portion :: rest =>
    if portion < getMinNodeContribution hf (UInt64.ofNat stakingPortions) reserved i then
      none
    else
      reservePortions hf (reserved + portion) (i + 1) rest

def checkMasterNodePortions (hf : Hf) (portions : List UInt64) : Bool :=
  if maxNumberOfContributors < portions.length then
    false
  else
    match reservePortions hf 0 0 portions with
    | some reserved => decide (reserved <= UInt64.ofNat stakingPortions)
    | none => false

def listPortions (portions : List UInt64) : String :=
  String.intercalate ", " (portions.map fun portion => toString portion)

def validateContributorArgs (hf : Hf) (args : ContributorArgs) : Except String Unit := do
  rejectIf args.portions.isEmpty "No portions given"
  -- The text gives the number of portions in both places.
  rejectIf (args.portions.length != args.addresses.length)
    ("Number of portions (" ++ toString args.portions.length ++
      ") doesn't match the number of addresses (" ++ toString args.portions.length ++ ")")
  rejectIf (decide (maxNumberOfContributors < args.portions.length)) "Too many contributors"
  rejectIf (decide (UInt64.ofNat stakingPortions < args.portionsForOperator))
    "Operator portions are too high"
  rejectIf (!checkMasterNodePortions hf args.portions)
    ("Invalid portions: \x7b" ++ listPortions args.portions ++ "\x7d")

/-! ## The signature of a registration -/

structure RegistrationOracles (P : Type) extends StakingOracles P where
  cnFastHash : UInt64 -> List (AccountPublicAddress × UInt64) -> UInt64 -> Hash
  checkKey : PublicKey -> Bool
  checkSignature : Hash -> PublicKey -> Signature -> Bool
  formatKey : PublicKey -> String
  formatHash : Hash -> String

def portionsLeft : UInt64 -> List UInt64 -> Option UInt64
  | left, [] => some left
  | left, portion :: rest =>
    if left < portion then none else portionsLeft (left - portion) rest

variable (env : RegistrationOracles P)

def getRegistrationHash (args : ContributorArgs) (expirationTimestamp : UInt64) : Option Hash :=
  if args.addresses.length ≠ args.portions.length then
    none
  else
    (portionsLeft (UInt64.ofNat stakingPortions) args.portions).map fun _ =>
      env.cnFastHash args.portionsForOperator (args.addresses.zip args.portions) expirationTimestamp

def validateContributorArgsSignature (args : ContributorArgs) (expirationTimestamp : UInt64)
    (masterNodeKey : PublicKey) (signature : Signature) : Except String Unit := do
  let hash <- orReject (getRegistrationHash env args expirationTimestamp)
    "Failed to generate registration hash"
  rejectIf (!env.checkKey masterNodeKey)
    ("Master Node Key was not a valid crypto key" ++ env.formatKey masterNodeKey)
  rejectIf (!env.checkSignature hash masterNodeKey signature)
    ("Failed to validate master node with key:" ++ env.formatKey masterNodeKey ++
      " and hash: " ++ env.formatHash hash)

/-! ## The registration -/

inductive RegistrationRejection where
  | noRegistration
  | invalidContributions (what : String)
  | expired
  | notDecoded
  | multiOutputStake
  | notFromOperator
  | belowMinTransfer (min : UInt64)
  | tooManyParticipants
  | duplicateParticipant
  | insufficientOperatorStake
  | alreadyRegistered

/-- The exceptions of the two validations are caught and end the registration. -/
def catchInvalid (x : Except String Unit) : Except RegistrationRejection Unit :=
  match x with
  | .ok () => .ok ()
  | .error what => .error (.invalidContributions what)

def modifiedStakingRequirementHeight : UInt64 := 56500

def getStakingRequirement (height : UInt64) : UInt64 :=
  if modifiedStakingRequirementHeight <= height then 10000 * coin else 100000 * coin

def portionsToAmount (portions stakingRequirement : UInt64) : UInt64 :=
  mulDiv128 stakingRequirement portions (UInt64.ofNat stakingPortions)

def decommissionInitialCreditV18 : Int64 := 360

def checkRegistrationStake (hf : Hf) (args : ContributorArgs) (stakingRequirement : UInt64)
    (stake : StakingComponents) : Except RegistrationRejection Unit :=
  if Hf.hf17POS <= hf then do
    rejectIf (stake.lockedContributions.length != 1) .multiOutputStake
    rejectIf (decide (args.addresses.head? ≠ some stake.address)) .notFromOperator
  else do
    let minTransfer := getMinNodeContribution hf stakingRequirement 0 0
    rejectIf (decide (stake.transferred < minTransfer)) (.belowMinTransfer minTransfer)
    let totalNumOfAddr :=
      if args.addresses.contains stake.address then args.addresses.length
      else args.addresses.length + 1
    rejectIf (decide (maxNumberOfContributors < totalNumOfAddr)) .tooManyParticipants

def reserveSpot (info : MasterNodeInfo) (spot : AccountPublicAddress × UInt64) :
    Except RegistrationRejection MasterNodeInfo := do
  rejectIf (info.contributors.any fun c => c.address == spot.1) .duplicateParticipant
  let amount := portionsToAmount spot.2 info.stakingRequirement
  .ok { info with
    contributors := info.contributors ++ [{ reserved := amount, address := spot.1 }]
    totalReserved := info.totalReserved + amount }

variable (nettype : NetworkType)

def isRegistrationTx (hf : Hf) (tx : Transaction P) (extra : RegistrationExtra)
    (blockTimestamp blockHeight : UInt64) (index : UInt32) :
    Except RegistrationRejection (PublicKey × MasterNode) := do
  let fields <- orReject (regTxExtractFields extra) .noRegistration
  let args := fields.contributorArgs
  catchInvalid (validateContributorArgs hf args)
  catchInvalid (validateContributorArgsSignature env args fields.expirationTimestamp
    fields.masterNodeKey fields.signature)
  rejectIf (decide (fields.expirationTimestamp < blockTimestamp)) .expired
  let stakingRequirement := getStakingRequirement blockHeight
  let stake <- orReject
    (txGetStakingComponentsAndAmounts env.toStakingOracles nettype hf tx extra.toStakingExtra
      blockHeight) .notDecoded
  checkRegistrationStake hf args stakingRequirement stake
  let info <- run reserveSpot
    { lastRewardBlockHeight := blockHeight
      lastRewardTransactionIndex := index
      activeSinceHeight := 0
      contributors := []
      totalContributed := 0
      totalReserved := 0
      stakingRequirement := stakingRequirement } (args.addresses.zip args.portions)
  rejectIf (decide (Hf.hf17POS <= hf) && info.contributors.head?.any fun operator =>
      decide (stake.transferred < operator.reserved)) .insufficientOperatorStake
  .ok (fields.masterNodeKey,
    { toMasterNodeInfo := info
      registrationHeight := blockHeight
      recommissionCredit := if Hf.hf18Bns <= hf then decommissionInitialCreditV18 else 0
      portionsForOperator := args.portionsForOperator
      swarmId := unassignedSwarmId
      operatorAddress := args.addresses.headD ⟨nullPkey, nullPkey⟩
      lastIpChangeHeight := blockHeight
      registrationHfVersion := hf })

/-- Before infinite staking a node in its grace period may register again. -/
def keepPlace (hf : Hf) (blockHeight : UInt64) (old next : MasterNode) :
    Except RegistrationRejection MasterNode := do
  rejectIf (decide (hf < Hf.hf10Bulletproofs) ||
      decide (blockHeight < old.registrationHeight + stakingNumLockBlocks nettype hf))
    .alreadyRegistered
  .ok { next with
    lastRewardBlockHeight := old.lastRewardBlockHeight
    lastRewardTransactionIndex := old.lastRewardTransactionIndex }

def processRegistrationTx (hf : Hf) (tx : Transaction P) (extra : RegistrationExtra)
    (blockTimestamp blockHeight : UInt64) (index : UInt32) (nodes : MasterNodes) :
    Except RegistrationRejection MasterNodes := do
  let (key, node) <- isRegistrationTx env nettype hf tx extra blockTimestamp blockHeight index
  match nodes.find? key with
  | none => .ok (nodes.set key node)
  | some old =>
    if Hf.hf11InfiniteStaking <= hf then
      .error .alreadyRegistered
    else do
      let node <- keepPlace nettype hf blockHeight old node
      .ok (nodes.set key node)

/-- Credit a contribution to the record of its node; the flag tells that the node is now
fully funded. -/
def MasterNodes.processContributionTx (env : StakingOracles P) (nettype : NetworkType)
    (hf : Hf) (blockHeight : UInt64) (tx : Transaction P) (extra : StakingExtra)
    (index : UInt32) (nodes : MasterNodes) : Except ContributionRejection (MasterNodes × Bool) := do
  let stake <- orReject
    (txGetStakingComponentsAndAmounts env nettype hf tx extra blockHeight) .notDecoded
  let node <- orReject (nodes.find? stake.masterNodePubkey) .unknownMasterNode
  let info <- applyContribution hf blockHeight index extra node.toMasterNodeInfo stake
  .ok (nodes.set stake.masterNodePubkey { node with toMasterNodeInfo := info }, info.isFullyFunded)

end Beldex.Staking
