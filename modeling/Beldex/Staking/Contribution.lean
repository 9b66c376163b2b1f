import Beldex.Coinbase.Reward
import Beldex.Foundation.Table

/-!
# Contributions to a master node

A master node is opened by its operator, who may reserve parts of the staking
requirement for other contributors, and is funded by contribution transactions.
This module follows such a transaction from the amounts decoded out of its
outputs to the update of the contributor records.  All amounts are 64-bit words
with the wrap-around of the code.
-/

namespace Beldex.Staking

open Basic Crypto Coinbase Foundation Foundation.Fallible

variable {P : Type}

/-! ## Records -/

/-- An output that is locked while the master node exists. -/
structure Contribution where
  keyImagePubKey : PublicKey
  keyImage : KeyImage
  amount : UInt64
deriving DecidableEq

structure Contributor where
  amount : UInt64 := 0
  reserved : UInt64 := 0
  address : AccountPublicAddress
  lockedContributions : List Contribution := []

/-- The part of a master node's record that a contribution reads or writes. -/
structure MasterNodeInfo where
  lastRewardBlockHeight : UInt64
  lastRewardTransactionIndex : UInt32
  activeSinceHeight : Int64
  contributors : List Contributor
  totalContributed : UInt64
  totalReserved : UInt64
  stakingRequirement : UInt64

variable (info : MasterNodeInfo)

def MasterNodeInfo.isFullyFunded : Bool :=
  decide (info.stakingRequirement <= info.totalContributed)

def MasterNodeInfo.totalNumLockedContributions : Nat :=
  (info.contributors.map fun contributor => contributor.lockedContributions.length).sum

/-! ## Decoding a staking transaction -/

structure KeyImageProof where
  keyImage : KeyImage
  signature : Signature
deriving DecidableEq

structure StakingExtra where
  masterNodePubkey : Option PublicKey
  masterNodeContributor : Option AccountPublicAddress
  txSecretKey : Option Key
  txKeyImageProofs : Option (List KeyImageProof)

structure StakingComponents where
  masterNodePubkey : PublicKey
  address : AccountPublicAddress
  transferred : UInt64
  txKey : Key
  lockedContributions : List Contribution

/-- The cryptographic operations that decoding uses; `none` stands for a failure. -/
structure StakingOracles (P : Type) where
  generateKeyDerivation : PublicKey -> Key -> Option Key
  derivationToScalar : Key -> Nat -> Key
  derivePublicKey : Key -> Nat -> PublicKey -> Option PublicKey
  decodeRctSimple : RctSig P -> Key -> Nat -> Option UInt64
  decodeRct : RctSig P -> Key -> Nat -> Option UInt64
  checkKeyImageSignature : KeyImage -> PublicKey -> Signature -> Bool

variable (env : StakingOracles P)

/-- The amount that an output pays to the derivation; nothing if it cannot be decoded. -/
def getStakingOutputContribution (tx : Transaction P) (i : Nat) (derivation : Key) : UInt64 :=
  match tx.vout[i]?.map TxOut.target with
  | some (.toKey _) =>
    let scalar1 := env.derivationToScalar derivation i
    match tx.rctSignatures.type with
    | .simple | .bulletproof | .bulletproof2 | .clsag | .bulletproofPlus =>
      (env.decodeRctSimple tx.rctSignatures scalar1 i).getD 0
    | .full => (env.decodeRct tx.rctSignatures scalar1 i).getD 0
    | .null => 0
  | _ => 0

def txGetStakingComponents (extra : StakingExtra) : Option StakingComponents := do
  let masterNodePubkey <- extra.masterNodePubkey
  let address <- extra.masterNodeContributor
  let txKey <- extra.txSecretKey
  some
    { masterNodePubkey := masterNodePubkey
      address := address
      transferred := 0
      txKey := txKey
      lockedContributions := [] }

variable (hf : Hf)

def blocksPerDay : UInt64 :=
  if Hf.hf17POS <= hf then 2880 else 720

variable (nettype : NetworkType)

def stakingNumLockBlocks (hf : Hf) : UInt64 :=
  match nettype with
  | .fakechain => 30
  | .testnet => 2 * blocksPerDay hf
  | _ => 30 * blocksPerDay hf

def maxBlockNumber : UInt64 := 500000000

/-- The key of an output that is derived from the contributor's own address. -/
def ownStealthKey? (tx : Transaction P) (derivation : Key) (address : AccountPublicAddress)
    (i : Nat) : Option PublicKey := do
  let ephemeralPubKey <- env.derivePublicKey derivation i address.spendPublicKey
  match tx.vout[i]?.map TxOut.target with
  | some (.toKey key) => if key = ephemeralPubKey then some ephemeralPubKey else none
  | _ => none

/-- Lock the outputs from number `i` on whose future key image is proven. -/
def lockOutputs (env : StakingOracles P) (tx : Transaction P) (derivation : Key) :
    List KeyImageProof -> StakingComponents -> Nat -> List (TxOut P) -> StakingComponents
  | _, stake, _, [] => stake
  | proofs, stake, i, _ :: rest =>
    let transferred := getStakingOutputContribution env tx i derivation
    match ownStealthKey? env tx derivation stake.address i with
    | some ephemeralPubKey =>
      let proof? := proofs.find? fun proof =>
        env.checkKeyImageSignature proof.keyImage ephemeralPubKey proof.signature
      match proof?, decide (transferred = 0) with
      | some proof, false =>
        -- Each proof stands for one output only.
        lockOutputs env tx derivation (proofs.erase proof)
          { stake with
            transferred := stake.transferred + transferred
            lockedContributions := stake.lockedContributions ++
              [{ keyImagePubKey := ephemeralPubKey
                 keyImage := proof.keyImage
                 amount := transferred }] }
          (i + 1) rest
      | _, _ => lockOutputs env tx derivation proofs stake (i + 1) rest
    | none => lockOutputs env tx derivation proofs stake (i + 1) rest

def hasCorrectUnlockTime (hf : Hf) (tx : Transaction P) (blockHeight : UInt64) (i : Nat) : Bool :=
  let unlockTime :=
    if TxVersion.v3PerOutputUnlockTimes.toNat <= tx.version.toNat then
      tx.outputUnlockTimes.getD i 0
    else
      tx.unlockTime
  let minHeight := blockHeight + stakingNumLockBlocks nettype hf
  decide (unlockTime < maxBlockNumber) && decide (minHeight <= unlockTime)

/-- Before infinite staking every output with enough lock time counts. -/
def timeLockedAmount (hf : Hf) (tx : Transaction P) (blockHeight : UInt64) (derivation : Key) :
    UInt64 :=
  (List.range tx.vout.length).foldl
    (fun transferred i =>
      if hasCorrectUnlockTime nettype hf tx blockHeight i then
        transferred + getStakingOutputContribution env tx i derivation
      else
        transferred) 0

def txGetStakingComponentsAndAmounts (hf : Hf) (tx : Transaction P) (extra : StakingExtra)
    (blockHeight : UInt64) : Option StakingComponents := do
  let contribution <- txGetStakingComponents extra
  let derivation <-
    env.generateKeyDerivation contribution.address.viewPublicKey contribution.txKey
  if Hf.hf11InfiniteStaking <= hf then do
    let proofs <- extra.txKeyImageProofs
    some (lockOutputs env tx derivation proofs contribution 0 tx.vout)
  else
    some { contribution with
      transferred := timeLockedAmount env nettype hf tx blockHeight derivation }

/-! ## Bounds on a contribution -/

def maxNumberOfContributors : Nat := 4

def getMinNodeContributionPreV11 (stakingRequirement totalReserved : UInt64) : UInt64 :=
  let left := stakingRequirement - totalReserved
  let part := stakingRequirement / UInt64.ofNat maxNumberOfContributors
  if part < left then part else left

def getMinNodeContribution (stakingRequirement totalReserved : UInt64) (numContributions : Nat) :
    UInt64 :=
  if hf < Hf.hf11InfiniteStaking then
    getMinNodeContributionPreV11 stakingRequirement totalReserved
  else if maxNumberOfContributors <= numContributions then
    UInt64.ofNat (2 ^ 64 - 1)
  else
    (stakingRequirement - totalReserved) / UInt64.ofNat (maxNumberOfContributors - numContributions)

/-- From the POS fork on at most 101/100 of what is left may be staked. -/
def getMaxNodeContribution (stakingRequirement totalReserved : UInt64) : UInt64 :=
  if Hf.hf17POS <= hf then (stakingRequirement - totalReserved) * 101 / 100
  else UInt64.ofNat (2 ^ 64 - 1)

/-! ## Looking for the contributor -/

structure ContributorScan where
  newContributor : Bool := true
  contributorPosition : Nat := 0
  otherReservations : Nat := 0
  contrUnfilledReserved : UInt64 := 0

def scanContributor (address : AccountPublicAddress) (scan : ContributorScan) (i : Nat)
    (c : Contributor) : ContributorScan :=
  if c.address = address then
    { scan with
      contributorPosition := i
      newContributor := false
      contrUnfilledReserved :=
        if c.amount < c.reserved then c.reserved - c.amount
        else scan.contrUnfilledReserved }
  else if c.amount < c.reserved then
    { scan with otherReservations := scan.otherReservations + 1 }
  else
    scan

def scanFrom (address : AccountPublicAddress) :
    ContributorScan -> Nat -> List Contributor -> ContributorScan
  | scan, _, [] => scan
  | scan, i, c :: rest => scanFrom address (scanContributor address scan i c) (i + 1) rest

def scanContributors (address : AccountPublicAddress) (contributors : List Contributor) :
    ContributorScan :=
  scanFrom address {} 0 contributors

/-! ## The transaction -/

inductive ContributionRejection where
  | notDecoded
  | unknownMasterNode
  | alreadyFullyFunded
  | noTxSecretKey
  | multiOutputStake
  | tooManyContributions
  | belowMin (min : UInt64)
  | aboveMax (max : UInt64)

def tooManyContributions (info : MasterNodeInfo) (scan : ContributorScan)
    (stake : StakingComponents) : Bool :=
  let existingContributions := info.totalNumLockedContributions
  if Hf.hf17POS <= hf then
    decide (maxNumberOfContributors < existingContributions + scan.otherReservations + 1)
  else if Hf.hf11InfiniteStaking <= hf then
    decide (maxNumberOfContributors < existingContributions + stake.lockedContributions.length)
  else
    scan.newContributor && decide (maxNumberOfContributors <= info.contributors.length)

def minContribution (info : MasterNodeInfo) (scan : ContributorScan) : UInt64 :=
  let existingContributions := info.totalNumLockedContributions
  if scan.newContributor = false ∧ hf < Hf.hf11InfiniteStaking then
    1
  else if hf < Hf.hf17POS then
    getMinNodeContribution hf info.stakingRequirement info.totalReserved existingContributions
  else if 0 < scan.contrUnfilledReserved then
    -- A reserved spot is filled in one go.
    scan.contrUnfilledReserved
  else
    getMinNodeContribution hf info.stakingRequirement info.totalReserved
      (existingContributions + scan.otherReservations)

def validateContribution (extra : StakingExtra) (info : MasterNodeInfo)
    (stake : StakingComponents) :
    Except ContributionRejection ContributorScan := do
  rejectIf info.isFullyFunded .alreadyFullyFunded
  rejectIf extra.txSecretKey.isNone .noTxSecretKey
  let scan := scanContributors stake.address info.contributors
  rejectIf (decide (Hf.hf17POS <= hf) && stake.lockedContributions.length != 1)
    .multiOutputStake
  rejectIf (tooManyContributions hf info scan stake) .tooManyContributions
  rejectIf (decide (stake.transferred < minContribution hf info scan))
    (.belowMin (minContribution hf info scan))
  let max := getMaxNodeContribution hf info.stakingRequirement
    (info.totalReserved - scan.contrUnfilledReserved)
  rejectIf (decide (max < stake.transferred)) (.aboveMax max)
  .ok scan

/-- The greatest amount to which a contributor can go without exceeding the requirement. -/
def maxAmount (contributor : Contributor) : UInt64 :=
  contributor.reserved + (info.stakingRequirement - info.totalReserved)

def creditedAmount (contributor : Contributor) (transferred : UInt64) : UInt64 :=
  let room := maxAmount info contributor - contributor.amount
  if transferred < room then transferred else room

def Contributor.credit (contributor : Contributor) (hf : Hf) (credited : UInt64)
    (locked : List Contribution) : Contributor :=
  let amount := contributor.amount + credited
  { contributor with
    amount := amount
    reserved := if contributor.reserved < amount then amount else contributor.reserved
    lockedContributions :=
      if Hf.hf11InfiniteStaking <= hf then contributor.lockedContributions ++ locked
      else contributor.lockedContributions }

def openContributor (scan : ContributorScan) (address : AccountPublicAddress)
    (contributors : List Contributor) : List Contributor × Nat :=
  if scan.newContributor then
    (contributors ++ [{ address := address }], contributors.length)
  else
    (contributors, scan.contributorPosition)

def creditContribution (blockHeight : UInt64) (index : UInt32) (stake : StakingComponents)
    (info : MasterNodeInfo) (contributors : List Contributor) (position : Nat) : MasterNodeInfo :=
  let contributor := contributors.getD position { address := stake.address }
  let credited := creditedAmount info contributor stake.transferred
  let amount := contributor.amount + credited
  { info with
    contributors :=
      contributors.set position (contributor.credit hf credited stake.lockedContributions)
    totalContributed := info.totalContributed + credited
    totalReserved :=
      if contributor.reserved < amount then
        info.totalReserved + (amount - contributor.reserved)
      else
        info.totalReserved
    lastRewardBlockHeight := blockHeight
    lastRewardTransactionIndex := index }

/-- A master node becomes active when it is fully funded. -/
def MasterNodeInfo.activate (blockHeight : UInt64) : MasterNodeInfo :=
  if info.isFullyFunded then { info with activeSinceHeight := blockHeight.toInt64 } else info

def applyContribution (blockHeight : UInt64) (index : UInt32) (extra : StakingExtra)
    (info : MasterNodeInfo) (stake : StakingComponents) :
    Except ContributionRejection MasterNodeInfo := do
  let scan <- validateContribution hf extra info stake
  let (contributors, position) := openContributor scan stake.address info.contributors
  let credited := creditContribution hf blockHeight index stake info contributors position
  .ok (credited.activate blockHeight)

abbrev MasterNodesInfos := Table PublicKey MasterNodeInfo

/-- Process a contribution; the flag tells that the master node is now fully funded. -/
def processContributionTx (hf : Hf) (blockHeight : UInt64) (tx : Transaction P)
    (extra : StakingExtra) (index : UInt32) (infos : MasterNodesInfos) :
    Except ContributionRejection (MasterNodesInfos × Bool) := do
  let stake <- orReject
    (txGetStakingComponentsAndAmounts env nettype hf tx extra blockHeight) .notDecoded
  let curinfo <- orReject (infos.find? stake.masterNodePubkey) .unknownMasterNode
  let info <- applyContribution hf blockHeight index extra curinfo stake
  .ok (infos.set stake.masterNodePubkey info, info.isFullyFunded)

/-- The list after a transaction; an ignored contribution changes nothing. -/
def infosAfter (infos : MasterNodesInfos) :
    Except ContributionRejection (MasterNodesInfos × Bool) -> MasterNodesInfos
  | .ok (next, _) => next
  | .error _ => infos

end Beldex.Staking
