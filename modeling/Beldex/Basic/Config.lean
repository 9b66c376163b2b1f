import Beldex.Crypto.Types
import Mathlib.Order.Basic

/-!
# Network constants

Hard forks, networks, transaction versions and transaction types, with the
constants of the configuration header that the consensus rules below read, and
quorums.  The enumerations are compared by their underlying numbers in the code,
so each of them carries the map to that number and the order it induces.
-/

namespace Beldex.Basic

open Crypto

inductive Hf where
  | none
  | hf1
  | hf7
  | hf8
  | hf9MasterNodes
  | hf10Bulletproofs
  | hf11InfiniteStaking
  | hf12SecuritySignature
  | hf13Checkpointing
  | hf14EnforceCheckpoints
  | hf15Flash
  | hf16
  | hf17POS
  | hf18Bns
  | hf19EnhanceBns
  | hf20BulletproofPlus
  | hf21BulletproofPlus
  | hf22PrivacyTokens
deriving DecidableEq

/-- The number that a hard fork has in a block header. -/
def Hf.toNat : Hf -> Nat
  | .none => 0
  | .hf1 => 1
  | .hf7 => 7
  | .hf8 => 8
  | .hf9MasterNodes => 9
  | .hf10Bulletproofs => 10
  | .hf11InfiniteStaking => 11
  | .hf12SecuritySignature => 12
  | .hf13Checkpointing => 13
  | .hf14EnforceCheckpoints => 14
  | .hf15Flash => 15
  | .hf16 => 16
  | .hf17POS => 17
  | .hf18Bns => 18
  | .hf19EnhanceBns => 19
  | .hf20BulletproofPlus => 20
  | .hf21BulletproofPlus => 21
  | .hf22PrivacyTokens => 22

instance : LE Hf := ⟨fun a b => a.toNat <= b.toNat⟩

instance : LT Hf := ⟨fun a b => a.toNat < b.toNat⟩

instance (a b : Hf) : Decidable (a <= b) :=
  inferInstanceAs (Decidable (a.toNat <= b.toNat))

instance (a b : Hf) : Decidable (a < b) :=
  inferInstanceAs (Decidable (a.toNat < b.toNat))

theorem Hf.lt_iff_not_le (a b : Hf) : a < b <-> ¬ b <= a :=
  Nat.not_le.symm

theorem Hf.le_trans {a b c : Hf} (hab : a <= b) (hbc : b <= c) : a <= c :=
  Nat.le_trans hab hbc

def featurePrivacyTokens : Hf := .hf22PrivacyTokens

inductive NetworkType where
  | mainnet
  | testnet
  | devnet
  | fakechain
  | undefined
deriving DecidableEq

inductive TxVersion where
  | v0
  | v1
  | v2Ringct
  | v3PerOutputUnlockTimes
  | v4TxTypes
deriving DecidableEq

def TxVersion.toNat : TxVersion -> Nat
  | .v0 => 0
  | .v1 => 1
  | .v2Ringct => 2
  | .v3PerOutputUnlockTimes => 3
  | .v4TxTypes => 4

inductive TxType where
  | standard
  | stateChange
  | keyImageUnlock
  | stake
  | beldexNameSystem
  | coinBurn
  | registerPrivacyToken
  | mintToken
  | updateToken
  | burnToken
deriving DecidableEq

def TxType.toNat : TxType -> Nat
  | .standard => 0
  | .stateChange => 1
  | .keyImageUnlock => 2
  | .stake => 3
  | .beldexNameSystem => 4
  | .coinBurn => 5
  | .registerPrivacyToken => 6
  | .mintToken => 7
  | .updateToken => 8
  | .burnToken => 9

def getMinVersionForHf (hf : Hf) : TxVersion :=
  if Hf.hf7 <= hf ∧ hf <= Hf.hf10Bulletproofs then .v1 else .v4TxTypes

def getMaxVersionForHf (hf : Hf) : TxVersion :=
  if Hf.hf7 <= hf ∧ hf <= Hf.hf8 then
    .v2Ringct
  else if Hf.hf9MasterNodes <= hf ∧ hf <= Hf.hf10Bulletproofs then
    .v3PerOutputUnlockTimes
  else
    .v4TxTypes

def getMaxTypeForHf (hf : Hf) : TxType :=
  if featurePrivacyTokens <= hf then .burnToken
  else if Hf.hf18Bns <= hf then .coinBurn
  else if Hf.hf16 <= hf then .beldexNameSystem
  else if Hf.hf15Flash <= hf then .stake
  else if Hf.hf11InfiniteStaking <= hf then .keyImageUnlock
  else if Hf.hf9MasterNodes <= hf then .stateChange
  else .standard

def minedMoneyUnlockWindow : Nat := 60

/-- Zyphora outputs that a deployment with initial supply must create. -/
def minTokenMintOutputs : Nat := 10

def txOutputDecoys : Nat := 9

def stakingPortions : Nat := 0xfffffffffffffffc

def unassignedSwarmId : UInt64 := 0xffffffffffffffff

/-! ## Quorums -/

structure Quorum where
  validators : List PublicKey
  workers : List PublicKey

inductive QuorumType where
  | obligations
  | checkpointing
  | flash
  | pos

def posQuorumNumValidators : Nat := 11

def posBlockRequiredSignatures : Nat := 7

def checkpointQuorumSize : Nat := 20

def checkpointMinVotes : Nat := 13

def verifyPosQuorumSizes (quorum : Quorum) : Bool :=
  quorum.workers.length == 1 && quorum.validators.length == posQuorumNumValidators

end Beldex.Basic
