import Beldex.Basic.Transaction
import Mathlib.Logic.Function.Basic

/-!
# Messages and the round context

The members of a quorum talk to each other in signed messages; which fields the
signature covers depends on the type.  A signature is checked on the fields
themselves, as the buffers that are hashed for the different types have different
lengths.  A node takes part in the rounds of a height with one state machine, whose
state is `Context`.
-/

namespace Beldex.Pos

open Basic Crypto

variable {P : Type}

/-! ## Messages -/

/-- The stages in which a node waits for messages, one for each message type. -/
inductive Stage where
  | handshakes
  | handshakeBitsets
  | blockTemplate
  | randomValueHashes
  | randomValue
  | signedBlock
deriving DecidableEq

inductive MessageBody where
  | invalid
  | handshake
  | handshakeBitset (validatorBitset : UInt16)
  | blockTemplate (blob : List UInt8)
  | randomValueHash (hash : Hash)
  | randomValue (value : PosRandomValue)
  | signedBlock (signatureOfFinalBlockHash : Signature)
deriving DecidableEq

structure Message where
  quorumPosition : UInt16
  round : UInt8
  signature : Signature
  body : MessageBody
deriving DecidableEq

def MessageBody.stage : MessageBody -> Option Stage
  | .invalid => none
  | .handshake => some .handshakes
  | .handshakeBitset _ => some .handshakeBitsets
  | .blockTemplate _ => some .blockTemplate
  | .randomValueHash _ => some .randomValueHashes
  | .randomValue _ => some .randomValue
  | .signedBlock _ => some .signedBlock

def Stage.isAfterHandshakeBitsets : Stage -> Bool
  | .handshakes => false
  | .handshakeBitsets => false
  | _ => true

/-! ## Signatures -/

inductive Digest where
  | null
  | handshake (topBlockHash : Hash) (quorumPosition : UInt16) (round : UInt8)
  | handshakeBitset (validatorBitset : UInt16) (topBlockHash : Hash) (quorumPosition : UInt16)
      (round : UInt8)
  | blockTemplate (round : UInt8) (blob : List UInt8)
  | randomValueHash (topBlockHash : Hash) (quorumPosition : UInt16) (round : UInt8) (hash : Hash)
  | randomValue (topBlockHash : Hash) (quorumPosition : UInt16) (round : UInt8)
      (value : PosRandomValue)
  | signedBlock (topBlockHash : Hash) (quorumPosition : UInt16) (round : UInt8)
      (finalSignature : Signature)
  | hash (hash : Hash)

/-- The cryptography and the block format that the round state machine calls. -/
structure PosOracles (P : Type) where
  checkSignature : Digest -> PublicKey -> Signature -> Bool
  hashRandomValue : PosRandomValue -> Hash
  -- the first bytes of the keyed hash of the values in the order of the list
  combineRandomValues : List PosRandomValue -> PosRandomValue
  -- the hash of a header, a coinbase and the transaction hashes
  hashBlock : Hf -> UInt8 -> UInt64 -> Hash -> UInt32 -> PosHeader -> Transaction P ->
    List Hash -> Hash
  parseBlock : List UInt8 -> Option (Block P)
  serializeBlock : Block P -> List UInt8

/-- The hash of a block leaves the signatures of the quorum out. -/
def getBlockHash (O : PosOracles P) (block : Block P) : Hash :=
  O.hashBlock block.majorVersion block.minorVersion block.timestamp block.prevId block.nonce
    block.pos block.minerTx block.txHashes

def checkBlockSignature (O : PosOracles P) (hash : Hash) (key : PublicKey)
    (signature : Signature) : Bool :=
  O.checkSignature (.hash hash) key signature

/-- The fields of a message that its signature covers.  The round is that of the
message, and a block template is bound to its content only. -/
def msgSignatureHash (topBlockHash : Hash) (msg : Message) : Digest :=
  match msg.body with
  | .invalid => .null
  | .handshake => .handshake topBlockHash msg.quorumPosition msg.round
  | .handshakeBitset validatorBitset =>
    .handshakeBitset validatorBitset topBlockHash msg.quorumPosition msg.round
  | .blockTemplate blob => .blockTemplate msg.round blob
  | .randomValueHash hash => .randomValueHash topBlockHash msg.quorumPosition msg.round hash
  | .randomValue value => .randomValue topBlockHash msg.quorumPosition msg.round value
  | .signedBlock signature => .signedBlock topBlockHash msg.quorumPosition msg.round signature

/-- The key that must have signed a message: the block producer for a block
template, otherwise the validator at the quorum position of the message. -/
def signerKey (quorum : Quorum) (msg : Message) : Option PublicKey :=
  match msg.body with
  | .invalid => none
  | .blockTemplate _ => if msg.quorumPosition = 0 then quorum.workers[0]? else none
  | _ => quorum.validators[msg.quorumPosition.toNat]?

def msgSignatureCheck (O : PosOracles P) (msg : Message) (topBlockHash : Hash)
    (quorum : Quorum) : Bool :=
  match signerKey quorum msg with
  | none => false
  | some key => O.checkSignature (msgSignatureHash topBlockHash msg) key msg.signature

theorem msgSignatureCheck_eq_true {O : PosOracles P} {msg : Message} {topBlockHash : Hash}
    {quorum : Quorum} :
    msgSignatureCheck O msg topBlockHash quorum = true <->
      exists key, signerKey quorum msg = some key ∧
        O.checkSignature (msgSignatureHash topBlockHash msg) key msg.signature = true := by
  unfold msgSignatureCheck
  cases signerKey quorum msg with
  | none => simp
  | some key => simp

/-! ## What a signature is bound to -/

/-- The signed fields name a round and a top block; a block template names the
block it was built on. -/
def Digest.IsFor (O : PosOracles P) (topBlockHash : Hash) (round : UInt8) : Digest -> Prop
  | .null => False
  | .hash _ => False
  | .handshake top _ r => top = topBlockHash ∧ r = round
  | .handshakeBitset _ top _ r => top = topBlockHash ∧ r = round
  | .blockTemplate r blob => (exists block, O.parseBlock blob = some block ∧
      block.prevId = topBlockHash) ∧ r = round
  | .randomValueHash top _ r _ => top = topBlockHash ∧ r = round
  | .randomValue top _ r _ => top = topBlockHash ∧ r = round
  | .signedBlock top _ r _ => top = topBlockHash ∧ r = round

/-! ## States -/

/-- The states of a round, in the order in which the code compares them. -/
inductive RoundState where
  | nullState
  | waitForNextBlock
  | prepareForRound
  | waitForRound
  | sendAndWaitForHandshakes
  | sendHandshakeBitsets
  | waitForHandshakeBitsets
  | sendBlockTemplate
  | waitForBlockTemplate
  | sendAndWaitForRandomValueHashes
  | sendAndWaitForRandomValue
  | sendAndWaitForSignedBlocks
deriving DecidableEq

def RoundState.toNat : RoundState -> Nat
  | .nullState => 0
  | .waitForNextBlock => 1
  | .prepareForRound => 2
  | .waitForRound => 3
  | .sendAndWaitForHandshakes => 4
  | .sendHandshakeBitsets => 5
  | .waitForHandshakeBitsets => 6
  | .sendBlockTemplate => 7
  | .waitForBlockTemplate => 8
  | .sendAndWaitForRandomValueHashes => 9
  | .sendAndWaitForRandomValue => 10
  | .sendAndWaitForSignedBlocks => 11

instance : LE RoundState := ⟨fun a b => a.toNat <= b.toNat⟩

instance : LT RoundState := ⟨fun a b => a.toNat < b.toNat⟩

instance (a b : RoundState) : Decidable (a <= b) :=
  inferInstanceAs (Decidable (a.toNat <= b.toNat))

instance (a b : RoundState) : Decidable (a < b) :=
  inferInstanceAs (Decidable (a.toNat < b.toNat))

theorem RoundState.not_lt {a b : RoundState} : ¬ a < b <-> b <= a :=
  Nat.not_lt

theorem RoundState.le_trans {a b c : RoundState} (hab : a <= b) (hbc : b <= c) : a <= c :=
  Nat.le_trans hab hbc

theorem RoundState.lt_of_lt_of_le {a b c : RoundState} (hab : a < b) (hbc : b <= c) : a < c :=
  Nat.lt_of_lt_of_le hab hbc

def Stage.roundState : Stage -> RoundState
  | .handshakes => .sendAndWaitForHandshakes
  | .handshakeBitsets => .waitForHandshakeBitsets
  | .blockTemplate => .waitForBlockTemplate
  | .randomValueHashes => .sendAndWaitForRandomValueHashes
  | .randomValue => .sendAndWaitForRandomValue
  | .signedBlock => .sendAndWaitForSignedBlocks

inductive MnType where
  | none
  | producer
  | validator
deriving DecidableEq

/-! ## Stages -/

abbrev QuorumArray (α : Type) : Type :=
  Fin posQuorumNumValidators -> α

/-- A slot of the queue of messages that arrive before their stage. -/
inductive QueueEntry where
  | empty
  | received (msg : Message)
  | processed (msg : Message)
deriving DecidableEq

structure PosWaitStage where
  buffer : QuorumArray QueueEntry
  queueCount : Nat
  bitset : UInt16
  msgsReceived : Nat
  endTime : Nat

structure PosSendStage (α : Type) where
  data : α
  sent : Bool

def PosWaitStage.init : PosWaitStage where
  buffer := fun _ => .empty
  queueCount := 0
  bitset := 0
  msgsReceived := 0
  endTime := 0

/-! ## The context -/

structure PrepareForRound where
  queueForNextRound : Bool
  round : UInt8
  quorum : Quorum
  participant : MnType
  myQuorumPosition : Nat
  startTime : Nat

def PrepareForRound.init : PrepareForRound where
  queueForNextRound := false
  round := 0
  quorum := { validators := [], workers := [] }
  participant := .none
  myQuorumPosition := 0
  startTime := 0

/-- The data of one round; the wait stages are kept by name in `stages`. -/
structure Transient (P : Type) where
  handshakeSent : Bool
  handshakes : QuorumArray Bool
  handshakeBitsets : QuorumArray (Option UInt16)
  bestBitset : UInt16
  bestCount : Nat
  templateBlock : Block P
  sendRandomValueHash : PosSendStage Hash
  randomValueHashes : QuorumArray (Option Hash)
  sendRandomValue : PosSendStage PosRandomValue
  randomValues : QuorumArray (Option PosRandomValue)
  sendSignature : PosSendStage Signature
  finalBlock : Block P
  signatures : QuorumArray (Option Signature)
  stages : Stage -> PosWaitStage

def Transient.init (P : Type) : Transient P where
  handshakeSent := false
  handshakes := fun _ => false
  handshakeBitsets := fun _ => none
  bestBitset := 0
  bestCount := 0
  templateBlock := emptyBlock P
  sendRandomValueHash := { data := nullHash, sent := false }
  randomValueHashes := fun _ => none
  sendRandomValue := { data := ⟨0⟩, sent := false }
  randomValues := fun _ => none
  sendSignature := { data := nullSignature, sent := false }
  finalBlock := emptyBlock P
  signatures := fun _ => none
  stages := fun _ => PosWaitStage.init

/-- What a node does to the outside, with the tip and the round it does it for.
A message is relayed to the quorum when it is counted towards a stage. -/
inductive Action (P : Type) where
  | counted (topHash : Hash) (round : UInt8) (msg : Message)
  | sentBlockTemplate (msg : Message)
  | signedFinalBlock (topHash : Hash) (round : UInt8) (block : Block P)
  | foundBlock (block : Block P)

structure Context (P : Type) where
  height : UInt64
  topHash : Hash
  round0StartTime : Nat
  prepareForRound : PrepareForRound
  transient : Transient P
  state : RoundState
  -- the actions so far, the latest first
  actions : List (Action P)

def Context.init (P : Type) : Context P where
  height := 0
  topHash := nullHash
  round0StartTime := 0
  prepareForRound := PrepareForRound.init
  transient := Transient.init P
  state := .nullState
  actions := []

variable (ctx : Context P)

def Context.round : UInt8 :=
  ctx.prepareForRound.round

def Context.quorum : Quorum :=
  ctx.prepareForRound.quorum

def Context.bestBitset : UInt16 :=
  ctx.transient.bestBitset

def Context.stage (ctx : Context P) (stage : Stage) : PosWaitStage :=
  ctx.transient.stages stage

def Transient.updateStage (transient : Transient P) (stage : Stage)
    (f : PosWaitStage -> PosWaitStage) : Transient P :=
  { transient with
    stages := Function.update transient.stages stage (f (transient.stages stage)) }

@[simp]
theorem stages_updateStage_self (transient : Transient P) (stage : Stage)
    (f : PosWaitStage -> PosWaitStage) :
    (transient.updateStage stage f).stages stage = f (transient.stages stage) :=
  Function.update_self ..

theorem stages_updateStage_ne (transient : Transient P) {stage other : Stage}
    (f : PosWaitStage -> PosWaitStage) (hne : other ≠ stage) :
    (transient.updateStage stage f).stages other = transient.stages other :=
  Function.update_of_ne hne ..

theorem part_updateStage {β : Type} (part : PosWaitStage -> β) (transient : Transient P)
    (stage other : Stage) (f : PosWaitStage -> PosWaitStage)
    (hpart : forall entry, part (f entry) = part entry) :
    part ((transient.updateStage stage f).stages other) = part (transient.stages other) := by
  by_cases heq : other = stage
  · subst heq
    rw [stages_updateStage_self, hpart]
  · rw [stages_updateStage_ne _ f heq]

/-! ## Leaving a round -/

def gotoPreparingForNextRound : Context P :=
  { ctx with
    prepareForRound := { ctx.prepareForRound with queueForNextRound := true }
    state := .prepareForRound }

/-- The history of quorums that this call also extends serves log messages only. -/
def clearRoundData : Context P :=
  { ctx with
    transient := Transient.init P
    prepareForRound := PrepareForRound.init }

def gotoWaitForNextBlockAndClearRoundData : Context P :=
  { clearRoundData ctx with state := .waitForNextBlock }

end Beldex.Pos
