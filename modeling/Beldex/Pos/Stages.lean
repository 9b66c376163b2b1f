import Beldex.Pos.HandleMessage

/-!
# The stages of a round

One function for each state of the round state machine.  A stage is run with
what it asks the node for: the clock, the tip of the chain, the quorum of the
round, random bytes, signatures, a block template and the verdict on the block
it found.  Clock readings are counted in seconds, in which all durations of the
rounds are whole.
-/

namespace Beldex.Pos

open Basic Crypto Foundation List

variable {P : Type}

def posRoundTime : Nat := 60

def posStageTime : Nat := 10

def posMaxRoundsBeforeNetworkStalled : Nat := 255

structure Environment (P : Type) where
  now : Nat
  chainHeight : UInt64
  topBlockId : Hash
  -- the start of round 0, when the blocks it is computed from are available
  r0Timestamp : Option Nat
  -- the quorum of a round on a top block, when there is entropy for it
  generatePosQuorum : Hash -> UInt8 -> Option Quorum
  publicKey : PublicKey
  generateSignature : Digest -> Signature
  relayThrows : Bool
  randomBytes : PosRandomValue
  -- the template and its height, when we are an active master node
  blockTemplate : Option (Block P × UInt64)
  handleBlockFound : Block P -> Bool

/-! ## Parts of the stages -/

variable (env : Environment P) (ctx : Context P)

def chainTopChanged : Bool :=
  ctx.height != env.chainHeight || ctx.topHash != env.topBlockId

def signedMessage (body : MessageBody) : Message :=
  let msg : Message :=
    { quorumPosition := UInt16.ofNat ctx.prepareForRound.myQuorumPosition
      round := ctx.round
      signature := nullSignature
      body := body }
  { msg with signature := env.generateSignature (msgSignatureHash ctx.topHash msg) }

variable (O : PosOracles P)

/-- Send a message of ours once.  We receive it first, which relays it. -/
def sendOnce (env : Environment P) (ctx : Context P) (sent : Bool) (marked : Transient P)
    (body : MessageBody) : Context P :=
  if sent then ctx
  else handleMessage O { ctx with transient := marked } (signedMessage env ctx body)

def PosWaitStage.markProcessed (entry : PosWaitStage) (i : Fin posQuorumNumValidators)
    (msg : Message) : PosWaitStage :=
  { entry with buffer := Function.update entry.buffer i (.processed msg) }

variable (stage : Stage)

def markProcessed (i : Fin posQuorumNumValidators) (msg : Message) : Context P :=
  { ctx with
    transient := ctx.transient.updateStage stage fun entry => entry.markProcessed i msg }

def handleQueued (ctx : Context P) (i : Fin posQuorumNumValidators) : Context P :=
  match (ctx.stage stage).buffer i with
  | .received msg => markProcessed (handleMessage O ctx msg) stage i msg
  | _ => ctx

def handleMessagesReceivedEarlyFor (ctx : Context P) (stage : Stage) : Context P :=
  if (ctx.stage stage).queueCount = 0 then ctx
  else (finRange posQuorumNumValidators).foldl (handleQueued O stage) ctx

def timedOut : Bool :=
  decide ((ctx.stage stage).endTime <= env.now)

def allReceived : Bool :=
  (ctx.stage stage).bitset == ctx.bestBitset

def enforceValidatorParticipationAndTimeouts (timedOut allReceived : Bool) : Bool :=
  !(timedOut && !allReceived) && !((ctx.stage stage).msgsReceived == 0 ||
      (ctx.stage stage).bitset ||| ctx.bestBitset != ctx.bestBitset)

def endStage (next : Context P -> Context P) : Context P :=
  if timedOut env ctx stage || allReceived ctx stage then
    if enforceValidatorParticipationAndTimeouts ctx stage (timedOut env ctx stage)
        (allReceived ctx stage) then
      next ctx
    else
      gotoPreparingForNextRound ctx
  else
    ctx

/-! ## Before the round -/

def waitForNextBlock : Context P :=
  if !chainTopChanged env ctx then ctx
  else if env.topBlockId = nullHash then ctx
  else
    match env.r0Timestamp with
    | none => ctx
    | some r0Timestamp =>
      { ctx with
        height := env.chainHeight
        topHash := env.topBlockId
        round0StartTime := r0Timestamp
        prepareForRound := PrepareForRound.init
        state := .prepareForRound }

def requestedRound : Option UInt8 :=
  if ctx.prepareForRound.queueForNextRound then
    if posMaxRoundsBeforeNetworkStalled <= ctx.round.toNat then none
    else if chainTopChanged env ctx then none
    else some (ctx.round + 1)
  else
    some ctx.round

def currentRound (round : UInt8) : Option UInt8 :=
  let elapsed := (env.now - ctx.round0StartTime) / posRoundTime
  if posMaxRoundsBeforeNetworkStalled < elapsed then none
  else if round < UInt8.ofNat elapsed then some (UInt8.ofNat elapsed)
  else some round

def Stage.index : Stage -> Nat
  | .handshakes => 1
  | .handshakeBitsets => 2
  | .blockTemplate => 3
  | .randomValueHashes => 4
  | .randomValue => 5
  | .signedBlock => 6

def stagesFrom (startTime : Nat) (stage : Stage) : PosWaitStage :=
  { PosWaitStage.init with endTime := startTime + stage.index * posStageTime }

def participation (quorum : Quorum) : MnType × Nat :=
  if quorum.workers[0]? = some env.publicKey then (.producer, 0)
  else
    match quorum.validators.findIdx? (· = env.publicKey) with
    | none => (.none, 0)
    | some index => (.validator, index)

def startRound (round : UInt8) (quorum : Quorum) : Context P :=
  let startTime := ctx.round0StartTime + round.toNat * posRoundTime
  { ctx with
    prepareForRound :=
      { queueForNextRound := false
        round := round
        quorum := quorum
        participant := (participation env quorum).1
        myQuorumPosition := (participation env quorum).2
        startTime := startTime }
    transient := { Transient.init P with stages := stagesFrom startTime }
    state := .waitForRound }

/-- The round and its quorum, or nothing when the node has to wait for a block. -/
def chooseRound : Option (UInt8 × Quorum) := do
  let requested <- requestedRound env ctx
  let round <- currentRound env ctx requested
  let quorum <- env.generatePosQuorum ctx.topHash round
  if verifyPosQuorumSizes quorum then some (round, quorum) else none

def prepareForRound : Context P :=
  match chooseRound env ctx with
  | none => gotoWaitForNextBlockAndClearRoundData ctx
  | some (round, quorum) => startRound env ctx round quorum

def waitForRound : Context P :=
  if chainTopChanged env ctx then gotoWaitForNextBlockAndClearRoundData ctx
  else if env.now < ctx.prepareForRound.startTime then ctx
  else
    match ctx.prepareForRound.participant with
    | .validator => { ctx with state := .sendAndWaitForHandshakes }
    | .producer => { ctx with state := .waitForHandshakeBitsets }
    | .none => gotoPreparingForNextRound ctx

/-! ## Locking in the validators -/

def handshakeBits (handshakes : QuorumArray Bool) : UInt16 :=
  (finRange posQuorumNumValidators).foldl
    (fun bits i => if handshakes i then bits ||| Bitset.bit i else bits) 0

def sendHandshake (env : Environment P) (ctx : Context P) : Context P :=
  sendOnce O env ctx ctx.transient.handshakeSent
    { ctx.transient with handshakeSent := true } .handshake

def sendAndWaitForHandshakes (env : Environment P) (ctx : Context P) : Context P :=
  let sent := sendHandshake O env ctx
  if env.relayThrows && !ctx.transient.handshakeSent then gotoPreparingForNextRound sent
  else
    let ready := handleMessagesReceivedEarlyFor O sent .handshakes
    if (ready.stage .handshakes).msgsReceived == posQuorumNumValidators ||
        timedOut env ready .handshakes then
      { ready with state := .sendHandshakeBitsets }
    else
      ready

def sendHandshakeBitsets (env : Environment P) (ctx : Context P) : Context P :=
  let sent := handleMessage O ctx
    (signedMessage env ctx (.handshakeBitset (handshakeBits ctx.transient.handshakes)))
  if env.relayThrows then gotoPreparingForNextRound sent
  else { sent with state := .waitForHandshakeBitsets }

/-- The state of the count: the bitsets seen, the most common one and its count. -/
structure BitsetCount where
  seen : List UInt16
  bestBitset : UInt16
  count : Nat

def BitsetCount.add (tally : BitsetCount) : Option UInt16 -> BitsetCount
  | none => tally
  | some bitset =>
    let num := (bitset :: tally.seen).count bitset
    if tally.count < num then
      { seen := bitset :: tally.seen, bestBitset := bitset, count := num }
    else
      { tally with seen := bitset :: tally.seen }

def mostCommonBitset (data : QuorumArray (Option UInt16)) : BitsetCount :=
  (finRange posQuorumNumValidators).foldl (fun tally i => tally.add (data i))
    { seen := [], bestBitset := 0, count := 0 }

def iAmNotParticipating (bestBitset : UInt16) : Bool :=
  bestBitset != 0 && ctx.prepareForRound.participant == .validator &&
    bestBitset &&& Bitset.bit ctx.prepareForRound.myQuorumPosition == 0

def waitForHandshakeBitsets (env : Environment P) (ctx : Context P) : Context P :=
  let ready := handleMessagesReceivedEarlyFor O ctx .handshakeBitsets
  if timedOut env ready .handshakeBitsets ||
      (ready.stage .handshakeBitsets).msgsReceived == posQuorumNumValidators then
    let tally := mostCommonBitset ready.transient.handshakeBitsets
    if tally.count < posBlockRequiredSignatures || tally.bestBitset == 0 ||
        iAmNotParticipating ready tally.bestBitset then
      gotoPreparingForNextRound ready
    else
      { ready with
        transient := { ready.transient with
          bestBitset := tally.bestBitset
          bestCount := tally.count }
        state :=
          if ready.prepareForRound.participant = .producer then .sendBlockTemplate
          else .waitForBlockTemplate }
  else
    ready

/-! ## The block template -/

/-- The producer is done with the round after it has sent the template. -/
def sendBlockTemplate (env : Environment P) (ctx : Context P) : Context P :=
  match env.blockTemplate with
  | none => gotoPreparingForNextRound ctx
  | some (block, height) =>
    if ctx.height != height then gotoWaitForNextBlockAndClearRoundData ctx
    else
      let template := { block with
        pos := { block.pos with round := ctx.round, validatorBitset := ctx.bestBitset } }
      let msg := signedMessage env ctx (.blockTemplate (O.serializeBlock template))
      gotoPreparingForNextRound { ctx with actions := .sentBlockTemplate msg :: ctx.actions }

def waitForBlockTemplate (env : Environment P) (ctx : Context P) : Context P :=
  let ready := handleMessagesReceivedEarlyFor O ctx .blockTemplate
  if (ready.stage .blockTemplate).msgsReceived == 1 then
    { ready with
      transient := { ready.transient with
        sendRandomValue := { ready.transient.sendRandomValue with data := env.randomBytes }
        sendRandomValueHash := { ready.transient.sendRandomValueHash with
          data := O.hashRandomValue env.randomBytes } }
      state := .sendAndWaitForRandomValueHashes }
  else if timedOut env ready .blockTemplate then
    gotoPreparingForNextRound ready
  else
    ready

/-! ## Random values -/

def sendRandomValueHash (O : PosOracles P) (env : Environment P) (ctx : Context P) : Context P :=
  sendOnce O env ctx ctx.transient.sendRandomValueHash.sent
    { ctx.transient with
      sendRandomValueHash := { ctx.transient.sendRandomValueHash with sent := true } }
    (.randomValueHash ctx.transient.sendRandomValueHash.data)

def sendAndWaitForRandomValueHashes (env : Environment P) (ctx : Context P) : Context P :=
  let ready := handleMessagesReceivedEarlyFor O (sendRandomValueHash O env ctx)
    .randomValueHashes
  endStage env ready .randomValueHashes fun ctx =>
    { ctx with state := .sendAndWaitForRandomValue }

def sendRandomValue (O : PosOracles P) (env : Environment P) (ctx : Context P) : Context P :=
  sendOnce O env ctx ctx.transient.sendRandomValue.sent
    { ctx.transient with
      sendRandomValue := { ctx.transient.sendRandomValue with sent := true } }
    (.randomValue ctx.transient.sendRandomValue.data)

variable (transient : Transient P)

def receivedRandomValues : List PosRandomValue :=
  (finRange posQuorumNumValidators).filterMap transient.randomValues

def withFinalRandomValue : Block P :=
  { transient.templateBlock with
    pos := { transient.templateBlock.pos with
      randomValue := O.combineRandomValues (receivedRandomValues transient) } }

/-- The template is moved from and not read again in the round. -/
def signFinalBlock (env : Environment P) (ctx : Context P) : Context P :=
  let finalBlock := withFinalRandomValue O ctx.transient
  { ctx with
    transient := { ctx.transient with
      finalBlock := finalBlock
      sendSignature := { ctx.transient.sendSignature with
        data := env.generateSignature (.hash (getBlockHash O finalBlock)) } }
    state := .sendAndWaitForSignedBlocks
    actions := .signedFinalBlock ctx.topHash ctx.round finalBlock :: ctx.actions }

def sendAndWaitForRandomValue (env : Environment P) (ctx : Context P) : Context P :=
  let ready := handleMessagesReceivedEarlyFor O (sendRandomValue O env ctx) .randomValue
  endStage env ready .randomValue (signFinalBlock O env)

/-! ## The signed block -/

def sendSignature (O : PosOracles P) (env : Environment P) (ctx : Context P) : Context P :=
  sendOnce O env ctx ctx.transient.sendSignature.sent
    { ctx.transient with
      sendSignature := { ctx.transient.sendSignature with sent := true } }
    (.signedBlock ctx.transient.sendSignature.data)

def signedPositions (signatures : QuorumArray (Option Signature)) :
    List (Fin posQuorumNumValidators) :=
  (finRange posQuorumNumValidators).filter fun i => (signatures i).isSome

/-- The positions with a signature, in an array that is zero behind them. -/
def signatureIndices (signatures : QuorumArray (Option Signature)) :
    List (Fin posQuorumNumValidators) :=
  signedPositions signatures ++
    replicate (posQuorumNumValidators - (signedPositions signatures).length)
      ⟨0, producerPosition.isLt⟩

/-- Read the signature at a position; nothing stands for an empty optional. -/
def signatureAt (signatures : QuorumArray (Option Signature))
    (i : Fin posQuorumNumValidators) : Option QuorumSignature :=
  (signatures i).map fun signature =>
    { voterIndex := UInt16.ofNat i, signature := signature }

def addedSignatures : Option (List QuorumSignature) :=
  ((signatureIndices transient.signatures).take posBlockRequiredSignatures).mapM
    (signatureAt transient.signatures)

def addSignatures : Option (Block P) :=
  (addedSignatures transient).map fun added =>
    { transient.finalBlock with signatures := transient.finalBlock.signatures ++ added }

def propagateFinalBlock : Context P :=
  match addSignatures ctx.transient with
  | none =>
    -- the code reads an empty optional here, which has no defined result
    gotoPreparingForNextRound ctx
  | some finalBlock =>
    let found :=
      { ctx with
        transient := { ctx.transient with finalBlock := finalBlock }
        actions := .foundBlock finalBlock :: ctx.actions }
    if env.handleBlockFound finalBlock then gotoWaitForNextBlockAndClearRoundData found
    else gotoPreparingForNextRound found

def collectSignatures (env : Environment P) (ctx : Context P) : Context P :=
  handleMessagesReceivedEarlyFor O (sendSignature O env ctx) .signedBlock

def sendAndWaitForSignedBlocks (env : Environment P) (ctx : Context P) : Context P :=
  endStage env (collectSignatures O env ctx) .signedBlock (propagateFinalBlock env)

/-! ## The state machine -/

def turn (env : Environment P) (ctx : Context P) : Context P :=
  match ctx.state with
  | .nullState => { ctx with state := .waitForNextBlock }
  | .waitForNextBlock => waitForNextBlock env ctx
  | .prepareForRound => prepareForRound env ctx
  | .waitForRound => waitForRound env ctx
  | .sendAndWaitForHandshakes => sendAndWaitForHandshakes O env ctx
  | .sendHandshakeBitsets => sendHandshakeBitsets O env ctx
  | .waitForHandshakeBitsets => waitForHandshakeBitsets O env ctx
  | .sendBlockTemplate => sendBlockTemplate O env ctx
  | .waitForBlockTemplate => waitForBlockTemplate O env ctx
  | .sendAndWaitForRandomValueHashes => sendAndWaitForRandomValueHashes O env ctx
  | .sendAndWaitForRandomValue => sendAndWaitForRandomValue O env ctx
  | .sendAndWaitForSignedBlocks => sendAndWaitForSignedBlocks O env ctx

/-- The loop of `main`, over the answers it gets, until the state stays as it is. -/
def posMain (O : PosOracles P) : List (Environment P) -> Context P -> Context P
  | [], ctx => ctx
  | env :: rest, ctx =>
    let next := turn O env ctx
    if ctx.state = next.state ∧ ctx.state ≠ .nullState then next else posMain O rest next

end Beldex.Pos
