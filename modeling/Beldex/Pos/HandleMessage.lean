import Beldex.Foundation.Bitset
import Beldex.Pos.Context

/-!
# Taking a message

`handleMessage` checks the signature of a message, keeps it for later when its
stage has not begun, and otherwise adds its data to the stage.  `Handles` lists
what one call can do, and the later modules reason about calls through it.
-/

namespace Beldex.Pos

open Basic Crypto Foundation Bitset Function

variable {P : Type}

/-! ## The data of a message -/

variable (entry : PosWaitStage)

def PosWaitStage.push (i : Fin posQuorumNumValidators) (msg : Message) : PosWaitStage :=
  { entry with
    buffer := update entry.buffer i (.received msg)
    queueCount := entry.queueCount + 1 }

def PosWaitStage.count (i : Fin posQuorumNumValidators) : PosWaitStage :=
  { entry with
    bitset := entry.bitset ||| bit i
    msgsReceived := entry.msgsReceived + 1 }

@[simp]
theorem PosWaitStage.msgsReceived_count (i : Fin posQuorumNumValidators) :
    (entry.count i).msgsReceived = entry.msgsReceived + 1 := rfl

@[simp]
theorem PosWaitStage.buffer_count (i : Fin posQuorumNumValidators) :
    (entry.count i).buffer = entry.buffer := rfl

/-- The message that was received early waits in the slot of its sender, unless
the slot is taken. -/
def enqueue (ctx : Context P) (stage : Stage) (i : Fin posQuorumNumValidators)
    (msg : Message) : Context P :=
  match (ctx.stage stage).buffer i with
  | .empty =>
    { ctx with transient := ctx.transient.updateStage stage fun entry => entry.push i msg }
  | _ => ctx

/-- After the validators are locked in, the messages of the others are dropped. -/
def isNotLockedIn (ctx : Context P) (stage : Stage) (i : Fin posQuorumNumValidators) : Bool :=
  decide (RoundState.waitForHandshakeBitsets < ctx.state) && stage.isAfterHandshakeBitsets &&
    bit i &&& ctx.bestBitset == 0

def readBlockTemplate (O : PosOracles P) (ctx : Context P) (blob : List UInt8) : Option (Block P) :=
  if (ctx.stage .blockTemplate).msgsReceived = 1 then none
  else
    match O.parseBlock blob with
    | none => none
    | some block =>
      if block.pos.round = ctx.round then
        if block.pos.validatorBitset = ctx.bestBitset then some block else none
      else none

def isCommitted (O : PosOracles P) (ctx : Context P) (i : Fin posQuorumNumValidators)
    (value : PosRandomValue) : Bool :=
  match ctx.transient.randomValueHashes i with
  | none => false
  | some hash => O.hashRandomValue value == hash

def signsFinalBlock (O : PosOracles P) (ctx : Context P) (i : Fin posQuorumNumValidators)
    (signature : Signature) : Bool :=
  match ctx.quorum.validators[i.val]? with
  | none => false
  | some key =>
    checkBlockSignature O (getBlockHash O ctx.transient.finalBlock) key signature

def record {α : Type} (data : QuorumArray (Option α)) (i : Fin posQuorumNumValidators)
    (value : α) : Option (QuorumArray (Option α)) :=
  match data i with
  | some _ => none
  | none => some (update data i (some value))

def addMessageData (O : PosOracles P) (ctx : Context P) (i : Fin posQuorumNumValidators) :
    MessageBody -> Option (Transient P)
  | .invalid => none
  | .handshake =>
    if ctx.transient.handshakes i then none
    else
      some { ctx.transient with
        handshakes := update ctx.transient.handshakes i true }
  | .handshakeBitset validatorBitset =>
    (record ctx.transient.handshakeBitsets i validatorBitset).map fun data =>
      { ctx.transient with handshakeBitsets := data }
  | .blockTemplate blob =>
    (readBlockTemplate O ctx blob).map fun block =>
      { ctx.transient with templateBlock := block }
  | .randomValueHash hash =>
    (record ctx.transient.randomValueHashes i hash).map fun data =>
      { ctx.transient with randomValueHashes := data }
  | .randomValue value =>
    if isCommitted O ctx i value then
      (record ctx.transient.randomValues i value).map fun data =>
        { ctx.transient with randomValues := data }
    else none
  | .signedBlock signature =>
    if signsFinalBlock O ctx i signature then
      (record ctx.transient.signatures i signature).map fun data =>
        { ctx.transient with signatures := data }
    else none

/-- Count a message towards its stage, which also relays it to the quorum. -/
def countMessage (ctx : Context P) (transient : Transient P) (stage : Stage)
    (i : Fin posQuorumNumValidators) (msg : Message) : Context P :=
  { ctx with
    transient := transient.updateStage stage fun entry => entry.count i
    actions := .counted ctx.topHash ctx.round msg :: ctx.actions }

/-! ## One message -/

def handleMessage (O : PosOracles P) (ctx : Context P) (msg : Message) : Context P :=
  if ctx.state < .waitForRound then ctx
  else if msgSignatureCheck O msg ctx.topHash ctx.quorum then
    match msg.body.stage with
    | none => ctx
    | some stage =>
      -- with a quorum of the right size the signature check has bounded the position
      if h : msg.quorumPosition.toNat < posQuorumNumValidators then
        if ctx.state < stage.roundState then enqueue ctx stage ⟨_, h⟩ msg
        else if isNotLockedIn ctx stage ⟨_, h⟩ then ctx
        else
          match addMessageData O ctx ⟨_, h⟩ msg.body with
          | none => ctx
          | some transient => countMessage ctx transient stage ⟨_, h⟩ msg
      else ctx
  else ctx

variable {O : PosOracles P} {ctx : Context P} {msg : Message}

theorem handleMessage_of_left (h : ctx.state < .waitForRound) : handleMessage O ctx msg = ctx :=
  if_pos h

structure Admitted (O : PosOracles P) (ctx : Context P) (msg : Message) (stage : Stage)
    (i : Fin posQuorumNumValidators) : Prop where
  started : RoundState.waitForRound <= ctx.state
  verified : msgSignatureCheck O msg ctx.topHash ctx.quorum = true
  stage_eq : msg.body.stage = some stage
  position_eq : msg.quorumPosition.toNat = i

inductive Adds (O : PosOracles P) (ctx : Context P) (i : Fin posQuorumNumValidators) :
    MessageBody -> Transient P -> Prop where
  | handshake :
      ctx.transient.handshakes i = false -> Adds O ctx i .handshake
        { ctx.transient with handshakes := update ctx.transient.handshakes i true }
  | handshakeBitset {validatorBitset : UInt16} :
      ctx.transient.handshakeBitsets i = none -> Adds O ctx i (.handshakeBitset validatorBitset)
        { ctx.transient with
          handshakeBitsets :=
            update ctx.transient.handshakeBitsets i (some validatorBitset) }
  | blockTemplate {blob : List UInt8} {block : Block P} :
      (ctx.stage .blockTemplate).msgsReceived ≠ 1 -> O.parseBlock blob = some block ->
      block.pos.round = ctx.round -> block.pos.validatorBitset = ctx.bestBitset ->
      Adds O ctx i (.blockTemplate blob) { ctx.transient with templateBlock := block }
  | randomValueHash {hash : Hash} :
      ctx.transient.randomValueHashes i = none -> Adds O ctx i (.randomValueHash hash)
        { ctx.transient with
          randomValueHashes := update ctx.transient.randomValueHashes i (some hash) }
  | randomValue {value : PosRandomValue} :
      ctx.transient.randomValueHashes i = some (O.hashRandomValue value) ->
      ctx.transient.randomValues i = none -> Adds O ctx i (.randomValue value)
        { ctx.transient with
          randomValues := update ctx.transient.randomValues i (some value) }
  | signedBlock {signature : Signature} :
      signsFinalBlock O ctx i signature = true -> ctx.transient.signatures i = none ->
      Adds O ctx i (.signedBlock signature)
        { ctx.transient with
          signatures := update ctx.transient.signatures i (some signature) }

variable {i : Fin posQuorumNumValidators}

theorem record_map_eq_some {α β : Type} {data : QuorumArray (Option α)} {value : α}
    {f : QuorumArray (Option α) -> β} {b : β} (h : (record data i value).map f = some b) :
    data i = none ∧ b = f (update data i (some value)) := by
  unfold record at h
  cases hdata : data i with
  | some old => simp [hdata] at h
  | none =>
    rw [hdata] at h
    exact ⟨rfl, (Option.some.inj h).symm⟩

variable {block : Block P}

theorem readBlockTemplate_eq_some {blob : List UInt8}
    (h : readBlockTemplate O ctx blob = some block) :
    (ctx.stage .blockTemplate).msgsReceived ≠ 1 ∧ O.parseBlock blob = some block ∧
      block.pos.round = ctx.round ∧ block.pos.validatorBitset = ctx.bestBitset := by
  unfold readBlockTemplate at h
  split at h
  · cases h
  rename_i hmsgs
  split at h
  · cases h
  rename_i parsed hparse
  split at h
  next hround =>
    split at h
    next hbitset =>
      cases h
      exact ⟨hmsgs, hparse, hround, hbitset⟩
    · cases h
  · cases h

theorem isCommitted_eq_true {value : PosRandomValue} (h : isCommitted O ctx i value = true) :
    ctx.transient.randomValueHashes i = some (O.hashRandomValue value) := by
  unfold isCommitted at h
  cases hhash : ctx.transient.randomValueHashes i with
  | none => simp [hhash] at h
  | some hash =>
    simp only [hhash] at h
    rw [eq_of_beq h]

theorem addMessageData_adds {body : MessageBody} {transient : Transient P}
    (h : addMessageData O ctx i body = some transient) : Adds O ctx i body transient := by
  cases body with
  | invalid => cases h
  | handshake =>
    simp only [addMessageData] at h
    split at h
    · cases h
    next hold =>
      cases h
      exact .handshake (Bool.eq_false_iff.mpr hold)
  | handshakeBitset validatorBitset =>
    rcases record_map_eq_some h with ⟨hold, rfl⟩
    exact .handshakeBitset hold
  | blockTemplate blob =>
    rcases Option.map_eq_some_iff.mp h with ⟨block, hblock, rfl⟩
    rcases readBlockTemplate_eq_some hblock with ⟨hmsgs, hparse, hround, hbitset⟩
    exact .blockTemplate hmsgs hparse hround hbitset
  | randomValueHash hash =>
    rcases record_map_eq_some h with ⟨hold, rfl⟩
    exact .randomValueHash hold
  | randomValue value =>
    simp only [addMessageData] at h
    split at h
    next hcomm =>
      rcases record_map_eq_some h with ⟨hold, rfl⟩
      exact .randomValue (isCommitted_eq_true hcomm) hold
    · cases h
  | signedBlock signature =>
    simp only [addMessageData] at h
    split at h
    next hsign =>
      rcases record_map_eq_some h with ⟨hold, rfl⟩
      exact .signedBlock hsign hold
    · cases h

inductive Handles (O : PosOracles P) (ctx : Context P) (msg : Message) : Context P -> Prop where
  | dropped : Handles O ctx msg ctx
  | queued {stage : Stage} {i : Fin posQuorumNumValidators} :
      Admitted O ctx msg stage i -> ctx.state < stage.roundState ->
      Handles O ctx msg (enqueue ctx stage i msg)
  | counted {stage : Stage} {i : Fin posQuorumNumValidators} {transient : Transient P} :
      Admitted O ctx msg stage i -> stage.roundState <= ctx.state ->
      isNotLockedIn ctx stage i = false -> Adds O ctx i msg.body transient ->
      Handles O ctx msg (countMessage ctx transient stage i msg)

theorem handleMessage_handles (O : PosOracles P) (ctx : Context P) (msg : Message) :
    Handles O ctx msg (handleMessage O ctx msg) := by
  fun_cases handleMessage O ctx msg with
  | case3 hst hcheck stage hstage hpos hearly =>
    exact .queued ⟨RoundState.not_lt.mp hst, hcheck, hstage, rfl⟩ hearly
  | case6 hst hcheck stage hstage hpos hearly hlocked transient hdata =>
    exact .counted ⟨RoundState.not_lt.mp hst, hcheck, hstage, rfl⟩
      (RoundState.not_lt.mp hearly) (Bool.eq_false_iff.mpr hlocked) (addMessageData_adds hdata)
  | _ => exact .dropped

/-! ## The template of the producer -/

/-- A message of the block producer with a block for the round and the agreed validators. -/
structure ProducerTemplate (O : PosOracles P) (ctx : Context P) (msg : Message)
    (block : Block P) : Prop where
  blob : exists blob, msg.body = .blockTemplate blob ∧ O.parseBlock blob = some block
  signed : msgSignatureCheck O msg ctx.topHash ctx.quorum = true
  round_eq : block.pos.round = ctx.round
  bitset_eq : block.pos.validatorBitset = ctx.bestBitset

def producerPosition : Fin posQuorumNumValidators :=
  ⟨0, by decide⟩

/-- The message waits in its slot for its stage, or its block becomes the template of the
round. -/
def AcceptsTemplate (O : PosOracles P) (ctx : Context P) (msg : Message) (block : Block P) : Prop :=
  handleMessage O ctx msg =
    if ctx.state < Stage.blockTemplate.roundState then
      { ctx with
        transient := ctx.transient.updateStage .blockTemplate fun entry =>
          entry.push producerPosition msg }
    else
      countMessage ctx { ctx.transient with templateBlock := block } .blockTemplate
        producerPosition msg

theorem ProducerTemplate.position_eq (h : ProducerTemplate O ctx msg block) :
    msg.quorumPosition = 0 := by
  rcases h.blob with ⟨blob, hbody, _⟩
  rcases msgSignatureCheck_eq_true.mp h.signed with ⟨key, hkey, _⟩
  unfold signerKey at hkey
  simp only [hbody] at hkey
  by_contra hzero
  rw [if_neg hzero] at hkey
  cases hkey

/-- Once the validators are locked in, the first template of the producer is accepted exactly
when it comes early and its slot is empty, or the validator at position zero is among them. -/
theorem acceptsTemplate_iff (hlocked : RoundState.waitForHandshakeBitsets < ctx.state)
    (hfirst : (ctx.stage .blockTemplate).msgsReceived ≠ 1) (h : ProducerTemplate O ctx msg block) :
    AcceptsTemplate O ctx msg block <->
      if ctx.state < Stage.blockTemplate.roundState then
        (ctx.stage .blockTemplate).buffer producerPosition = .empty
      else has ctx.bestBitset 0 = true := by
  rcases h.blob with ⟨blob, hbody, hparse⟩
  have hzero := congrArg UInt16.toNat h.position_eq
  have hpos : msg.quorumPosition.toNat < posQuorumNumValidators := by
    rw [hzero]
    decide
  have hindex : (⟨_, hpos⟩ : Fin posQuorumNumValidators) = producerPosition := Fin.ext hzero
  have hstart : ¬ ctx.state < .waitForRound :=
    fun hlt => absurd (RoundState.lt_of_lt_of_le hlocked (Nat.le_of_lt hlt)) (by decide)
  have hread : readBlockTemplate O ctx blob = some block := by
    unfold readBlockTemplate
    rw [if_neg hfirst, hparse]
    simp only [h.round_eq, h.bitset_eq, if_true]
  unfold AcceptsTemplate handleMessage
  simp only [if_neg hstart, if_pos h.signed, hbody, MessageBody.stage, dif_pos hpos, hindex]
  by_cases hearly : ctx.state < Stage.blockTemplate.roundState
  · simp only [if_pos hearly]
    unfold enqueue
    cases hslot : (ctx.stage .blockTemplate).buffer producerPosition with
    | empty => exact iff_of_true rfl rfl
    | _ =>
      -- a message that is kept is counted in the queue
      refine iff_of_false (fun heq => ?_) (fun hempty => by cases hempty)
      have hqueue := congrArg (fun context => (context.stage .blockTemplate).queueCount) heq
      exact absurd hqueue (ne_of_lt (Nat.lt_succ_self _))
  simp only [if_neg hearly, addMessageData, hread, Option.map_some]
  have hdropped : isNotLockedIn ctx .blockTemplate producerPosition =
      !has ctx.bestBitset 0 := by
    unfold isNotLockedIn
    rw [decide_eq_true hlocked, Bool.eq_iff_iff, Bool.not_eq_true']
    exact beq_iff_eq.trans bit_and_eq_zero
  rw [hdropped]
  cases has ctx.bestBitset 0 with
  | true => exact iff_of_true rfl rfl
  | false =>
    -- a message that is counted leaves a trace among the actions
    refine iff_of_false (fun heq => ?_) Bool.false_ne_true
    have hactions := congrArg (fun context => context.actions.length) heq
    exact absurd hactions (ne_of_lt (Nat.lt_succ_self _))

def tenValidators : UInt16 := 2046

def tenBlock : Block Unit :=
  { emptyBlock Unit with
    pos := { randomValue := ⟨0⟩, round := 0, validatorBitset := tenValidators } }

def tenOracles : PosOracles Unit where
  checkSignature _ _ _ := true
  hashRandomValue _ := nullHash
  combineRandomValues _ := ⟨0⟩
  hashBlock _ _ _ _ _ _ _ _ := nullHash
  parseBlock _ := some tenBlock
  serializeBlock _ := []

def tenContext : Context Unit :=
  { Context.init Unit with
    state := .waitForBlockTemplate
    transient := { Transient.init Unit with bestBitset := tenValidators }
    prepareForRound :=
      { PrepareForRound.init with quorum := { validators := [], workers := [⟨1⟩] } } }

def tenMessage : Message where
  quorumPosition := 0
  round := 0
  signature := nullSignature
  body := .blockTemplate []

theorem producerTemplate_tenMessage : ProducerTemplate tenOracles tenContext tenMessage tenBlock :=
  ⟨⟨[], rfl, rfl⟩, rfl, rfl, rfl⟩

/-- A signature repeats the key; the validator at position zero is locked in as well. -/
def elevenOracles : PosOracles Unit :=
  { tenOracles with
    checkSignature _ key signature := signature.c.bits == key.bits
    parseBlock _ := some { tenBlock with pos := { tenBlock.pos with validatorBitset := 2047 } } }

def elevenContext : Context Unit :=
  { tenContext with
    transient := { tenContext.transient with bestBitset := 2047 }
    prepareForRound :=
      { PrepareForRound.init with
        quorum :=
          { validators := (List.range 11).map fun i => ⟨BitVec.ofNat 256 i⟩, workers := [⟨77⟩] } } }

theorem acceptsTemplate_iff_elevenContext :
    AcceptsTemplate elevenOracles elevenContext { tenMessage with signature := ⟨⟨77⟩, ⟨0⟩⟩ }
      { tenBlock with pos := { tenBlock.pos with validatorBitset := 2047 } } :=
  (acceptsTemplate_iff (by decide) (by decide) ⟨⟨[], rfl, rfl⟩, rfl, rfl, rfl⟩).mpr (by decide)

theorem tenMessage_dropped :
    ProducerTemplate tenOracles tenContext tenMessage tenBlock ∧
    posBlockRequiredSignatures <= count tenContext.bestBitset ∧
    handleMessage tenOracles tenContext tenMessage = tenContext :=
  ⟨producerTemplate_tenMessage, by decide, rfl⟩

end Beldex.Pos
