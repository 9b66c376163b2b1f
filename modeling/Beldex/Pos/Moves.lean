import Beldex.Pos.Stages
import Mathlib.Logic.Relation

/-!
# Moves of the state machine

A turn of the loop is a sequence of small moves: a message is handled, the state
advances, the validators are locked in, the final block is signed, or the round
is left.  `Move` says once what each of them does and when it is made, and
`turn_moves` reads a turn as a sequence of them.
-/

namespace Beldex.Pos

open Basic Crypto Relation

variable {P : Type}

/-! ## Tips and signatures -/

structure Tip where
  height : UInt64
  hash : Hash
deriving DecidableEq

def Context.tip (ctx : Context P) : Tip :=
  { height := ctx.height, hash := ctx.topHash }

/-- The tip that a turn reads; a null hash stands for a failed query. -/
def Environment.tip? (env : Environment P) : Option Tip :=
  if env.topBlockId = nullHash then none
  else some { height := env.chainHeight, hash := env.topBlockId }

def Action.signedRound? : Action P -> Option (Hash × UInt8)
  | .signedFinalBlock topHash round _ => some (topHash, round)
  | _ => none

/-- The top hashes and rounds for which a final block was signed, once for each
signature. -/
def signedRounds (ctx : Context P) : List (Hash × UInt8) :=
  ctx.actions.filterMap Action.signedRound?

/-! ## What stays while messages are handled -/

structure Carries (ctx ctx' : Context P) : Prop where
  state : ctx'.state = ctx.state
  tip : ctx'.tip = ctx.tip
  prepareForRound : ctx'.prepareForRound = ctx.prepareForRound
  signed : signedRounds ctx' = signedRounds ctx

theorem Carries.refl (ctx : Context P) : Carries ctx ctx :=
  ⟨rfl, rfl, rfl, rfl⟩

theorem Carries.trans {a b c : Context P} (hab : Carries a b) (hbc : Carries b c) :
    Carries a c where
  state := hbc.state.trans hab.state
  tip := hbc.tip.trans hab.tip
  prepareForRound := hbc.prepareForRound.trans hab.prepareForRound
  signed := hbc.signed.trans hab.signed

structure SameRound (ctx ctx' : Context P) : Prop extends Carries ctx ctx' where
  bestBitset : ctx'.bestBitset = ctx.bestBitset
  finalBlock : ctx'.transient.finalBlock = ctx.transient.finalBlock

theorem SameRound.topHash {ctx ctx' : Context P} (h : SameRound ctx ctx') :
    ctx'.topHash = ctx.topHash :=
  congrArg Tip.hash h.tip

theorem SameRound.refl (ctx : Context P) : SameRound ctx ctx :=
  ⟨Carries.refl ctx, rfl, rfl⟩

theorem SameRound.trans {a b c : Context P} (hab : SameRound a b) (hbc : SameRound b c) :
    SameRound a c where
  toCarries := hab.toCarries.trans hbc.toCarries
  bestBitset := hbc.bestBitset.trans hab.bestBitset
  finalBlock := hbc.finalBlock.trans hab.finalBlock

variable {O : PosOracles P} {ctx : Context P}

theorem Adds.frame {i : Fin posQuorumNumValidators} {body : MessageBody} {transient : Transient P}
    (h : Adds O ctx i body transient) :
    transient.stages = ctx.transient.stages ∧ transient.bestBitset = ctx.bestBitset ∧
      transient.finalBlock = ctx.transient.finalBlock ∧
      transient.sendRandomValue = ctx.transient.sendRandomValue := by
  cases h with
  | _ => exact ⟨rfl, rfl, rfl, rfl⟩

theorem enqueue_sameRound (ctx : Context P) (stage : Stage) (i : Fin posQuorumNumValidators)
    (msg : Message) : SameRound ctx (enqueue ctx stage i msg) := by
  unfold enqueue
  cases (ctx.stage stage).buffer i with
  | empty => exact ⟨⟨rfl, rfl, rfl, rfl⟩, rfl, rfl⟩
  | _ => exact SameRound.refl ctx

theorem enqueue_actions (ctx : Context P) (stage : Stage) (i : Fin posQuorumNumValidators)
    (msg : Message) : (enqueue ctx stage i msg).actions = ctx.actions := by
  unfold enqueue
  cases (ctx.stage stage).buffer i with
  | _ => rfl

theorem handleMessage_sameRound (O : PosOracles P) (ctx : Context P) (msg : Message) :
    SameRound ctx (handleMessage O ctx msg) := by
  have hhandles := handleMessage_handles O ctx msg
  generalize handleMessage O ctx msg = ctx' at hhandles ⊢
  cases hhandles with
  | dropped => exact SameRound.refl ctx
  | queued _ _ => exact enqueue_sameRound ctx _ _ msg
  | counted _ _ _ hadds =>
    rcases hadds.frame with ⟨_, hbest, hfinal, _⟩
    exact ⟨⟨rfl, rfl, rfl, rfl⟩, hbest, hfinal⟩

theorem handleMessagesReceivedEarlyFor_rel {R : Context P -> Context P -> Prop}
    (hrefl : forall ctx, R ctx ctx) (htrans : forall a b c, R a b -> R b c -> R a c)
    (hqueued : forall ctx stage i msg, (ctx.stage stage).buffer i = .received msg ->
      R ctx (markProcessed (handleMessage O ctx msg) stage i msg))
    (ctx : Context P) (stage : Stage) : R ctx (handleMessagesReceivedEarlyFor O ctx stage) := by
  unfold handleMessagesReceivedEarlyFor
  split
  · exact hrefl ctx
  · refine List.foldlRecOn _ _ (hrefl ctx) fun ctx' hctx i _ => htrans _ _ _ hctx ?_
    unfold handleQueued
    cases hent : (ctx'.stage stage).buffer i with
    | received msg => exact hqueued ctx' stage i msg hent
    | _ => exact hrefl ctx'

/-- The round of a context is prepared: the node waits for it or takes part in it. -/
def Prepared (ctx : Context P) : Prop :=
  RoundState.waitForRound <= ctx.state

theorem Prepared.of_state {ctx : Context P} {state : RoundState} (h : ctx.state = state)
    (hle : RoundState.waitForRound <= state) : Prepared ctx := by
  unfold Prepared
  rw [h]
  exact hle

/-! ## Moves -/

inductive Move (O : PosOracles P) (env : Environment P) : Context P -> Context P -> Prop where
  | leave {ctx ctx' : Context P} :
      ctx'.state < .waitForRound -> (forall top round msg, .counted top round msg ∈ ctx'.actions ->
        .counted top round msg ∈ ctx.actions) -> Move O env ctx ctx'
  | start {ctx : Context P} {round : UInt8} {quorum : Quorum} :
      verifyPosQuorumSizes quorum = true -> Move O env ctx (startRound env ctx round quorum)
  | advance {ctx : Context P} {next : RoundState} :
      ctx.state < next -> next <= .waitForHandshakeBitsets -> .waitForRound <= ctx.state ->
      Move O env ctx { ctx with state := next }
  | markSent {ctx : Context P} {handshakeSent : Bool} {hash : PosSendStage Hash}
      {signature : PosSendStage Signature} :
      Move O env ctx
        { ctx with
          transient := { ctx.transient with
            handshakeSent := handshakeSent
            sendRandomValueHash := hash
            sendSignature := signature } }
  | own {ctx : Context P} {body : MessageBody} :
      (forall blob, body ≠ .blockTemplate blob) ->
      Move O env ctx (handleMessage O ctx (signedMessage env ctx body))
  | queued {ctx : Context P} {stage : Stage} {i : Fin posQuorumNumValidators}
      {msg : Message} :
      (ctx.stage stage).buffer i = .received msg -> Move O env ctx (handleMessage O ctx msg)
  | processed {ctx : Context P} {stage : Stage} {i : Fin posQuorumNumValidators}
      {msg : Message} :
      Move O env ctx (markProcessed ctx stage i msg)
  | lockIn {ctx : Context P} {tally : BitsetCount} {next : RoundState} :
      ctx.state = .waitForHandshakeBitsets ->
      mostCommonBitset ctx.transient.handshakeBitsets = tally ->
      posBlockRequiredSignatures <= tally.count ->
      iAmNotParticipating ctx tally.bestBitset = false ->
      next = .sendBlockTemplate ∨ next = .waitForBlockTemplate -> Move O env ctx
        { ctx with
          transient := { ctx.transient with
            bestBitset := tally.bestBitset
            bestCount := tally.count }
          state := next }
  | takeTemplate {ctx : Context P} {hash : PosSendStage Hash} {value : PosRandomValue} :
      ctx.state = .waitForBlockTemplate -> (ctx.stage .blockTemplate).msgsReceived = 1 ->
      Move O env ctx
        { ctx with
          transient := { ctx.transient with
            sendRandomValue := { ctx.transient.sendRandomValue with data := value }
            sendRandomValueHash := hash }
          state := .sendAndWaitForRandomValueHashes }
  | holdHashes {ctx : Context P} :
      ctx.state = .sendAndWaitForRandomValueHashes ->
      (ctx.stage .randomValueHashes).bitset = ctx.bestBitset ->
      Move O env ctx { ctx with state := .sendAndWaitForRandomValue }
  | reveal {ctx : Context P} :
      ctx.state = .sendAndWaitForRandomValue -> Move O env ctx
        { ctx with
          transient := { ctx.transient with
            sendRandomValue := { ctx.transient.sendRandomValue with sent := true } } }
  | sign {ctx : Context P} :
      ctx.state = .sendAndWaitForRandomValue -> (ctx.stage .randomValue).bitset = ctx.bestBitset ->
      Move O env ctx (signFinalBlock O env ctx)

/-! ## The stages -/

theorem allReceived_of_enforced {stage : Stage} {timedOut : Bool}
    (hended : (timedOut || allReceived ctx stage) = true)
    (henf : enforceValidatorParticipationAndTimeouts ctx stage timedOut
      (allReceived ctx stage) = true) : (ctx.stage stage).bitset = ctx.bestBitset := by
  cases hall : allReceived ctx stage with
  | true => exact eq_of_beq hall
  | false =>
    rw [hall, Bool.or_false] at hended
    unfold enforceValidatorParticipationAndTimeouts at henf
    simp [hall, hended] at henf

structure Handled (O : PosOracles P) (env : Environment P) (ctx ready : Context P) : Prop where
  moves : ReflTransGen (Move O env) ctx ready
  same : SameRound ctx ready

variable {env : Environment P} {ready : Context P}

theorem Handled.refl (O : PosOracles P) (env : Environment P) (ctx : Context P) :
    Handled O env ctx ctx :=
  ⟨.refl, SameRound.refl ctx⟩

theorem Handled.trans {last : Context P} (h : Handled O env ctx ready)
    (h' : Handled O env ready last) : Handled O env ctx last :=
  ⟨h.moves.trans h'.moves, h.same.trans h'.same⟩

theorem Handled.message {msg : Message} (hmove : Move O env ctx (handleMessage O ctx msg)) :
    Handled O env ctx (handleMessage O ctx msg) :=
  ⟨.single hmove, handleMessage_sameRound O ctx msg⟩

theorem Handled.early (h : Handled O env ctx ready) (stage : Stage) :
    Handled O env ctx (handleMessagesReceivedEarlyFor O ready stage) := by
  refine h.trans (handleMessagesReceivedEarlyFor_rel (Handled.refl O env)
    (fun _ _ _ => Handled.trans) (fun ctx stage i msg hent => ?_) ready stage)
  exact (Handled.message (.queued hent)).trans ⟨.single .processed, ⟨rfl, rfl, rfl, rfl⟩, rfl, rfl⟩

theorem sendOnce_handled {marked : Transient P} {body : MessageBody} (sent : Bool)
    (hmark : Move O env ctx { ctx with transient := marked })
    (hsame : SameRound ctx { ctx with transient := marked })
    (hbody : forall blob, body ≠ .blockTemplate blob) :
    Handled O env ctx (sendOnce O env ctx sent marked body) := by
  cases sent with
  | true => exact Handled.refl O env ctx
  | false =>
    have hmarked : Handled O env ctx { ctx with transient := marked } :=
      ⟨.single hmark, hsame⟩
    exact hmarked.trans (Handled.message (.own hbody))

/-! ## The outcomes of a turn -/

def KeepsCounted (ctx ctx' : Context P) : Prop :=
  forall top round msg, .counted top round msg ∈ ctx'.actions ->
    .counted top round msg ∈ ctx.actions

theorem KeepsCounted.refl (ctx : Context P) : KeepsCounted ctx ctx :=
  fun _ _ _ h => h

inductive Outcome (O : PosOracles P) (env : Environment P) (ctx : Context P) :
    Context P -> Prop where
  | stays {ready : Context P} : Handled O env ctx ready -> Outcome O env ctx ready
  | idles : Outcome O env ctx { ctx with state := .waitForNextBlock }
  | takesTip {ctx' : Context P} :
      ctx'.state = .prepareForRound -> ctx'.actions = ctx.actions -> env.tip? = some ctx'.tip ->
      ctx'.tip ≠ ctx.tip -> Outcome O env ctx ctx'
  | starts {round : UInt8} {quorum : Quorum} :
      ctx.state = .prepareForRound -> chooseRound env ctx = some (round, quorum) ->
      Outcome O env ctx (startRound env ctx round quorum)
  | goesOn {ready next : Context P} :
      Handled O env ctx ready -> Carries ready { next with state := ready.state } ->
      Move O env ready next -> Prepared ctx -> ctx.state ≠ .sendAndWaitForSignedBlocks ->
      Prepared next -> Outcome O env ctx next
  | signs {ready : Context P} :
      Handled O env ctx ready -> ctx.state = .sendAndWaitForRandomValue ->
      (ready.stage .randomValue).bitset = ready.bestBitset ->
      Outcome O env ctx (signFinalBlock O env ready)
  | fails {ready left : Context P} :
      Handled O env ctx ready -> Carries ready left -> KeepsCounted ready left -> Prepared ctx ->
      Outcome O env ctx (gotoPreparingForNextRound left)
  | stops {ready left : Context P} :
      Handled O env ctx ready -> Carries ready left -> KeepsCounted ready left ->
      Outcome O env ctx (gotoWaitForNextBlockAndClearRoundData left)

section

variable (h : Handled O env ctx ready)
include h

theorem Handled.fail (hctx : Prepared ctx) : Outcome O env ctx (gotoPreparingForNextRound ready) :=
  .fails h (Carries.refl ready) (KeepsCounted.refl ready) hctx

theorem Handled.stop : Outcome O env ctx (gotoWaitForNextBlockAndClearRoundData ready) :=
  .stops h (Carries.refl ready) (KeepsCounted.refl ready)

theorem Handled.advance {state next : RoundState}
    (hst : ctx.state = state) (hlt : state < next) (hle : next <= .waitForHandshakeBitsets)
    (hstart : .waitForRound <= state) (hunsig : state ≠ .sendAndWaitForSignedBlocks)
    (hnext : .waitForRound <= next) : Outcome O env ctx { ready with state := next } := by
  have hready := h.same.state.trans hst
  refine .goesOn h ⟨rfl, rfl, rfl, rfl⟩ (.advance ?_ hle ?_) (.of_state hst hstart) ?_ hnext
  · rw [hready]
    exact hlt
  · rw [hready]
    exact hstart
  · rw [hst]
    exact hunsig

theorem endStage_outcome {stage : Stage} {next : Context P -> Context P} (hctx : Prepared ctx)
    (hnext : (ready.stage stage).bitset = ready.bestBitset -> Outcome O env ctx (next ready)) :
    Outcome O env ctx (endStage env ready stage next) := by
  fun_cases endStage env ready stage next with
  | case1 hended henf => exact hnext (allReceived_of_enforced hended henf)
  | case2 => exact h.fail hctx
  | case3 => exact .stays h

end

theorem waitForNextBlock_outcome : Outcome O env ctx (waitForNextBlock env ctx) := by
  fun_cases waitForNextBlock env ctx with
  | case4 hchg hnull r0Timestamp =>
    refine .takesTip rfl rfl (if_neg hnull) fun htip => ?_
    unfold chainTopChanged at hchg
    have hht : env.chainHeight = ctx.height := congrArg Tip.height htip
    have htop : env.topBlockId = ctx.topHash := congrArg Tip.hash htip
    simp [hht, htop] at hchg
  | _ => exact .stays (Handled.refl O env ctx)

theorem chooseRound_sizes {round : UInt8} {quorum : Quorum}
    (h : chooseRound env ctx = some (round, quorum)) : verifyPosQuorumSizes quorum = true := by
  rcases Option.bind_eq_some_iff.mp h with ⟨requested, _, hreq⟩
  rcases Option.bind_eq_some_iff.mp hreq with ⟨current, _, hcur⟩
  rcases Option.bind_eq_some_iff.mp hcur with ⟨generated, _, hgen⟩
  split at hgen
  next hsizes =>
    cases hgen
    exact hsizes
  · cases hgen

theorem prepareForRound_outcome (hst : ctx.state = .prepareForRound) :
    Outcome O env ctx (prepareForRound env ctx) := by
  unfold prepareForRound
  cases hchoose : chooseRound env ctx with
  | none => exact (Handled.refl O env ctx).stop
  | some choice => exact .starts hst hchoose

theorem waitForRound_outcome (hst : ctx.state = .waitForRound) :
    Outcome O env ctx (waitForRound env ctx) := by
  have hrefl := Handled.refl O env ctx
  fun_cases waitForRound env ctx with
  | case1 => exact hrefl.stop
  | case2 => exact .stays hrefl
  | case5 => exact hrefl.fail (.of_state hst (by decide))
  | _ =>
    exact hrefl.advance hst (by decide) (by decide) (by decide) (by decide) (by decide)

theorem sendAndWaitForHandshakes_outcome (hst : ctx.state = .sendAndWaitForHandshakes) :
    Outcome O env ctx (sendAndWaitForHandshakes O env ctx) := by
  have hsend : Handled O env ctx (sendHandshake O env ctx) :=
    sendOnce_handled _ .markSent ⟨⟨rfl, rfl, rfl, rfl⟩, rfl, rfl⟩ fun _ h => by cases h
  have hready := hsend.early .handshakes
  fun_cases sendAndWaitForHandshakes O env ctx with
  | case1 => exact hsend.fail (.of_state hst (by decide))
  | case2 =>
    exact hready.advance hst (by decide) (by decide) (by decide) (by decide) (by decide)
  | case3 => exact .stays hready

theorem sendHandshakeBitsets_outcome (hst : ctx.state = .sendHandshakeBitsets) :
    Outcome O env ctx (sendHandshakeBitsets O env ctx) := by
  have hsend : Handled O env ctx (handleMessage O ctx (signedMessage env ctx
      (.handshakeBitset (handshakeBits ctx.transient.handshakes)))) :=
    .message (.own fun _ h => by cases h)
  unfold sendHandshakeBitsets
  split
  · exact hsend.fail (.of_state hst (by decide))
  · exact hsend.advance hst (by decide) (by decide) (by decide) (by decide) (by decide)

theorem waitForHandshakeBitsets_outcome (hst : ctx.state = .waitForHandshakeBitsets) :
    Outcome O env ctx (waitForHandshakeBitsets O env ctx) := by
  have hctx : Prepared ctx := .of_state hst (by decide)
  have hready := (Handled.refl O env ctx).early .handshakeBitsets
  unfold waitForHandshakeBitsets
  generalize handleMessagesReceivedEarlyFor O ctx .handshakeBitsets = ready at hready ⊢
  dsimp only
  split
  · split
    · exact hready.fail hctx
    next hfails =>
      rw [Bool.or_eq_true, Bool.or_eq_true, decide_eq_true_eq, not_or, not_or] at hfails
      have hchoice : (if ready.prepareForRound.participant = .producer then
          RoundState.sendBlockTemplate else .waitForBlockTemplate) = .sendBlockTemplate ∨
          (if ready.prepareForRound.participant = .producer then
            RoundState.sendBlockTemplate else .waitForBlockTemplate) = .waitForBlockTemplate := by
        split
        · exact .inl rfl
        · exact .inr rfl
      refine .goesOn hready ⟨rfl, rfl, rfl, rfl⟩ (.lockIn (hready.same.state.trans hst) rfl
        (not_lt.mp hfails.1.1) (Bool.eq_false_iff.mpr hfails.2) hchoice) hctx ?_
        (hchoice.elim (.of_state · (by decide)) (.of_state · (by decide)))
      rw [hst]
      decide
  · exact .stays hready

theorem sendBlockTemplate_outcome (hst : ctx.state = .sendBlockTemplate) :
    Outcome O env ctx (sendBlockTemplate O env ctx) := by
  have hctx : Prepared ctx := .of_state hst (by decide)
  have hrefl := Handled.refl O env ctx
  unfold sendBlockTemplate
  cases env.blockTemplate with
  | none => exact hrefl.fail hctx
  | some template =>
    rcases template with ⟨block, height⟩
    dsimp only
    split
    · exact hrefl.stop
    · refine .fails hrefl ⟨rfl, rfl, rfl, rfl⟩ (fun top round msg hmem => ?_) hctx
      exact (List.mem_cons.mp hmem).resolve_left fun heq => by cases heq

theorem waitForBlockTemplate_outcome (hst : ctx.state = .waitForBlockTemplate) :
    Outcome O env ctx (waitForBlockTemplate O env ctx) := by
  have hctx : Prepared ctx := .of_state hst (by decide)
  have hready := (Handled.refl O env ctx).early .blockTemplate
  fun_cases waitForBlockTemplate O env ctx with
  | case1 ready hrecv =>
    refine .goesOn hready ⟨rfl, rfl, rfl, rfl⟩ (.takeTemplate (hready.same.state.trans hst)
      (eq_of_beq hrecv)) hctx ?_
      (by decide : RoundState.waitForRound <= .sendAndWaitForRandomValueHashes)
    rw [hst]
    decide
  | case2 => exact hready.fail hctx
  | case3 => exact .stays hready

theorem sendAndWaitForRandomValueHashes_outcome
    (hst : ctx.state = .sendAndWaitForRandomValueHashes) :
    Outcome O env ctx (sendAndWaitForRandomValueHashes O env ctx) := by
  have hctx : Prepared ctx := .of_state hst (by decide)
  have hsend : Handled O env ctx (sendRandomValueHash O env ctx) :=
    sendOnce_handled _ .markSent ⟨⟨rfl, rfl, rfl, rfl⟩, rfl, rfl⟩ fun _ h => by cases h
  have hready := hsend.early .randomValueHashes
  unfold sendAndWaitForRandomValueHashes
  refine endStage_outcome hready hctx fun hall => ?_
  refine .goesOn hready ⟨rfl, rfl, rfl, rfl⟩ (.holdHashes (hready.same.state.trans hst) hall)
    hctx ?_ (by decide : RoundState.waitForRound <= .sendAndWaitForRandomValue)
  rw [hst]
  decide

theorem sendAndWaitForRandomValue_outcome (hst : ctx.state = .sendAndWaitForRandomValue) :
    Outcome O env ctx (sendAndWaitForRandomValue O env ctx) := by
  have hsend : Handled O env ctx (sendRandomValue O env ctx) :=
    sendOnce_handled _ (.reveal hst) ⟨⟨rfl, rfl, rfl, rfl⟩, rfl, rfl⟩ fun _ h => by cases h
  have hready := hsend.early .randomValue
  exact endStage_outcome hready (.of_state hst (by decide)) (.signs hready hst)

theorem collectSignatures_handled (O : PosOracles P) (env : Environment P) (ctx : Context P) :
    Handled O env ctx (collectSignatures O env ctx) := by
  have hsend : Handled O env ctx (sendSignature O env ctx) :=
    sendOnce_handled _ .markSent ⟨⟨rfl, rfl, rfl, rfl⟩, rfl, rfl⟩ fun _ h => by cases h
  exact hsend.early .signedBlock

theorem propagateFinalBlock_outcome (h : Handled O env ctx ready) (hctx : Prepared ctx) :
    Outcome O env ctx (propagateFinalBlock env ready) := by
  unfold propagateFinalBlock
  cases addSignatures ready.transient with
  | none => exact h.fail hctx
  | some finalBlock =>
    have hcounted : KeepsCounted ready
        { ready with actions := .foundBlock finalBlock :: ready.actions } :=
      fun top round msg hmem => (List.mem_cons.mp hmem).resolve_left fun heq => by cases heq
    dsimp only
    split
    · exact .stops h ⟨rfl, rfl, rfl, rfl⟩ hcounted
    · exact .fails h ⟨rfl, rfl, rfl, rfl⟩ hcounted hctx

theorem turn_outcome (O : PosOracles P) (env : Environment P) (ctx : Context P) :
    Outcome O env ctx (turn O env ctx) := by
  unfold turn
  cases hst : ctx.state with
  | nullState => exact .idles
  | waitForNextBlock => exact waitForNextBlock_outcome
  | prepareForRound => exact prepareForRound_outcome hst
  | waitForRound => exact waitForRound_outcome hst
  | sendAndWaitForHandshakes => exact sendAndWaitForHandshakes_outcome hst
  | sendHandshakeBitsets => exact sendHandshakeBitsets_outcome hst
  | waitForHandshakeBitsets => exact waitForHandshakeBitsets_outcome hst
  | sendBlockTemplate => exact sendBlockTemplate_outcome hst
  | waitForBlockTemplate => exact waitForBlockTemplate_outcome hst
  | sendAndWaitForRandomValueHashes => exact sendAndWaitForRandomValueHashes_outcome hst
  | sendAndWaitForRandomValue => exact sendAndWaitForRandomValue_outcome hst
  | sendAndWaitForSignedBlocks =>
    have hctx : Prepared ctx := .of_state hst (by decide)
    have hready := collectSignatures_handled O env ctx
    exact endStage_outcome hready hctx fun _ => propagateFinalBlock_outcome hready hctx

theorem turn_moves (O : PosOracles P) (env : Environment P) (ctx : Context P) :
    ReflTransGen (Move O env) ctx (turn O env ctx) := by
  have houtcome := turn_outcome O env ctx
  generalize turn O env ctx = ctx' at houtcome ⊢
  cases houtcome with
  | stays h => exact h.moves
  | idles =>
    exact .single (.leave (by decide : RoundState.waitForNextBlock < .waitForRound)
      fun _ _ _ h => h)
  | takesTip hst hactions _ _ =>
    refine .single (.leave ?_ fun _ _ _ h => hactions ▸ h)
    rw [hst]
    decide
  | starts _ hchoose => exact .single (.start (chooseRound_sizes hchoose))
  | goesOn h _ hmove _ _ _ => exact h.moves.tail hmove
  | signs h hst hall => exact h.moves.tail (.sign (h.same.state.trans hst) hall)
  | fails h _ hcounted _ =>
    exact h.moves.tail (.leave (by decide : RoundState.prepareForRound < .waitForRound) hcounted)
  | stops h _ hcounted =>
    exact h.moves.tail (.leave (by decide : RoundState.waitForNextBlock < .waitForRound) hcounted)

/-! ## Runs -/

/-- The contexts of a node that is delivered messages and runs its loop in any
interleaving.  `delivers` says which messages may arrive in a context. -/
inductive Reachable (O : PosOracles P) (delivers : Context P -> Message -> Prop) :
    Context P -> Prop where
  | init : Reachable O delivers (Context.init P)
  | deliver {ctx : Context P} {msg : Message} :
      Reachable O delivers ctx -> delivers ctx msg -> Reachable O delivers (handleMessage O ctx msg)
  | turn {ctx : Context P} (env : Environment P) :
      Reachable O delivers ctx -> Reachable O delivers (turn O env ctx)

def AnyMessage (_ : Context P) (_ : Message) : Prop :=
  True

variable {delivers : Context P -> Message -> Prop}

theorem Reachable.mono {delivers' : Context P -> Message -> Prop}
    (himp : forall ctx msg, delivers ctx msg -> delivers' ctx msg) (h : Reachable O delivers ctx) :
    Reachable O delivers' ctx := by
  induction h with
  | init => exact .init
  | deliver _ hdelivers ih => exact .deliver ih (himp _ _ hdelivers)
  | turn env _ ih => exact .turn env ih

/-- A whole call of `main` stays within the reachable contexts. -/
theorem Reachable.posMain (envs : List (Environment P)) (h : Reachable O delivers ctx) :
    Reachable O delivers (posMain O envs ctx) := by
  induction envs generalizing ctx with
  | nil => exact h
  | cons env rest ih =>
    unfold Pos.posMain
    dsimp only
    split
    · exact .turn env h
    · exact ih (.turn env h)

theorem invariant_of_moves {Inv : Context P -> Prop}
    (hmove : forall ctx ctx', Inv ctx -> Move O env ctx ctx' -> Inv ctx') {ctx' : Context P}
    (hctx : Inv ctx) (h : ReflTransGen (Move O env) ctx ctx') : Inv ctx' := by
  induction h with
  | refl => exact hctx
  | tail _ hstep ih => exact hmove _ _ ih hstep

theorem Reachable.invariant {Inv : Context P -> Prop} (hinit : Inv (Context.init P))
    (hdeliver : forall ctx msg, Inv ctx -> delivers ctx msg -> Inv (handleMessage O ctx msg))
    (hmove : forall env ctx ctx', Inv ctx -> Move O env ctx ctx' -> Inv ctx')
    (h : Reachable O delivers ctx) : Inv ctx := by
  induction h with
  | init => exact hinit
  | deliver _ hdelivers ih => exact hdeliver _ _ ih hdelivers
  | turn env _ ih => exact invariant_of_moves (hmove env) ih (turn_moves O env _)

/-! ## Runs from a list of inputs -/

inductive Input (P : Type) where
  | deliver (msg : Message)
  | turn (env : Environment P)

def runInputs (O : PosOracles P) : List (Input P) -> Context P -> Context P
  | [], ctx => ctx
  | .deliver msg :: rest, ctx => runInputs O rest (handleMessage O ctx msg)
  | .turn env :: rest, ctx => runInputs O rest (turn O env ctx)

def Allows (O : PosOracles P) (delivers : Context P -> Message -> Prop) :
    List (Input P) -> Context P -> Prop
  | [], _ => True
  | .deliver msg :: rest, ctx => delivers ctx msg ∧ Allows O delivers rest (handleMessage O ctx msg)
  | .turn env :: rest, ctx => Allows O delivers rest (turn O env ctx)

def decidableAllows (O : PosOracles P) (delivers : Context P -> Message -> Prop)
    [forall ctx msg, Decidable (delivers ctx msg)] :
    forall (inputs : List (Input P)) (ctx : Context P), Decidable (Allows O delivers inputs ctx)
  | [], _ => .isTrue trivial
  | .deliver msg :: rest, ctx =>
    @instDecidableAnd _ _ _ (decidableAllows O delivers rest (handleMessage O ctx msg))
  | .turn env :: rest, ctx => decidableAllows O delivers rest (turn O env ctx)

instance (O : PosOracles P) (delivers : Context P -> Message -> Prop)
    [forall ctx msg, Decidable (delivers ctx msg)] (inputs : List (Input P))
    (ctx : Context P) : Decidable (Allows O delivers inputs ctx) :=
  decidableAllows O delivers inputs ctx

theorem allows_anyMessage (O : PosOracles P) (inputs : List (Input P)) (ctx : Context P) :
    Allows O AnyMessage inputs ctx := by
  induction inputs generalizing ctx with
  | nil => trivial
  | cons input rest ih =>
    cases input with
    | deliver msg => exact ⟨trivial, ih _⟩
    | turn env => exact ih _

theorem Reachable.runInputs {inputs : List (Input P)} (h : Reachable O delivers ctx)
    (hallows : Allows O delivers inputs ctx) : Reachable O delivers (runInputs O inputs ctx) := by
  induction inputs generalizing ctx with
  | nil => exact h
  | cons input rest ih =>
    cases input with
    | deliver msg => exact ih (.deliver h hallows.1) hallows.2
    | turn env => exact ih (.turn env h) hallows

/-! ## A quorum of small numbers

Keys, hashes and random values are small numbers here, and a signature is made
of the number of its key and a number that is composed of the signed fields. -/

def sampleKey (n : Nat) : PublicKey := ⟨BitVec.ofNat 256 (100 + n)⟩

def sampleTop : Hash := ⟨7⟩

/-- Validators `0` to `10` and the producer `11`. -/
def sampleQuorum : Quorum where
  validators := (List.range posQuorumNumValidators).map sampleKey
  workers := [sampleKey 11]

def sampleCode : Digest -> Nat
  | .null => 0
  | .handshake top position round =>
    1 + 8 * (round.toNat + 256 * (position.toNat + 65536 * top.toNat))
  | .handshakeBitset bitset top position round =>
    2 + 8 * (round.toNat + 256 * (position.toNat + 65536 * (bitset.toNat + 65536 * top.toNat)))
  | .blockTemplate round blob =>
    3 + 8 * (round.toNat + 256 * blob.foldl (fun n byte => 256 * n + byte.toNat) 1)
  | .randomValueHash top position round hash =>
    4 + 8 * (round.toNat + 256 * (position.toNat + 65536 * (hash.toNat + 65536 * top.toNat)))
  | .randomValue top position round value =>
    5 + 8 * (round.toNat + 256 * (position.toNat + 65536 * (value.data.toNat + 65536 * top.toNat)))
  | .signedBlock top position round signature =>
    6 + 8 * (round.toNat + 256 * (position.toNat +
      65536 * (signature.r.bits.toNat + 65536 * top.toNat)))
  | .hash hash => 7 + 8 * hash.toNat

def sampleSign (key : PublicKey) (digest : Digest) : Signature where
  c := ⟨key.bits⟩
  r := ⟨BitVec.ofNat 256 (sampleCode digest)⟩

def sampleOracles : PosOracles Unit where
  checkSignature digest key signature := signature = sampleSign key digest
  hashRandomValue value := ⟨BitVec.ofNat 256 (value.data.toNat + 1)⟩
  combineRandomValues values :=
    ⟨BitVec.ofNat 128 (values.map fun value => value.data.toNat).sum⟩
  hashBlock _ _ _ prevId _ header _ _ :=
    ⟨BitVec.ofNat 256 (header.randomValue.data.toNat + prevId.toNat)⟩
  parseBlock blob :=
    match blob with
    | [round, bitset] =>
      some { emptyBlock Unit with
        majorVersion := .hf17POS
        prevId := sampleTop
        pos := { randomValue := ⟨0⟩, round := round, validatorBitset := bitset.toUInt16 } }
    | _ => none
  serializeBlock _ := []

def sampleEnvironment (now : Nat) : Environment Unit where
  now := now
  chainHeight := 5
  topBlockId := sampleTop
  r0Timestamp := some 1000
  generatePosQuorum _ _ := some sampleQuorum
  publicKey := sampleKey 0
  generateSignature := sampleSign (sampleKey 0)
  relayThrows := false
  randomBytes := ⟨40⟩
  blockTemplate := none
  handleBlockFound _ := false

def sampleMessage (key position : Nat) (round : UInt8) (body : MessageBody) : Message :=
  let msg : Message :=
    { quorumPosition := UInt16.ofNat position
      round := round
      signature := nullSignature
      body := body }
  { msg with signature := sampleSign (sampleKey key) (msgSignatureHash sampleTop msg) }

def fromValidators (senders : List Nat) (round : UInt8) (body : Nat -> MessageBody) :
    List (Input Unit) :=
  senders.map fun k => .deliver (sampleMessage k k round (body k))

def turnsAt (now count : Nat) : List (Input Unit) :=
  List.replicate count (.turn (sampleEnvironment now))

end Beldex.Pos
