import Beldex.Foundation.Matching
import Beldex.Pos.RoundBinding

/-!
# The random value of a block

The validators first exchange hashes of their random values and then the values.
A node reveals its value when it holds the hashes of all agreed validators, and
it combines the values of exactly these validators.  Each value matches the hash
that was counted for its position; that the hash was committed in the same round
rests on no hash of another round being counted.
-/

namespace Beldex.Pos

open Basic Foundation Bitset List

variable {P : Type}

/-! ## What the protocol promises -/

/-- While a value is being revealed or has been, the hashes of all agreed
validators are held. -/
def RevealsAfterHashes (ctx : Context P) : Prop :=
  .waitForRound <= ctx.state ->
    ctx.state = .sendAndWaitForRandomValue ∨ ctx.transient.sendRandomValue.sent = true ->
      forall i : Fin posQuorumNumValidators, has ctx.bestBitset i = true ->
        exists hash, ctx.transient.randomValueHashes i = some hash

/-- Every value matches a hash that its validator signed for the current round and
that was counted in it. -/
def ValuesCommittedInRound (O : PosOracles P) (ctx : Context P) : Prop :=
  .waitForRound <= ctx.state -> forall i value, ctx.transient.randomValues i = some value ->
    exists msg : Message, .counted ctx.topHash ctx.round msg ∈ ctx.actions ∧
      msgSignatureCheck O msg ctx.topHash ctx.quorum = true ∧ msg.quorumPosition.toNat = i.val ∧
      msg.body = .randomValueHash (O.hashRandomValue value) ∧ msg.round = ctx.round

def Message.Commits (msg : Message) : Prop :=
  exists hash, msg.body = .randomValueHash hash

def agreedValidators (ctx : Context P) : List (Fin posQuorumNumValidators) :=
  (finRange posQuorumNumValidators).filter fun i : Fin posQuorumNumValidators =>
    has ctx.bestBitset i

/-- The final block is the template with the values of exactly the validators in
the bitset combined in order. -/
def CombinesAgreedValues (O : PosOracles P) (ctx : Context P) : Prop :=
  .sendAndWaitForSignedBlocks <= ctx.state ->
    (forall j, posQuorumNumValidators <= j -> has ctx.bestBitset j = false) ∧ exists values,
      List.Forall₂ (fun i value => ctx.transient.randomValues i = some value)
        (agreedValidators ctx) values ∧ ctx.transient.finalBlock =
        { ctx.transient.templateBlock with
          pos := { ctx.transient.templateBlock.pos with
            randomValue := O.combineRandomValues values } }

/-- Two nodes that are about to sign hold the same template and the same values of
the agreed validators. -/
structure HoldSame (ctx ctx' : Context P) : Prop where
  state : ctx.state = .sendAndWaitForSignedBlocks
  state' : ctx'.state = .sendAndWaitForSignedBlocks
  template : ctx.transient.templateBlock = ctx'.transient.templateBlock
  values : forall i : Fin posQuorumNumValidators, has ctx.bestBitset i = true ->
    ctx.transient.randomValues i = ctx'.transient.randomValues i

/-! ## Consequences of the invariant -/

section

variable {O : PosOracles P} {ctx : Context P}

theorem Inv.revealsAfterHashes (h : Inv O ctx) : RevealsAfterHashes ctx := by
  intro hstart hreveals i hi
  have hround := h hstart
  have hlate : .sendAndWaitForRandomValue <= ctx.state := by
    rcases hreveals with hst | hsent
    · rw [hst]
      decide
    · exact hround.revealed hsent
  rw [<- hround.hashesComplete hlate, (hround.recorded .randomValueHashes).1 i] at hi
  exact Option.isSome_iff_exists.mp hi

theorem RoundInv.has_eq_isSome (h : RoundInv O ctx)
    (hlate : .sendAndWaitForSignedBlocks <= ctx.state) :
    Records ctx.bestBitset fun i => (ctx.transient.randomValues i).isSome := by
  have hrec := h.recorded .randomValue
  rw [h.valuesComplete hlate] at hrec
  exact hrec

theorem Inv.combinesAgreedValues (h : Inv O ctx) : CombinesAgreedValues O ctx := by
  intro hlate
  have hround := h (RoundState.le_trans (by decide) hlate)
  have hrec := hround.has_eq_isSome hlate
  refine ⟨hrec.2, receivedRandomValues ctx.transient, ?_, hround.final hlate⟩
  apply Matching.forall₂_filter_filterMap
  intro i _
  exact (hrec.1 i).symm

theorem RoundInv.templateBitset (h : RoundInv O ctx)
    (hst : ctx.state = .sendAndWaitForSignedBlocks) :
    ctx.transient.templateBlock.pos.validatorBitset = ctx.bestBitset := by
  have hrecv := h.templateReceived (by rw [hst]; decide)
  exact (h.template (by rw [hrecv]; decide)).2.1

theorem HoldSame.finalBlock_eq {ctx' : Context P} (hsame : HoldSame ctx ctx') (h : Inv O ctx)
    (h' : Inv O ctx') : ctx.transient.finalBlock = ctx'.transient.finalBlock := by
  have hround := h (by rw [hsame.state]; decide)
  have hround' := h' (by rw [hsame.state']; decide)
  have hlate : .sendAndWaitForSignedBlocks <= ctx.state := by rw [hsame.state]; decide
  have hlate' : .sendAndWaitForSignedBlocks <= ctx'.state := by rw [hsame.state']; decide
  have hbest : ctx.bestBitset = ctx'.bestBitset := by
    rw [<- hround.templateBitset hsame.state, <- hround'.templateBitset hsame.state',
      hsame.template]
  have hvals : ctx.transient.randomValues = ctx'.transient.randomValues := by
    funext i
    have hi := (hround.has_eq_isSome hlate).1 i
    have hi' := (hround'.has_eq_isSome hlate').1 i
    rw [<- hbest] at hi'
    cases hhas : has ctx.bestBitset i with
    | true => exact hsame.values i hhas
    | false =>
      have hnone : ctx.transient.randomValues i = none := by simpa [hhas] using hi
      have hnone' : ctx'.transient.randomValues i = none := by simpa [hhas] using hi'
      rw [hnone, hnone']
  rw [hround.final hlate, hround'.final hlate']
  exact withFinalRandomValue_congr hsame.template hvals

theorem Inv.valuesCommittedInRound (h : Inv O ctx) (hbound : RoundBound O Message.Commits ctx) :
    ValuesCommittedInRound O ctx := by
  intro hstart i value hvalue
  have hround := h hstart
  rcases hround.hashCounted i _ (hround.committed i value hvalue) with
    ⟨msg, hmem, hver, hpos, hbody⟩
  exact ⟨msg, hmem, hver, hpos, hbody, (hbound.counted _ _ _ ⟨_, hbody⟩ hmem).1⟩

end

/-! ## Every run -/

/-- In every run a node reveals its value after it holds the agreed hashes, and
nodes that hold the same messages make the same block out of the agreed values.
The values were committed in the round in every run in which no delivered hash of
another round verifies. -/
theorem commitReveal_of_run {O : PosOracles P} {ctx : Context P}
    (hrun : Reachable O AnyMessage ctx) :
    RevealsAfterHashes ctx ∧ CombinesAgreedValues O ctx ∧
      (forall ctx', Reachable O AnyMessage ctx' -> HoldSame ctx ctx' ->
        ctx.transient.finalBlock = ctx'.transient.finalBlock) ∧
      (Reachable O (fun ctx msg => msg.Commits -> ForeignRejected O ctx msg) ctx ->
        ValuesCommittedInRound O ctx) := by
  refine ⟨hrun.inv.revealsAfterHashes, hrun.inv.combinesAgreedValues, ?_, ?_⟩
  · intro ctx' hrun' hsame
    exact hsame.finalBlock_eq hrun.inv hrun'.inv
  · intro hbound
    exact hrun.inv.valuesCommittedInRound hbound.roundBound

/-- Round one of validator zero with the validators one to six.  The hash and the
value of validator one are signed for the round that is given. -/
def revealInputs (signedRound : UInt8) : List (Input Unit) :=
  let hash := fun k => MessageBody.randomValueHash ⟨BitVec.ofNat 256 (41 + k)⟩
  let value := fun k => MessageBody.randomValue ⟨BitVec.ofNat 128 (40 + k)⟩
  turnsAt 1060 4 ++ fromValidators (range' 1 6) 1 (fun _ => .handshake) ++
    turnsAt 1070 2 ++ fromValidators (range' 1 6) 1 (fun _ => .handshakeBitset 127) ++
    turnsAt 1080 1 ++ [.deliver (sampleMessage 11 0 1 (.blockTemplate [1, 127]))] ++
    turnsAt 1081 2 ++ fromValidators [1] signedRound hash ++
    fromValidators (range' 2 5) 1 hash ++
    turnsAt 1082 2 ++ fromValidators [1] signedRound value ++
    fromValidators (range' 2 5) 1 value ++ turnsAt 1083 1

def afterReveal (signedRound : UInt8) : Context Unit :=
  runInputs sampleOracles (revealInputs signedRound) (Context.init Unit)

theorem commitReveal_of_run_sample :
    (afterReveal 1).state = .sendAndWaitForSignedBlocks ∧
      RevealsAfterHashes (afterReveal 1) ∧ CombinesAgreedValues sampleOracles (afterReveal 1) ∧
      ValuesCommittedInRound sampleOracles (afterReveal 1) := by
  have hrun : Reachable sampleOracles (ForeignRejected sampleOracles) (afterReveal 1) :=
    Reachable.init.runInputs (by decide +kernel)
  have hany := hrun.mono fun _ _ _ => (trivial : AnyMessage _ _)
  have hall := commitReveal_of_run hany
  exact ⟨by decide +kernel, hall.1, hall.2.1,
    hall.2.2.2 (hrun.mono fun _ _ hrejected _ => hrejected)⟩

def commitsFor (i : Nat) (round : UInt8) : Action P -> Bool
  | .counted _ _ msg =>
    msg.quorumPosition.toNat == i && msg.round == round && match msg.body with
      | .randomValueHash _ => true
      | _ => false
  | _ => false

/-- The value of validator one that goes into the block of round one is the one it
committed to in round zero. -/
theorem replayedValue_combined :
    exists ctx : Context Unit, Reachable sampleOracles AnyMessage ctx ∧
      ctx.state = .sendAndWaitForSignedBlocks ∧ ctx.round = 1 ∧
      ctx.transient.randomValues ⟨1, by decide⟩ = some ⟨41⟩ ∧
      ¬ ValuesCommittedInRound sampleOracles ctx := by
  have hst : (afterReveal 0).state = .sendAndWaitForSignedBlocks := by decide +kernel
  have hround : (afterReveal 0).round = 1 := by decide +kernel
  have hvalue : (afterReveal 0).transient.randomValues ⟨1, by decide⟩ = some ⟨41⟩ := by
    decide +kernel
  refine ⟨afterReveal 0, Reachable.init.runInputs (allows_anyMessage _ _ _), hst, hround,
    hvalue, ?_⟩
  intro hcomm
  rcases hcomm (by rw [hst]; decide) _ _ hvalue with
    ⟨msg, hmem, _, hpos, hbody, hmsgRound⟩
  have hnone : (afterReveal 0).actions.any (commitsFor 1 1) = false := by decide +kernel
  rw [any_eq_false] at hnone
  exact hnone _ hmem (by simp [commitsFor, hpos, hmsgRound, hround, hbody])

end Beldex.Pos
