import Beldex.Pos.Moves

/-!
# The invariant of a round

While a round is on, the bitset of every stage says exactly whose data is held,
no stage has data before its state is reached, the template carries the agreed
validators, revealed values match the commitments, and the stored signatures
sign the final block.
-/

namespace Beldex.Pos

open Basic Crypto Foundation Bitset Function Transient

variable {P : Type}

/-! ## The invariant -/

/-- Whether the data of a stage is held for a position.  The producer's template
counts at position zero. -/
def Transient.present (transient : Transient P) : Stage -> QuorumArray Bool
  | .handshakes => transient.handshakes
  | .handshakeBitsets => fun i => (transient.handshakeBitsets i).isSome
  | .blockTemplate => fun i =>
    decide (i.val = 0) && (transient.stages .blockTemplate).msgsReceived != 0
  | .randomValueHashes => fun i => (transient.randomValueHashes i).isSome
  | .randomValue => fun i => (transient.randomValues i).isSome
  | .signedBlock => fun i => (transient.signatures i).isSome

/-- The hash at a position came in a verified message that was counted in this
round. -/
def HashCounted (O : PosOracles P) (ctx : Context P) (i : Fin posQuorumNumValidators)
    (hash : Hash) : Prop :=
  exists msg : Message, .counted ctx.topHash ctx.round msg ∈ ctx.actions ∧
    msgSignatureCheck O msg ctx.topHash ctx.quorum = true ∧
    msg.quorumPosition.toNat = i ∧ msg.body = .randomValueHash hash

structure RoundInv (O : PosOracles P) (ctx : Context P) : Prop where
  sizes : verifyPosQuorumSizes ctx.quorum = true
  recorded : forall stage, Records (ctx.stage stage).bitset (ctx.transient.present stage)
  pending : forall stage, ctx.state < stage.roundState ->
    (ctx.stage stage).bitset = 0 ∧ (ctx.stage stage).msgsReceived = 0
  template : (ctx.stage .blockTemplate).msgsReceived ≠ 0 ->
    (ctx.stage .blockTemplate).msgsReceived = 1 ∧
      ctx.transient.templateBlock.pos.validatorBitset = ctx.bestBitset ∧
      has ctx.bestBitset 0 = true
  templateReceived : .sendAndWaitForRandomValueHashes <= ctx.state ->
    (ctx.stage .blockTemplate).msgsReceived = 1
  hashCounted : forall i hash, ctx.transient.randomValueHashes i = some hash ->
    HashCounted O ctx i hash
  hashesComplete : .sendAndWaitForRandomValue <= ctx.state ->
    (ctx.stage .randomValueHashes).bitset = ctx.bestBitset
  revealed : ctx.transient.sendRandomValue.sent = true -> .sendAndWaitForRandomValue <= ctx.state
  committed : forall i value, ctx.transient.randomValues i = some value ->
    ctx.transient.randomValueHashes i = some (O.hashRandomValue value)
  valuesComplete : .sendAndWaitForSignedBlocks <= ctx.state ->
    (ctx.stage .randomValue).bitset = ctx.bestBitset
  final : .sendAndWaitForSignedBlocks <= ctx.state ->
    ctx.transient.finalBlock = withFinalRandomValue O ctx.transient
  signed : forall i signature, ctx.transient.signatures i = some signature ->
    signsFinalBlock O ctx i signature = true

/-- The invariant holds from the start of a round until it is left. -/
def Inv (O : PosOracles P) (ctx : Context P) : Prop :=
  .waitForRound <= ctx.state -> RoundInv O ctx

variable {O : PosOracles P} {ctx : Context P}

theorem Inv.of_left (h : ctx.state < .waitForRound) : Inv O ctx := by
  intro hstart
  exact absurd h (RoundState.not_lt.mpr hstart)

/-! ## A counted message -/

theorem isSome_update {α : Type} (data : QuorumArray (Option α))
    (i j : Fin posQuorumNumValidators) (value : α) :
    (update data i (some value) j).isSome = ((data j).isSome || decide (i = j)) := by
  by_cases hij : i = j
  · subst hij
    simp
  · simp [update_of_ne (Ne.symm hij), hij]

theorem update_true (data : QuorumArray Bool) (i j : Fin posQuorumNumValidators) :
    update data i true j = (data j || decide (i = j)) := by
  by_cases hij : i = j
  · subst hij
    simp
  · simp [update_of_ne (Ne.symm hij), hij]

theorem update_eq_some {α : Type} {data : QuorumArray (Option α)} {i j : Fin posQuorumNumValidators}
    {added value : α} (h : update data i (some added) j = some value) :
    (j = i ∧ value = added) ∨ data j = some value := by
  by_cases hij : j = i
  · subst hij
    rw [update_self] at h
    exact .inl ⟨rfl, (Option.some.inj h).symm⟩
  · rw [update_of_ne hij] at h
    exact .inr h

section Counted

variable {O : PosOracles P} {ctx : Context P} {msg : Message} {stage : Stage}
  {i : Fin posQuorumNumValidators} {transient : Transient P}

theorem stage_countMessage_self (hadds : Adds O ctx i msg.body transient) :
    (countMessage ctx transient stage i msg).stage stage = (ctx.stage stage).count i := by
  unfold countMessage Context.stage
  rw [<- hadds.frame.1, stages_updateStage_self]

theorem stage_countMessage_ne (hadds : Adds O ctx i msg.body transient) {other : Stage}
    (hne : other ≠ stage) :
    (countMessage ctx transient stage i msg).stage other = ctx.stage other := by
  unfold countMessage Context.stage
  rw [<- hadds.frame.1, stages_updateStage_ne _ _ hne]

theorem Admitted.position_eq_zero (h : Admitted O ctx msg stage i) {blob : List UInt8}
    (hbody : msg.body = .blockTemplate blob) : i.val = 0 := by
  rcases msgSignatureCheck_eq_true.mp h.verified with ⟨key, hkey, _⟩
  unfold signerKey at hkey
  rw [hbody] at hkey
  by_cases hzero : msg.quorumPosition = 0
  · rw [<- h.position_eq, hzero]
    rfl
  · simp [hzero] at hkey

theorem present_countMessage (hadm : Admitted O ctx msg stage i)
    (hadds : Adds O ctx i msg.body transient) (other : Stage) (j : Fin posQuorumNumValidators) :
    (countMessage ctx transient stage i msg).transient.present other j =
      (ctx.transient.present other j || (decide (other = stage) && decide (i = j))) := by
  have hstage := hadm.stage_eq
  have hzero := @Admitted.position_eq_zero _ _ _ _ _ _ hadm
  generalize msg.body = body at hadds hstage hzero
  cases hadds with
  | blockTemplate =>
    cases hstage
    have hi : i.val = 0 := hzero rfl
    cases other with
    | blockTemplate =>
      by_cases hj : j.val = 0
      · simp [present, countMessage, updateStage, Fin.ext_iff, hi, hj]
      · simp [present, countMessage, updateStage, Fin.ext_iff, hi, hj, Ne.symm hj]
    | _ => simp [present, countMessage, updateStage]
  | _ =>
    cases hstage
    cases other <;>
      simp [present, countMessage, updateStage, update_true, isSome_update]

theorem RoundInv.absent_of_adds (h : RoundInv O ctx) (hadm : Admitted O ctx msg stage i)
    (hadds : Adds O ctx i msg.body transient) : ctx.transient.present stage i = false := by
  have hstage := hadm.stage_eq
  generalize msg.body = body at hadds hstage
  cases hadds with
  | blockTemplate hmsgs =>
    cases hstage
    have hnone : (ctx.transient.stages .blockTemplate).msgsReceived = 0 := by
      by_contra hne
      exact hmsgs (h.template hne).1
    simp [present, hnone]
  | handshake habs =>
    cases hstage
    exact habs
  | handshakeBitset habs | randomValueHash habs | randomValue _ habs | signedBlock _ habs =>
    cases hstage
    simp [present, habs]

theorem has_bestBitset_of_counted (hlocked : isNotLockedIn ctx stage i = false)
    (hst : stage.roundState <= ctx.state) (hstage : stage.isAfterHandshakeBitsets = true) :
    has ctx.bestBitset i = true := by
  have hafter : RoundState.waitForHandshakeBitsets < ctx.state := by
    refine RoundState.lt_of_lt_of_le ?_ hst
    cases stage with
    | handshakes => cases hstage
    | handshakeBitsets => cases hstage
    | _ => decide
  by_contra hbit
  have hzero := bit_and_eq_zero.mpr (Bool.eq_false_iff.mpr hbit)
  simp [isNotLockedIn, hafter, hstage, hzero] at hlocked

theorem Adds.unchanged {body : MessageBody} (h : Adds O ctx i body transient) :
    (body.stage ≠ some .blockTemplate -> transient.templateBlock = ctx.transient.templateBlock) ∧
    (body.stage ≠ some .randomValueHashes ->
      transient.randomValueHashes = ctx.transient.randomValueHashes) ∧
    (body.stage ≠ some .randomValue -> transient.randomValues = ctx.transient.randomValues) ∧
    (body.stage ≠ some .signedBlock -> transient.signatures = ctx.transient.signatures) := by
  cases h with
  | blockTemplate =>
    exact ⟨fun hne => absurd rfl hne, fun _ => rfl, fun _ => rfl, fun _ => rfl⟩
  | randomValueHash =>
    exact ⟨fun _ => rfl, fun hne => absurd rfl hne, fun _ => rfl, fun _ => rfl⟩
  | randomValue => exact ⟨fun _ => rfl, fun _ => rfl, fun hne => absurd rfl hne, fun _ => rfl⟩
  | signedBlock => exact ⟨fun _ => rfl, fun _ => rfl, fun _ => rfl, fun hne => absurd rfl hne⟩
  | _ => exact ⟨fun _ => rfl, fun _ => rfl, fun _ => rfl, fun _ => rfl⟩

theorem Admitted.stage_ne (h : Admitted O ctx msg stage i) {other : Stage}
    (hne : stage ≠ other) : msg.body.stage ≠ some other := by
  rw [h.stage_eq]
  exact fun heq => hne (Option.some.inj heq)

theorem withFinalRandomValue_congr {transient' : Transient P}
    (htmpl : transient'.templateBlock = transient.templateBlock)
    (hvals : transient'.randomValues = transient.randomValues) :
    withFinalRandomValue O transient' = withFinalRandomValue O transient := by
  unfold withFinalRandomValue receivedRandomValues
  rw [htmpl, hvals]

theorem HashCounted.countMessage {j : Fin posQuorumNumValidators} {hash : Hash}
    (h : HashCounted O ctx j hash) :
    HashCounted O (countMessage ctx transient stage i msg) j hash := by
  rcases h with ⟨counted, hmem, hrest⟩
  exact ⟨counted, List.mem_cons_of_mem _ hmem, hrest⟩

variable (h : RoundInv O ctx) (hadm : Admitted O ctx msg stage i)
  (hadds : Adds O ctx i msg.body transient)

include h hadm hadds

theorem template_countMessage (hlocked : isNotLockedIn ctx stage i = false)
    (hst : stage.roundState <= ctx.state)
    (hmsgs : ((countMessage ctx transient stage i msg).stage .blockTemplate).msgsReceived ≠ 0) :
    ((countMessage ctx transient stage i msg).stage .blockTemplate).msgsReceived = 1 ∧
      transient.templateBlock.pos.validatorBitset = ctx.bestBitset ∧
      has ctx.bestBitset 0 = true := by
  by_cases hstage : stage = .blockTemplate
  · subst hstage
    have hhas := has_bestBitset_of_counted hlocked hst rfl
    have hbody := hadm.stage_eq
    have hzero := @Admitted.position_eq_zero _ _ _ _ _ _ hadm
    rw [stage_countMessage_self hadds]
    generalize msg.body = body at hadds hbody hzero
    cases hadds with
    | blockTemplate hnew _ _ hbitset =>
      have hnone : (ctx.stage .blockTemplate).msgsReceived = 0 := by
        by_contra hne
        exact hnew (h.template hne).1
      refine ⟨by simp [hnone], hbitset, ?_⟩
      rw [hzero rfl] at hhas
      exact hhas
    | _ => cases hbody
  · rw [stage_countMessage_ne hadds (Ne.symm hstage)] at hmsgs ⊢
    rw [hadds.unchanged.1 (hadm.stage_ne hstage)]
    exact h.template hmsgs

theorem hashCounted_countMessage (j : Fin posQuorumNumValidators) (hash : Hash)
    (hhash : transient.randomValueHashes j = some hash) :
    HashCounted O (countMessage ctx transient stage i msg) j hash := by
  have hpos := hadm.position_eq
  cases hbody : msg.body with
  | randomValueHash committed =>
    rw [hbody] at hadds
    cases hadds
    rcases update_eq_some hhash with ⟨rfl, rfl⟩ | hold
    · exact ⟨msg, List.mem_cons_self .., hadm.verified, hpos, hbody⟩
    · exact (h.hashCounted j hash hold).countMessage
  | _ =>
    rw [hadds.unchanged.2.1 (by rw [hbody]; simp [MessageBody.stage])] at hhash
    exact (h.hashCounted j hash hhash).countMessage

omit hadm in
theorem committed_of_adds (j : Fin posQuorumNumValidators) (value : PosRandomValue)
    (hvalue : transient.randomValues j = some value) :
    transient.randomValueHashes j = some (O.hashRandomValue value) := by
  generalize msg.body = body at hadds
  cases hadds with
  | randomValueHash habs =>
    have hold := h.committed j value hvalue
    have hij : j ≠ i := by
      rintro rfl
      rw [habs] at hold
      cases hold
    exact (update_of_ne hij ..).trans hold
  | randomValue hcomm _ =>
    rcases update_eq_some hvalue with ⟨rfl, rfl⟩ | hold
    · exact hcomm
    · exact h.committed j value hold
  | _ => exact h.committed j value hvalue

omit hadm in
theorem signed_of_adds (j : Fin posQuorumNumValidators) (signature : Signature)
    (hsig : transient.signatures j = some signature) :
    signsFinalBlock O ctx j signature = true := by
  generalize msg.body = body at hadds
  cases hadds with
  | signedBlock hsigns _ =>
    rcases update_eq_some hsig with ⟨rfl, rfl⟩ | hold
    · exact hsigns
    · exact h.signed j signature hold
  | _ => exact h.signed j signature hsig

theorem recorded_countMessage (other : Stage) :
    Records ((countMessage ctx transient stage i msg).stage other).bitset
      ((countMessage ctx transient stage i msg).transient.present other) := by
  by_cases heq : other = stage
  · subst heq
    rw [stage_countMessage_self hadds]
    refine (h.recorded other).insert (by decide) i fun j => ?_
    rw [present_countMessage hadm hadds]
    simp
  · have hpres : (countMessage ctx transient stage i msg).transient.present other =
        ctx.transient.present other := by
      funext j
      rw [present_countMessage hadm hadds]
      simp [heq]
    rw [stage_countMessage_ne hadds heq, hpres]
    exact h.recorded other

theorem RoundInv.countMessage (hst : stage.roundState <= ctx.state)
    (hlocked : isNotLockedIn ctx stage i = false) :
    RoundInv O (countMessage ctx transient stage i msg) := by
  rcases hadds.frame with ⟨_, hbest, hfinal, hsend⟩
  have hcompl : stage.isAfterHandshakeBitsets = true ->
      (ctx.stage stage).bitset ≠ ctx.bestBitset := by
    intro hstage hcompl
    have hhas := has_bestBitset_of_counted hlocked hst hstage
    rw [<- hcompl, (h.recorded stage).1 i, h.absent_of_adds hadm hadds] at hhas
    cases hhas
  have htmpl : .sendAndWaitForRandomValueHashes <= ctx.state -> stage ≠ .blockTemplate := by
    rintro hlate rfl
    have hmsgs := template_countMessage h hadm hadds hlocked hst
    rw [stage_countMessage_self hadds, PosWaitStage.msgsReceived_count,
      h.templateReceived hlate] at hmsgs
    exact absurd (hmsgs (by simp)).1 (by simp)
  have hhashes : .sendAndWaitForRandomValue <= ctx.state -> stage ≠ .randomValueHashes := by
    rintro hlate rfl
    exact hcompl rfl (h.hashesComplete hlate)
  have hvals : .sendAndWaitForSignedBlocks <= ctx.state -> stage ≠ .randomValue := by
    rintro hlate rfl
    exact hcompl rfl (h.valuesComplete hlate)
  refine
    { sizes := h.sizes
      recorded := recorded_countMessage h hadm hadds
      pending := ?_
      template := ?_
      templateReceived := ?_
      hashCounted := fun j hash => hashCounted_countMessage h hadm hadds j hash
      hashesComplete := ?_
      revealed := fun hsent => h.revealed (hsend ▸ hsent)
      committed := fun j value => committed_of_adds h hadds j value
      valuesComplete := ?_
      final := ?_
      signed := ?_ }
  · intro other hpend
    have hne : other ≠ stage := by
      rintro rfl
      exact absurd hpend (RoundState.not_lt.mpr hst)
    rw [stage_countMessage_ne hadds hne]
    exact h.pending other hpend
  · intro hmsgs
    rcases template_countMessage h hadm hadds hlocked hst hmsgs with ⟨hone, hbits, hhas⟩
    exact ⟨hone, hbits.trans hbest.symm, (congrArg (has · 0) hbest).trans hhas⟩
  · intro hlate
    rw [stage_countMessage_ne hadds (Ne.symm (htmpl hlate))]
    exact h.templateReceived hlate
  · intro hlate
    rw [stage_countMessage_ne hadds (Ne.symm (hhashes hlate))]
    exact (h.hashesComplete hlate).trans hbest.symm
  · intro hlate
    rw [stage_countMessage_ne hadds (Ne.symm (hvals hlate))]
    exact (h.valuesComplete hlate).trans hbest.symm
  · intro hlate
    have hhashesLate := RoundState.le_trans
      (by decide : RoundState.sendAndWaitForRandomValueHashes <= .sendAndWaitForSignedBlocks) hlate
    calc transient.finalBlock = ctx.transient.finalBlock := hfinal
      _ = withFinalRandomValue O ctx.transient := h.final hlate
      _ = withFinalRandomValue O transient :=
          (withFinalRandomValue_congr
            (hadds.unchanged.1 (hadm.stage_ne (htmpl hhashesLate)))
            (hadds.unchanged.2.2.1 (hadm.stage_ne (hvals hlate)))).symm
  · intro j signature hsig
    have hsigned := signed_of_adds h hadds j signature hsig
    unfold signsFinalBlock at hsigned ⊢
    rw [<- hfinal] at hsigned
    exact hsigned

end Counted

/-! ## The other moves -/

section

variable {O : PosOracles P} {ctx : Context P}

theorem RoundInv.withStages (h : RoundInv O ctx) (stages : Stage -> PosWaitStage)
    (hstages : forall stage, (stages stage).bitset = (ctx.stage stage).bitset ∧
      (stages stage).msgsReceived = (ctx.stage stage).msgsReceived) :
    RoundInv O { ctx with transient := { ctx.transient with stages := stages } } := by
  have hpres : forall stage, ({ ctx.transient with stages := stages } : Transient P).present
      stage = ctx.transient.present stage := by
    intro stage
    cases stage with
    | blockTemplate =>
      funext i
      simp only [present, (hstages .blockTemplate).2]
      rfl
    | _ => rfl
  exact
    { sizes := h.sizes
      recorded := fun stage => by
        have hrec := h.recorded stage
        rw [<- (hstages stage).1, <- hpres stage] at hrec
        exact hrec
      pending := fun stage hpend => by
        have hstage := h.pending stage hpend
        rw [<- (hstages stage).1, <- (hstages stage).2] at hstage
        exact hstage
      template := fun hmsgs => by
        have htmpl := h.template
        rw [<- (hstages .blockTemplate).2] at htmpl
        exact htmpl hmsgs
      templateReceived := fun hlate => (hstages .blockTemplate).2.trans (h.templateReceived hlate)
      hashCounted := h.hashCounted
      hashesComplete := fun hlate =>
        (hstages .randomValueHashes).1.trans (h.hashesComplete hlate)
      revealed := h.revealed
      committed := h.committed
      valuesComplete := fun hlate => (hstages .randomValue).1.trans (h.valuesComplete hlate)
      final := h.final
      signed := h.signed }

theorem RoundInv.updateStage (h : RoundInv O ctx) (stage : Stage)
    (f : PosWaitStage -> PosWaitStage) (hbitset : forall entry, (f entry).bitset = entry.bitset)
    (hmsgs : forall entry, (f entry).msgsReceived = entry.msgsReceived) :
    RoundInv O { ctx with transient := ctx.transient.updateStage stage f } := by
  exact h.withStages _ fun other =>
    ⟨part_updateStage PosWaitStage.bitset ctx.transient stage other f hbitset,
      part_updateStage PosWaitStage.msgsReceived ctx.transient stage other f hmsgs⟩

theorem RoundInv.enqueue (h : RoundInv O ctx) (stage : Stage)
    (i : Fin posQuorumNumValidators) (msg : Message) : RoundInv O (enqueue ctx stage i msg) := by
  unfold Pos.enqueue
  cases (ctx.stage stage).buffer i with
  | empty => exact h.updateStage stage _ (fun _ => rfl) (fun _ => rfl)
  | _ => exact h

theorem RoundInv.handleMessage (h : RoundInv O ctx) (msg : Message) :
    RoundInv O (handleMessage O ctx msg) := by
  have hhandles := handleMessage_handles O ctx msg
  generalize Pos.handleMessage O ctx msg = ctx' at hhandles ⊢
  cases hhandles with
  | dropped => exact h
  | queued _ _ => exact h.enqueue _ _ msg
  | counted hadm hst hlocked hadds =>
    exact h.countMessage hadm hadds hst hlocked

theorem RoundInv.startRound {env : Environment P} {round : UInt8} {quorum : Quorum}
    (hsizes : verifyPosQuorumSizes quorum = true) :
    RoundInv O (startRound env ctx round quorum) where
  sizes := hsizes
  recorded := fun stage => Records.none fun i => by
    cases stage with
    | blockTemplate => simp [Pos.startRound, present, stagesFrom, PosWaitStage.init]
    | _ => rfl
  pending := fun _ _ => ⟨rfl, rfl⟩
  template := fun hmsgs => absurd rfl hmsgs
  templateReceived := fun hlate =>
    absurd hlate (by decide : ¬ RoundState.sendAndWaitForRandomValueHashes <= .waitForRound)
  hashCounted := fun i hash hhash => by cases hhash
  hashesComplete := fun hlate =>
    absurd hlate (by decide : ¬ RoundState.sendAndWaitForRandomValue <= .waitForRound)
  revealed := fun hsent => by cases hsent
  committed := fun i value hvalue => by cases hvalue
  valuesComplete := fun hlate =>
    absurd hlate (by decide : ¬ RoundState.sendAndWaitForSignedBlocks <= .waitForRound)
  final := fun hlate =>
    absurd hlate (by decide : ¬ RoundState.sendAndWaitForSignedBlocks <= .waitForRound)
  signed := fun i signature hsig => by cases hsig

section

variable (h : RoundInv O ctx)
include h

theorem RoundInv.advance {next : RoundState} (hnext : ctx.state <= next)
    (hlast : next <= .sendAndWaitForRandomValueHashes)
    (htmpl : .sendAndWaitForRandomValueHashes <= next ->
      (ctx.stage .blockTemplate).msgsReceived = 1) : RoundInv O { ctx with state := next } :=
  { h with
    pending := fun stage hpend =>
      h.pending stage (Nat.lt_of_le_of_lt hnext hpend)
    templateReceived := htmpl
    hashesComplete := fun hlate => absurd (RoundState.le_trans hlate hlast) (by decide)
    revealed := fun hsent =>
      absurd (RoundState.le_trans (h.revealed hsent) (RoundState.le_trans hnext hlast)) (by decide)
    valuesComplete := fun hlate => absurd (RoundState.le_trans hlate hlast) (by decide)
    final := fun hlate => absurd (RoundState.le_trans hlate hlast) (by decide) }

theorem RoundInv.lockIn (hst : ctx.state = .waitForHandshakeBitsets)
    (bestBitset : UInt16) (bestCount : Nat) :
    RoundInv O { ctx with
      transient := { ctx.transient with bestBitset := bestBitset, bestCount := bestCount } } :=
  { h with
    recorded := fun stage => by
      cases stage with
      | _ => exact h.recorded _
    template := fun hmsgs =>
      absurd (h.pending .blockTemplate (by rw [hst]; decide)).2 hmsgs
    hashesComplete := fun hlate => absurd (hst ▸ hlate) (by decide)
    valuesComplete := fun hlate => absurd (hst ▸ hlate) (by decide) }

theorem RoundInv.withSends (handshakeSent : Bool) (hash : PosSendStage Hash)
    (value : PosSendStage PosRandomValue) (signature : PosSendStage Signature)
    (hrevealed : value.sent = true -> .sendAndWaitForRandomValue <= ctx.state) :
    RoundInv O { ctx with
      transient := { ctx.transient with
        handshakeSent := handshakeSent
        sendRandomValueHash := hash
        sendRandomValue := value
        sendSignature := signature } } :=
  { h with
    recorded := fun stage => by
      cases stage with
      | _ => exact h.recorded _
    revealed := hrevealed }

theorem RoundInv.holdHashes (hst : ctx.state = .sendAndWaitForRandomValueHashes)
    (hall : (ctx.stage .randomValueHashes).bitset = ctx.bestBitset) :
    RoundInv O { ctx with state := .sendAndWaitForRandomValue } :=
  { h with
    pending := fun stage hpend => h.pending stage (Nat.lt_of_le_of_lt
      (by rw [hst]; decide : ctx.state <= .sendAndWaitForRandomValue) hpend)
    templateReceived := fun _ => h.templateReceived (by rw [hst]; decide)
    hashesComplete := fun _ => hall
    revealed := fun _ => Nat.le_refl _
    valuesComplete := fun hlate => absurd hlate
      (by decide : ¬ RoundState.sendAndWaitForSignedBlocks <= .sendAndWaitForRandomValue)
    final := fun hlate => absurd hlate
      (by decide : ¬ RoundState.sendAndWaitForSignedBlocks <= .sendAndWaitForRandomValue) }

theorem RoundInv.signFinalBlock {env : Environment P}
    (hst : ctx.state = .sendAndWaitForRandomValue)
    (hall : (ctx.stage .randomValue).bitset = ctx.bestBitset) :
    RoundInv O (signFinalBlock O env ctx) :=
  { h with
    recorded := fun stage => by
      cases stage with
      | _ => exact h.recorded _
    pending := fun stage hpend => h.pending stage (Nat.lt_of_le_of_lt
      (by rw [hst]; decide : ctx.state <= .sendAndWaitForSignedBlocks) hpend)
    templateReceived := fun _ => h.templateReceived (by rw [hst]; decide)
    hashCounted := fun i hash hhash => by
      rcases h.hashCounted i hash hhash with ⟨msg, hmem, hrest⟩
      exact ⟨msg, List.mem_cons_of_mem _ hmem, hrest⟩
    hashesComplete := fun _ => h.hashesComplete (by rw [hst]; decide)
    revealed := fun _ => (by decide :
      RoundState.sendAndWaitForRandomValue <= .sendAndWaitForSignedBlocks)
    valuesComplete := fun _ => hall
    final := fun _ => rfl
    signed := fun i signature hsig => by
      have hpres : ctx.transient.present .signedBlock i = true :=
        congrArg Option.isSome hsig
      have hpend := h.pending .signedBlock (by rw [hst]; decide)
      rw [<- (h.recorded .signedBlock).1 i, hpend.1, has_zero] at hpres
      cases hpres }

end

end

/-! ## Runs -/

theorem Inv.handleMessage (h : Inv O ctx) (msg : Message) : Inv O (handleMessage O ctx msg) := by
  intro hstart
  rw [(handleMessage_sameRound O ctx msg).state] at hstart
  exact (h hstart).handleMessage msg

theorem Inv.move {env : Environment P} {ctx ctx' : Context P}
    (h : Inv O ctx) (hmove : Move O env ctx ctx') : Inv O ctx' := by
  cases hmove with
  | leave hleft _ => exact Inv.of_left hleft
  | start hsizes => exact fun _ => RoundInv.startRound hsizes
  | processed =>
    intro hstart
    exact (h hstart).updateStage _ _ (fun _ => rfl) (fun _ => rfl)
  | markSent =>
    intro hstart
    exact (h hstart).withSends _ _ ctx.transient.sendRandomValue _ (h hstart).revealed
  | reveal hst =>
    intro hstart
    exact (h hstart).withSends ctx.transient.handshakeSent
      ctx.transient.sendRandomValueHash _ ctx.transient.sendSignature
      fun _ => by rw [hst]; decide
  | advance hnext hlast hstart =>
    intro _
    refine (h hstart).advance (Nat.le_of_lt hnext)
      (RoundState.le_trans hlast (by decide)) fun hlate => ?_
    exact absurd (RoundState.le_trans hlate hlast) (by decide)
  | lockIn hst hcommon hcount hparticipates hnext =>
    rename_i tally next
    intro _
    have hlocked := (h (by rw [hst]; decide)).lockIn hst tally.bestBitset tally.count
    rcases hnext with rfl | rfl
    · exact hlocked.advance
        (by rw [hst]; decide : ctx.state <= .sendBlockTemplate) (by decide)
        fun hlate => absurd hlate (by decide)
    · exact hlocked.advance
        (by rw [hst]; decide : ctx.state <= .waitForBlockTemplate) (by decide)
        fun hlate => absurd hlate (by decide)
  | takeTemplate hst hrecv =>
    rename_i hash value
    intro _
    have hround := h (by rw [hst]; decide)
    have hsends := hround.withSends ctx.transient.handshakeSent hash
      { ctx.transient.sendRandomValue with data := value } ctx.transient.sendSignature
      fun hsent => hround.revealed hsent
    exact hsends.advance (by rw [hst]; decide) (by decide) fun _ => hrecv
  | holdHashes hst hall => exact fun _ => (h (by rw [hst]; decide)).holdHashes hst hall
  | sign hst hall => exact fun _ => (h (by rw [hst]; decide)).signFinalBlock hst hall
  | _ => exact h.handleMessage _

theorem Reachable.inv {delivers : Context P -> Message -> Prop}
    (h : Reachable O delivers ctx) : Inv O ctx :=
  h.invariant (Inv.of_left (by decide : RoundState.nullState < .waitForRound))
    (fun _ msg hinv _ => hinv.handleMessage msg) fun _ _ _ hinv hmove => hinv.move hmove

end Beldex.Pos
