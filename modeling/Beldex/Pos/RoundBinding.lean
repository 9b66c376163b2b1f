import Beldex.Pos.Invariant

/-!
# Which round a counted message belongs to

The signature of a message covers the round that the message carries, and
`handleMessage` checks it with that round.  Nothing compares it with the round of
the context, so a message of another round is counted whenever its signature
verifies: a validator that keeps its position from one round of a height to the
next can have its earlier messages replayed.  A block template is not bound to a
top block either, except through the block in it.
-/

namespace Beldex.Pos

open Basic Crypto

variable {P : Type}

/-! ## Counted messages -/

variable (O : PosOracles P) (ctx : Context P)

def Counts (msg : Message) : Prop :=
  exists stage, msg.body.stage = some stage ∧
    ((handleMessage O ctx msg).stage stage).msgsReceived = (ctx.stage stage).msgsReceived + 1

theorem msgsReceived_enqueue (stage other : Stage) (i : Fin posQuorumNumValidators)
    (msg : Message) :
    ((enqueue ctx stage i msg).stage other).msgsReceived = (ctx.stage other).msgsReceived := by
  unfold enqueue
  cases (ctx.stage stage).buffer i with
  | empty =>
    exact part_updateStage PosWaitStage.msgsReceived ctx.transient stage other
      (fun entry => entry.push i msg) fun _ => rfl
  | _ => rfl

variable {msg : Message}

theorem Counts.adds {O : PosOracles P} {ctx : Context P} (h : Counts O ctx msg) :
    msgSignatureCheck O msg ctx.topHash ctx.quorum = true ∧
      (exists i transient, Adds O ctx i msg.body transient) ∧
      .counted ctx.topHash ctx.round msg ∈ (handleMessage O ctx msg).actions := by
  rcases h with ⟨stage, _, hmsgs⟩
  have hhandles := handleMessage_handles O ctx msg
  generalize handleMessage O ctx msg = ctx' at hhandles hmsgs ⊢
  cases hhandles with
  | dropped => exact absurd hmsgs (by simp)
  | queued _ _ =>
    rw [msgsReceived_enqueue] at hmsgs
    exact absurd hmsgs (by simp)
  | counted hadm _ _ hadds =>
    exact ⟨hadm.verified, ⟨_, _, hadds⟩, List.mem_cons_self ..⟩

def SignedFor (topHash : Hash) (round : UInt8) (msg : Message) : Prop :=
  msg.round = round ∧
    (exists key, O.checkSignature (msgSignatureHash topHash msg) key msg.signature = true) ∧
    (msgSignatureHash topHash msg).IsFor O topHash round

/-! ## Messages of other rounds -/

/-- The message carries another round, or a block template on another block. -/
def isForeign (msg : Message) : Bool :=
  msg.round != ctx.round || match msg.body with
    | .blockTemplate blob =>
      match O.parseBlock blob with
      | some block => block.prevId != ctx.topHash
      | none => false
    | _ => false

/-- A message of another round or tip has no signature that verifies now. -/
def ForeignRejected (msg : Message) : Prop :=
  isForeign O ctx msg = true -> msgSignatureCheck O msg ctx.topHash ctx.quorum = false

instance (O : PosOracles P) (ctx : Context P) (msg : Message) :
    Decidable (ForeignRejected O ctx msg) :=
  inferInstanceAs (Decidable (isForeign O ctx msg = true ->
    msgSignatureCheck O msg ctx.topHash ctx.quorum = false))

variable {ctx' : Context P}

theorem isForeign_congr {O : PosOracles P} {ctx : Context P} (htop : ctx'.topHash = ctx.topHash)
    (hround : ctx'.round = ctx.round) : isForeign O ctx' msg = isForeign O ctx msg := by
  unfold isForeign
  rw [htop, hround]

variable {env : Environment P}

theorem isForeign_signedMessage {O : PosOracles P} {ctx : Context P} {body : MessageBody}
    (hbody : forall blob, body ≠ .blockTemplate blob) :
    isForeign O ctx (signedMessage env ctx body) = false := by
  cases body with
  | blockTemplate blob => exact absurd rfl (hbody blob)
  | _ => simp [isForeign, signedMessage]

variable {i : Fin posQuorumNumValidators}

theorem signedFor_of_adds {O : PosOracles P} {ctx : Context P} {transient : Transient P}
    (hver : msgSignatureCheck O msg ctx.topHash ctx.quorum = true)
    (hadds : Adds O ctx i msg.body transient) (hforeign : isForeign O ctx msg = false) :
    SignedFor O ctx.topHash ctx.round msg := by
  rcases msgSignatureCheck_eq_true.mp hver with ⟨key, _, hcheck⟩
  rw [isForeign, Bool.or_eq_false_iff, bne_eq_false_iff_eq] at hforeign
  rcases hforeign with ⟨hround, htmpl⟩
  refine ⟨hround, ⟨key, hcheck⟩, ?_⟩
  unfold msgSignatureHash
  revert hadds htmpl
  cases msg.body with
  | invalid =>
    intro hadds
    cases hadds
  | blockTemplate blob =>
    intro hadds htmpl
    cases hadds with
    | blockTemplate _ hparse _ _ =>
      simp only [hparse, bne_eq_false_iff_eq] at htmpl
      exact ⟨⟨_, hparse, htmpl⟩, hround⟩
  | _ => exact fun _ _ => ⟨rfl, hround⟩

theorem SignedFor.not_foreign {O : PosOracles P} {ctx : Context P}
    (h : SignedFor O ctx.topHash ctx.round msg) : isForeign O ctx msg = false := by
  rcases h with ⟨hround, _, hfor⟩
  unfold msgSignatureHash at hfor
  unfold isForeign
  rw [hround, bne_self_eq_false, Bool.false_or]
  revert hfor
  cases msg.body with
  | blockTemplate blob =>
    rintro ⟨⟨block, hparse, hprev⟩, _⟩
    simp [hparse, hprev]
  | _ => exact fun _ => rfl

/-! ## The invariant -/

/-- The messages of a kind that were counted so far were signed for their round, and those
that wait in the queues are of the current one. -/
structure RoundBound (O : PosOracles P) (kind : Message -> Prop) (ctx : Context P) : Prop where
  counted : forall topHash round msg, kind msg -> .counted topHash round msg ∈ ctx.actions ->
    SignedFor O topHash round msg
  queued : .waitForRound <= ctx.state -> forall stage i msg, kind msg ->
    (ctx.stage stage).buffer i = .received msg -> isForeign O ctx msg = false

section Bound

variable {O : PosOracles P} {kind : Message -> Prop} {ctx : Context P}
  {stage other : Stage} {i : Fin posQuorumNumValidators} {msg : Message}

theorem buffer_enqueue {j : Fin posQuorumNumValidators} {waiting : Message}
    (h : ((enqueue ctx stage i msg).stage other).buffer j = .received waiting) :
    waiting = msg ∨ (ctx.stage other).buffer j = .received waiting := by
  unfold enqueue at h
  cases hslot : (ctx.stage stage).buffer i with
  | empty =>
    rw [hslot] at h
    by_cases heq : other = stage
    · subst heq
      simp only [Context.stage, stages_updateStage_self, PosWaitStage.push] at h
      by_cases hij : j = i
      · subst hij
        rw [Function.update_self] at h
        exact .inl (QueueEntry.received.inj h).symm
      · rw [Function.update_of_ne hij] at h
        exact .inr h
    · simp only [Context.stage, stages_updateStage_ne _ _ heq] at h
      exact .inr h
  | _ =>
    rw [hslot] at h
    exact .inr h

theorem buffer_countMessage {transient : Transient P} (hadds : Adds O ctx i msg.body transient) :
    ((countMessage ctx transient stage i msg).stage other).buffer = (ctx.stage other).buffer := by
  by_cases heq : other = stage
  · subst heq
    rw [stage_countMessage_self hadds, PosWaitStage.buffer_count]
  · rw [stage_countMessage_ne hadds heq]

theorem RoundBound.handleMessage (h : RoundBound O kind ctx)
    (hmsg : kind msg -> ForeignRejected O ctx msg) :
    RoundBound O kind (handleMessage O ctx msg) := by
  have hnotForeign : kind msg -> msgSignatureCheck O msg ctx.topHash ctx.quorum = true ->
      isForeign O ctx msg = false := by
    intro hkind hver
    by_contra hforeign
    rw [hmsg hkind (Bool.eq_true_of_not_eq_false hforeign)] at hver
    cases hver
  have hhandles := handleMessage_handles O ctx msg
  generalize Pos.handleMessage O ctx msg = ctx' at hhandles ⊢
  cases hhandles with
  | dropped => exact h
  | queued hadm hearly =>
    rename_i stage i
    have hsame := enqueue_sameRound ctx stage i msg
    refine ⟨?_, ?_⟩
    · intro topHash round counted hkind hmem
      rw [enqueue_actions] at hmem
      exact h.counted topHash round counted hkind hmem
    · intro hstart other j waiting hkind hwaiting
      rw [isForeign_congr hsame.topHash (congrArg PrepareForRound.round hsame.prepareForRound)]
      rcases buffer_enqueue hwaiting with rfl | hold
      · exact hnotForeign hkind hadm.verified
      · exact h.queued hadm.started other j waiting hkind hold
  | counted hadm _ _ hadds =>
    refine ⟨?_, ?_⟩
    · intro topHash round counted hkind hmem
      rcases List.mem_cons.mp hmem with heq | hold
      · cases heq
        exact signedFor_of_adds hadm.verified hadds (hnotForeign hkind hadm.verified)
      · exact h.counted topHash round counted hkind hold
    · intro hstart other j waiting hkind hwaiting
      rw [buffer_countMessage hadds] at hwaiting
      exact h.queued hstart other j waiting hkind hwaiting

theorem RoundBound.quiet {ctx' : Context P} (h : RoundBound O kind ctx)
    (hcounted : forall topHash round msg, .counted topHash round msg ∈ ctx'.actions ->
      .counted topHash round msg ∈ ctx.actions)
    (hstart : .waitForRound <= ctx'.state -> .waitForRound <= ctx.state)
    (htop : ctx'.topHash = ctx.topHash) (hround : ctx'.round = ctx.round)
    (hstages : ctx'.transient.stages = ctx.transient.stages) : RoundBound O kind ctx' where
  counted := fun topHash round msg hkind hmem =>
    h.counted topHash round msg hkind (hcounted topHash round msg hmem)
  queued := fun hst stage i msg hkind hwaiting => by
    rw [isForeign_congr htop hround]
    apply h.queued (hstart hst) stage i msg hkind
    rw [<- hwaiting]
    exact congrArg (fun stages : Stage -> PosWaitStage => (stages stage).buffer i) hstages.symm

end Bound

theorem waiting_of_markProcessed {ctx : Context P} {stage other : Stage}
    {j : Fin posQuorumNumValidators} {waiting : Message}
    (h : ((markProcessed ctx stage i msg).stage other).buffer j = .received waiting) :
    (ctx.stage other).buffer j = .received waiting := by
  by_cases heq : other = stage
  · subst heq
    simp only [markProcessed, Context.stage, stages_updateStage_self,
      PosWaitStage.markProcessed] at h
    by_cases hij : j = i
    · subst hij
      rw [Function.update_self] at h
      cases h
    · rw [Function.update_of_ne hij] at h
      exact h
  · simp only [markProcessed, Context.stage, stages_updateStage_ne _ _ heq] at h
    exact h

variable {kind : Message -> Prop}

theorem RoundBound.move {O : PosOracles P} {ctx : Context P} (h : RoundBound O kind ctx)
    (hmove : Move O env ctx ctx') : RoundBound O kind ctx' := by
  cases hmove with
  | leave hleft hcounted =>
    refine ⟨fun topHash round msg hkind hmem =>
      h.counted topHash round msg hkind (hcounted topHash round msg hmem), fun hstart => ?_⟩
    exact absurd hleft (RoundState.not_lt.mpr hstart)
  | start hsizes => exact ⟨h.counted, fun _ stage i msg _ hwaiting => by cases hwaiting⟩
  | own hbody =>
    refine h.handleMessage fun _ hforeign => ?_
    rw [isForeign_signedMessage hbody] at hforeign
    cases hforeign
  | queued hwaiting =>
    rename_i stage i msg
    by_cases hleft : ctx.state < .waitForRound
    · rw [handleMessage_of_left hleft]
      exact h
    · refine h.handleMessage fun hkind hforeign => ?_
      rw [h.queued (RoundState.not_lt.mp hleft) stage i msg hkind hwaiting] at hforeign
      cases hforeign
  | processed =>
    rename_i stage i msg
    refine ⟨h.counted, fun hstart other j waiting hkind hwaiting => ?_⟩
    exact h.queued hstart other j waiting hkind (waiting_of_markProcessed hwaiting)
  | advance _ _ hstart => exact h.quiet (fun _ _ _ hmem => hmem) (fun _ => hstart) rfl rfl rfl
  | lockIn hst _ _ _ _ | takeTemplate hst _ | holdHashes hst _ =>
    exact h.quiet (fun _ _ _ hmem => hmem) (fun _ => by rw [hst]; decide) rfl rfl rfl
  | sign hst _ =>
    refine h.quiet (fun topHash round msg hmem => ?_) (fun _ => by rw [hst]; decide) rfl rfl rfl
    rcases List.mem_cons.mp hmem with heq | hold
    · cases heq
    · exact hold
  | _ => exact h.quiet (fun _ _ _ hmem => hmem) (fun hst => hst) rfl rfl rfl

theorem Reachable.roundBound {O : PosOracles P} {ctx : Context P}
    (h : Reachable O (fun ctx msg => kind msg -> ForeignRejected O ctx msg) ctx) :
    RoundBound O kind ctx := by
  have hinit : RoundBound O kind (Context.init P) :=
    { counted := fun _ _ _ _ hmem => absurd hmem List.not_mem_nil
      queued := fun hstart =>
        absurd hstart (by decide : ¬ RoundState.waitForRound <= .nullState) }
  exact h.invariant hinit (fun _ _ hbound hmsg => hbound.handleMessage hmsg)
    fun _ _ _ hbound hmove => hbound.move hmove

/-! ## Every run -/

/-- In every run in which no delivered message of another round or tip verifies,
the messages that are counted were signed for the round and the top block.  A
message that is counted in any case is so signed exactly when it is not foreign. -/
theorem counted_signedFor_of_foreignRejected {O : PosOracles P} {ctx : Context P}
    (hrun : Reachable O (ForeignRejected O) ctx) :
    (forall topHash round msg, .counted topHash round msg ∈ ctx.actions ->
      SignedFor O topHash round msg) ∧ (forall msg, ForeignRejected O ctx msg -> Counts O ctx msg ->
      SignedFor O ctx.topHash ctx.round msg) ∧ forall msg, Counts O ctx msg ->
      (SignedFor O ctx.topHash ctx.round msg <-> isForeign O ctx msg = false) := by
  have hbound : RoundBound O (fun _ => True) ctx :=
    (hrun.mono fun _ _ hrejected _ => hrejected).roundBound
  refine ⟨fun topHash round msg => hbound.counted topHash round msg trivial, ?_, ?_⟩
  · intro msg hmsg hcounts
    exact (hbound.handleMessage fun _ => hmsg).counted _ _ _ trivial hcounts.adds.2.2
  · intro msg hcounts
    rcases hcounts.adds with ⟨hver, ⟨i, transient, hadds⟩, _⟩
    exact ⟨SignedFor.not_foreign, signedFor_of_adds hver hadds⟩

def awaitingHandshakes (now : Nat) : Context Unit :=
  runInputs sampleOracles (turnsAt now 4) (Context.init Unit)

theorem counted_signedFor_handshake :
    SignedFor sampleOracles sampleTop 1 (sampleMessage 1 1 1 .handshake) := by
  have hrun : Reachable sampleOracles (ForeignRejected sampleOracles) (awaitingHandshakes 1060) :=
    Reachable.init.runInputs trivial
  have hmsg : ForeignRejected sampleOracles (awaitingHandshakes 1060)
      (sampleMessage 1 1 1 .handshake) := by
    intro hforeign
    exact absurd hforeign (by decide +kernel)
  have hcounts : Counts sampleOracles (awaitingHandshakes 1060)
      (sampleMessage 1 1 1 .handshake) := ⟨.handshakes, rfl, by decide +kernel⟩
  exact (counted_signedFor_of_foreignRejected hrun).2.1 _ hmsg hcounts

/-- The handshake of validator one for round zero is counted in round one. -/
theorem replayedHandshake_counted :
    exists (ctx : Context Unit) (msg : Message), Reachable sampleOracles AnyMessage ctx ∧
      Counts sampleOracles ctx msg ∧
      msg.signature = sampleSign (sampleKey 1) (.handshake ctx.topHash 1 0) ∧
      msg.round = 0 ∧ ctx.round = 1 :=
  ⟨awaitingHandshakes 1060, sampleMessage 1 1 0 .handshake,
    Reachable.init.runInputs (allows_anyMessage _ _ _),
    ⟨.handshakes, rfl, by decide +kernel⟩, by decide +kernel, rfl, by decide +kernel⟩

end Beldex.Pos
