import Beldex.Foundation.Epochs
import Beldex.Pos.Assembly

/-!
# One signature for each round

A node works on one tip of the chain at a time and takes its rounds in order.
Within a tip `progress` grows with every turn, and signing the final block of a
round lifts it to a level of its own.  As long as the chain does not come back to
a tip that it left, the rounds of a top hash are ordered over a whole run.
-/

namespace Beldex.Pos

open Basic Crypto Foundation.Epochs List Context

variable {P : Type}

/-! ## Tips that inputs read -/

def Input.tip? : Input P -> Option Tip
  | .deliver _ => none
  | .turn env => env.tip?

def readings (inputs : List (Input P)) : List Tip :=
  inputs.filterMap Input.tip?

/-! ## Progress within a tip -/

def Failed (ctx : Context P) : Prop :=
  ctx.state = .prepareForRound ∧ ctx.prepareForRound.queueForNextRound = true

/-- How far a node has come with its tip: nowhere, in a round, with its final
block signed, with the round failed, or done with the tip. -/
def progress (ctx : Context P) : Nat :=
  match ctx.state with
  | .nullState => 4 * (posMaxRoundsBeforeNetworkStalled + 1)
  | .waitForNextBlock => 4 * (posMaxRoundsBeforeNetworkStalled + 1)
  | .prepareForRound =>
    if ctx.prepareForRound.queueForNextRound then 4 * ctx.round.toNat + 3 else 0
  | .sendAndWaitForSignedBlocks => 4 * ctx.round.toNat + 2
  | _ => 4 * ctx.round.toNat + 1

theorem progress_le (ctx : Context P) :
    progress ctx <= 4 * (posMaxRoundsBeforeNetworkStalled + 1) := by
  have hround : ctx.round.toNat < 256 := ctx.round.toNat_lt
  unfold progress posMaxRoundsBeforeNetworkStalled
  cases ctx.state with
  | prepareForRound =>
    cases ctx.prepareForRound.queueForNextRound with
    | true =>
      simp only [if_true]
      omega
    | false => simp
  | _ =>
    simp only
    omega

variable {ctx : Context P}

theorem progress_of_prepared (h : Prepared ctx) (hunsig : ctx.state ≠ .sendAndWaitForSignedBlocks) :
    progress ctx = 4 * ctx.round.toNat + 1 := by
  unfold progress
  unfold Prepared at h
  cases hst : ctx.state with
  | nullState | waitForNextBlock | prepareForRound => rw [hst] at h; exact absurd h (by decide)
  | sendAndWaitForSignedBlocks => exact absurd hst hunsig
  | _ => rfl

theorem progress_of_signed (h : ctx.state = .sendAndWaitForSignedBlocks) :
    progress ctx = 4 * ctx.round.toNat + 2 := by
  unfold progress
  rw [h]

theorem progress_of_failed (h : Failed ctx) : progress ctx = 4 * ctx.round.toNat + 3 := by
  unfold progress
  rw [h.1]
  exact if_pos h.2

theorem progress_of_waiting (h : ctx.state = .waitForNextBlock) :
    progress ctx = 4 * (posMaxRoundsBeforeNetworkStalled + 1) := by
  unfold progress
  rw [h]

theorem Prepared.progress_mem (h : Prepared ctx) :
    4 * ctx.round.toNat + 1 <= progress ctx ∧ progress ctx <= 4 * ctx.round.toNat + 2 := by
  by_cases hsign : ctx.state = .sendAndWaitForSignedBlocks
  · rw [progress_of_signed hsign]
    omega
  · rw [progress_of_prepared h hsign]
    omega

/-! ## Choosing a round -/

/-- The round that is due, as an unbounded number: the one after a failed round,
or the one by the clock when it is later. -/
def dueRound (env : Environment P) (ctx : Context P) : Nat :=
  max (if ctx.prepareForRound.queueForNextRound then ctx.round.toNat + 1 else ctx.round.toNat)
    ((env.now - ctx.round0StartTime) / posRoundTime)

variable {env : Environment P} {round : UInt8}

theorem requestedRound_toNat (h : requestedRound env ctx = some round) :
    round.toNat = if ctx.prepareForRound.queueForNextRound then ctx.round.toNat + 1
      else ctx.round.toNat := by
  unfold requestedRound at h
  cases hqueue : ctx.prepareForRound.queueForNextRound with
  | false =>
    simp only [hqueue, Bool.false_eq_true, if_false] at h ⊢
    cases h
    rfl
  | true =>
    simp only [hqueue, if_true] at h ⊢
    split at h
    · cases h
    rename_i hlast
    split at h
    · cases h
    cases h
    -- below the last round the increment of the 8-bit counter is exact
    rw [UInt8.toNat_add]
    exact Nat.mod_eq_of_lt (Nat.add_lt_add_right (not_le.mp hlast) 1)

theorem currentRound_toNat {requested : UInt8} (h : currentRound env ctx requested = some round) :
    round.toNat = max requested.toNat ((env.now - ctx.round0StartTime) / posRoundTime) := by
  unfold currentRound at h
  dsimp only at h
  split at h
  · cases h
  rename_i hlate
  -- up to the last round the cast of the elapsed rounds is exact
  have hcast : (UInt8.ofNat ((env.now - ctx.round0StartTime) / posRoundTime)).toNat =
      (env.now - ctx.round0StartTime) / posRoundTime := by
    exact Nat.mod_eq_of_lt (Nat.lt_succ_of_le (not_lt.mp hlate))
  split at h
  next hlater =>
    cases h
    rw [UInt8.lt_iff_toNat_lt, hcast] at hlater
    rw [hcast, Nat.max_eq_right (le_of_lt hlater)]
  next hlater =>
    cases h
    rw [UInt8.lt_iff_toNat_lt, hcast] at hlater
    rw [Nat.max_eq_left (not_lt.mp hlater)]

theorem chooseRound_toNat {quorum : Quorum}
    (h : chooseRound env ctx = some (round, quorum)) : round.toNat = dueRound env ctx := by
  rcases Option.bind_eq_some_iff.mp h with ⟨requested, hreq, hrest⟩
  rcases Option.bind_eq_some_iff.mp hrest with ⟨current, hcur, hrest'⟩
  rcases Option.bind_eq_some_iff.mp hrest' with ⟨generated, _, hgen⟩
  have hround : round = current := by
    split at hgen
    · cases hgen
      rfl
    · cases hgen
  unfold dueRound
  rw [hround, currentRound_toNat hcur, requestedRound_toNat hreq]

/-! ## One turn -/

/-- What a step that reads a tip, or none, does to the tip, the progress and the
signatures of a context. -/
inductive RoundStep (reading : Option Tip) (ctx ctx' : Context P) : Prop where
  | stay :
      ctx'.tip = ctx.tip -> progress ctx <= progress ctx' -> signedRounds ctx' = signedRounds ctx ->
      RoundStep reading ctx ctx'
  | sign :
      ctx'.tip = ctx.tip -> progress ctx < 4 * ctx.round.toNat + 2 ->
      progress ctx' = 4 * ctx.round.toNat + 2 ->
      signedRounds ctx' = (ctx.topHash, ctx.round) :: signedRounds ctx -> RoundStep reading ctx ctx'
  | newTip :
      reading = some ctx'.tip -> ctx'.tip ≠ ctx.tip -> signedRounds ctx' = signedRounds ctx ->
      RoundStep reading ctx ctx'

section Outcomes

variable {reading : Option Tip} {ctx ready : Context P}

theorem Carries.unchanged (h : Carries ctx ready) : RoundStep reading ctx ready := by
  refine .stay h.tip (le_of_eq ?_) h.signed
  unfold progress Context.round
  rw [h.state, h.prepareForRound]

theorem Carries.goOn {next : Context P} {state : RoundState}
    (h : Carries ctx { next with state := state }) (hctx : Prepared ctx)
    (hunsig : ctx.state ≠ .sendAndWaitForSignedBlocks) (hnext : Prepared next) :
    RoundStep reading ctx next := by
  have hround : next.round = ctx.round := congrArg PrepareForRound.round h.prepareForRound
  refine .stay h.tip ?_ h.signed
  rw [progress_of_prepared hctx hunsig, <- hround]
  exact hnext.progress_mem.1

theorem Carries.fail (h : Carries ctx ready) (hctx : Prepared ctx) :
    RoundStep reading ctx (gotoPreparingForNextRound ready) := by
  refine .stay h.tip ?_ h.signed
  have hfailed : Failed (gotoPreparingForNextRound ready) := ⟨rfl, rfl⟩
  have hround : ready.round = ctx.round := congrArg PrepareForRound.round h.prepareForRound
  have hsame : (gotoPreparingForNextRound ready).round = ready.round := rfl
  rw [progress_of_failed hfailed, hsame, hround]
  exact Nat.le_succ_of_le hctx.progress_mem.2

theorem Carries.stop (h : Carries ctx ready) :
    RoundStep reading ctx (gotoWaitForNextBlockAndClearRoundData ready) := by
  refine .stay h.tip ?_ h.signed
  have hwaiting : (gotoWaitForNextBlockAndClearRoundData ready).state = .waitForNextBlock := rfl
  rw [progress_of_waiting hwaiting]
  exact progress_le ctx

end Outcomes

variable {O : PosOracles P}

theorem Carries.sign {ctx ready : Context P} (h : Carries ctx ready)
    (hst : ctx.state = .sendAndWaitForRandomValue) :
    RoundStep env.tip? ctx (signFinalBlock O env ready) := by
  have hctx : Prepared ctx := .of_state hst (by decide)
  have hunsig : ctx.state ≠ .sendAndWaitForSignedBlocks := by
    rw [hst]
    decide
  have hround : ready.round = ctx.round := congrArg PrepareForRound.round h.prepareForRound
  have htop : ready.topHash = ctx.topHash := congrArg Tip.hash h.tip
  refine .sign h.tip ?_ ?_ ?_
  · rw [progress_of_prepared hctx hunsig]
    exact Nat.lt_succ_self _
  · have hsign : (signFinalBlock O env ready).state = .sendAndWaitForSignedBlocks := rfl
    rw [progress_of_signed hsign, <- hround]
    rfl
  · rw [<- h.signed, <- htop, <- hround]
    rfl

theorem startRound_roundStep {quorum : Quorum}
    (hst : ctx.state = .prepareForRound) (hchoose : chooseRound env ctx = some (round, quorum)) :
    RoundStep env.tip? ctx (startRound env ctx round quorum) := by
  refine .stay rfl ?_ rfl
  have hround : (startRound env ctx round quorum).round.toNat = dueRound env ctx :=
    chooseRound_toNat hchoose
  have hprepared : Prepared (startRound env ctx round quorum) :=
    (by decide : RoundState.waitForRound <= .waitForRound)
  refine le_trans ?_ hprepared.progress_mem.1
  rw [hround]
  unfold progress dueRound
  rw [hst]
  cases ctx.prepareForRound.queueForNextRound with
  | false => simp
  | true =>
    simp only [if_true]
    omega

theorem turn_roundStep (O : PosOracles P) (env : Environment P) (ctx : Context P) :
    RoundStep env.tip? ctx (turn O env ctx) := by
  have houtcome := turn_outcome O env ctx
  generalize turn O env ctx = ctx' at houtcome ⊢
  cases houtcome with
  | stays h => exact h.same.toCarries.unchanged
  | idles =>
    refine .stay rfl ?_ rfl
    have hwaiting : state { ctx with state := .waitForNextBlock } = .waitForNextBlock := rfl
    rw [progress_of_waiting hwaiting]
    exact progress_le ctx
  | takesTip _ hactions htip hnew =>
    exact .newTip htip hnew (congrArg (filterMap Action.signedRound?) hactions)
  | starts hst hchoose => exact startRound_roundStep hst hchoose
  | goesOn h hleft _ hctx hunsig hnext =>
    exact (h.same.toCarries.trans hleft).goOn hctx hunsig hnext
  | signs h hst _ => exact h.same.toCarries.sign hst
  | fails h hleft _ hctx => exact (h.same.toCarries.trans hleft).fail hctx
  | stops h hleft _ => exact (h.same.toCarries.trans hleft).stop

/-! ## Runs -/

def stepInput (O : PosOracles P) (ctx : Context P) : Input P -> Context P
  | .deliver msg => handleMessage O ctx msg
  | .turn env => turn O env ctx

theorem runInputs_cons (O : PosOracles P) (input : Input P) (rest : List (Input P))
    (ctx : Context P) :
    runInputs O (input :: rest) ctx = runInputs O rest (stepInput O ctx input) := by
  cases input with
  | _ => rfl

theorem runInputs_append (O : PosOracles P) (before after : List (Input P)) (ctx : Context P) :
    runInputs O (before ++ after) ctx = runInputs O after (runInputs O before ctx) := by
  induction before generalizing ctx with
  | nil => rfl
  | cons input rest ih =>
    rw [cons_append, runInputs_cons, runInputs_cons]
    exact ih _

theorem readings_cons (input : Input P) (rest : List (Input P)) :
    readings (input :: rest) = input.tip?.toList ++ readings rest := by
  unfold readings
  cases htip : input.tip? with
  | none => rw [filterMap_cons_none htip]; rfl
  | some tip => rw [filterMap_cons_some htip]; rfl

theorem readings_append (before after : List (Input P)) :
    readings (before ++ after) = readings before ++ readings after :=
  filterMap_append

variable {tip : Tip}

theorem hash_ne_null_of_mem_readings {inputs : List (Input P)} (h : tip ∈ readings inputs) :
    tip.hash ≠ nullHash := by
  rcases mem_filterMap.mp h with ⟨input, _, htip⟩
  cases input with
  | deliver msg => cases htip
  | turn env =>
    change (if env.topBlockId = nullHash then none
      else some { height := env.chainHeight, hash := env.topBlockId }) = some tip at htip
    split at htip
    · cases htip
    next hnull =>
      cases htip
      exact hnull

/-- The tips that a run was shown, the one it starts with included. -/
structure RoundRecord (past : List Tip) (ctx : Context P) : Prop where
  read : ctx.tip ∈ past
  -- every signature is behind the run, at the level of its round
  behind : forall topHash round, (topHash, round) ∈ signedRounds ctx ->
    exists tip : Tip, tip.hash = topHash ∧
      Behind past tip (4 * round.toNat + 2) ctx.tip (progress ctx)
  nodup : (signedRounds ctx).Nodup

variable {past : List Tip}

theorem RoundRecord.fresh (h : RoundRecord past ctx)
    (hret : NeverReturns Tip.hash past) (hunsig : progress ctx < 4 * ctx.round.toNat + 2) :
    (ctx.topHash, ctx.round) ∉ signedRounds ctx := by
  intro hmem
  rcases h.behind ctx.topHash ctx.round hmem with ⟨tip, hhash, hbehind⟩
  have hlevel := hbehind.level_le hret hhash
  exact not_lt.mpr hlevel hunsig

theorem stepInput_roundStep (O : PosOracles P) (ctx : Context P) (input : Input P) :
    RoundStep input.tip? ctx (stepInput O ctx input) := by
  cases input with
  | deliver msg => exact (handleMessage_sameRound O ctx msg).toCarries.unchanged
  | turn env => exact turn_roundStep O env ctx

theorem behind_step {reading : Option Tip} {level : Nat} {ctx ctx' : Context P}
    (h : Behind past tip level ctx.tip (progress ctx)) (hread : ctx.tip ∈ past)
    (hstep : RoundStep reading ctx ctx') (hret : NeverReturns Tip.hash (past ++ reading.toList)) :
    Behind (past ++ reading.toList) tip level ctx'.tip (progress ctx') := by
  cases hstep with
  | stay htip hprogress _ =>
    rw [htip]
    exact h.stay hprogress _
  | newTip hnew hne _ =>
    rw [hnew] at hret ⊢
    exact h.move hread hne hret
  | sign htip hunsig hlevel _ =>
    rw [htip]
    refine h.stay ?_ _
    rw [hlevel]
    exact le_of_lt hunsig

theorem RoundRecord.step {reading : Option Tip} {ctx ctx' : Context P} (h : RoundRecord past ctx)
    (hstep : RoundStep reading ctx ctx') (hret : NeverReturns Tip.hash (past ++ reading.toList)) :
    RoundRecord (past ++ reading.toList) ctx' := by
  have hold : forall topHash round, (topHash, round) ∈ signedRounds ctx ->
      exists tip : Tip, tip.hash = topHash ∧ Behind (past ++ reading.toList) tip
        (4 * round.toNat + 2) ctx'.tip (progress ctx') := by
    intro topHash round hmem
    rcases h.behind topHash round hmem with ⟨tip, hhash, hbehind⟩
    exact ⟨tip, hhash, behind_step hbehind h.read hstep hret⟩
  cases hstep with
  | stay htip _ hsign =>
    rw [<- hsign] at hold
    exact ⟨mem_append_left _ (htip ▸ h.read), hold, hsign ▸ h.nodup⟩
  | newTip hread _ hsign =>
    rw [<- hsign] at hold
    refine ⟨mem_append_right _ ?_, hold, hsign ▸ h.nodup⟩
    rw [hread]
    exact mem_singleton_self _
  | sign htip hunsig hlevel hsign =>
    refine ⟨mem_append_left _ (htip ▸ h.read), ?_, ?_⟩
    · intro topHash round hmem
      rw [hsign] at hmem
      rcases mem_cons.mp hmem with heq | hmem'
      · cases heq
        refine ⟨ctx.tip, rfl, ?_⟩
        rw [htip]
        exact Behind.now (le_of_eq hlevel.symm)
      · exact hold topHash round hmem'
    · rw [hsign]
      exact nodup_cons.mpr ⟨h.fresh hret.of_append hunsig, h.nodup⟩

theorem record_of_run (O : PosOracles P) (inputs : List (Input P)) {level : Nat}
    (hrec : RoundRecord past ctx) (hbehind : Behind past tip level ctx.tip (progress ctx))
    (hret : NeverReturns Tip.hash (past ++ readings inputs)) :
    RoundRecord (past ++ readings inputs) (runInputs O inputs ctx) ∧
      Behind (past ++ readings inputs) tip level (runInputs O inputs ctx).tip
        (progress (runInputs O inputs ctx)) := by
  induction inputs generalizing past ctx with
  | nil =>
    change RoundRecord (past ++ []) ctx ∧ Behind (past ++ []) tip level ctx.tip (progress ctx)
    rw [append_nil]
    exact ⟨hrec, hbehind⟩
  | cons input rest ih =>
    rw [readings_cons, <- append_assoc] at hret
    rw [runInputs_cons, readings_cons, <- append_assoc]
    have hstep := stepInput_roundStep O ctx input
    exact ih (hrec.step hstep hret.of_append)
      (behind_step hbehind hrec.read hstep hret.of_append) hret

/-! ## The order of the rounds -/

structure RoundsOrdered (first last : Context P) : Prop where
  neverDecreases : Prepared first -> Prepared last -> first.topHash = last.topHash ->
    first.round <= last.round
  largerAfterFailure : Failed first -> Prepared last -> first.topHash = last.topHash ->
    first.round < last.round
  ended : first.state = .waitForNextBlock -> Prepared last -> first.topHash ≠ last.topHash

theorem roundsOrdered_of_behind {first last : Context P} (hret : NeverReturns Tip.hash past)
    (h : Behind past first.tip (progress first) last.tip (progress last)) :
    RoundsOrdered first last where
  neverDecreases := by
    intro hfirst hlast htop
    have hlevel := h.level_le hret htop
    have hlow := hfirst.progress_mem.1
    have hhigh := hlast.progress_mem.2
    rw [UInt8.le_iff_toNat_le]
    omega
  largerAfterFailure := by
    intro hfirst hlast htop
    have hlevel := h.level_le hret htop
    rw [progress_of_failed hfirst] at hlevel
    have hhigh := hlast.progress_mem.2
    rw [UInt8.lt_iff_toNat_lt]
    omega
  ended := by
    intro hfirst hlast htop
    have hlevel := h.level_le hret htop
    rw [progress_of_waiting hfirst] at hlevel
    have hhigh := hlast.progress_mem.2
    have hround := last.round.toNat_lt
    unfold posMaxRoundsBeforeNetworkStalled at hlevel
    omega

/-- A round that is prepared is the due round, which is in the range of its
representation; when no round is left the node waits for the next block. -/
def NeverWraps (O : PosOracles P) (ctx : Context P) : Prop :=
  forall env, ctx.state = .prepareForRound ->
    (Prepared (turn O env ctx) -> (turn O env ctx).round.toNat = dueRound env ctx ∧
      dueRound env ctx <= posMaxRoundsBeforeNetworkStalled) ∧
    (posMaxRoundsBeforeNetworkStalled < dueRound env ctx ->
      (turn O env ctx).state = .waitForNextBlock ∧ (turn O env ctx).tip = ctx.tip)

theorem neverWraps (O : PosOracles P) (ctx : Context P) : NeverWraps O ctx := by
  intro env hst
  have hturn : turn O env ctx = prepareForRound env ctx := by
    unfold turn
    rw [hst]
  rw [hturn]
  unfold prepareForRound
  cases hchoose : chooseRound env ctx with
  | none =>
    constructor
    · intro hprepared
      exact absurd hprepared (by decide : ¬ RoundState.waitForRound <= RoundState.waitForNextBlock)
    · intro _
      exact ⟨rfl, rfl⟩
  | some choice =>
    rcases choice with ⟨round, quorum⟩
    have hround : round.toNat = dueRound env ctx := chooseRound_toNat hchoose
    have hbound : dueRound env ctx <= posMaxRoundsBeforeNetworkStalled := by
      rw [<- hround]
      exact Nat.le_of_lt_succ round.toNat_lt
    constructor
    · intro _
      exact ⟨hround, hbound⟩
    · intro hlate
      exact absurd hbound (not_le.mpr hlate)

theorem roundRecord_init (P : Type) : RoundRecord [(init P).tip] (init P) where
  read := mem_singleton_self _
  behind := by
    intro topHash round hmem
    cases hmem
  nodup := nodup_nil

/-- In every run during which the chain does not return to a tip that it left, a
node signs one final block for each top hash and round, and its rounds on a top
hash are ordered. -/
theorem signsOncePerRound (O : PosOracles P) (before between : List (Input P))
    (htips : NeverReturns Tip.hash (readings (before ++ between))) :
    (signedRounds (runInputs O (before ++ between) (init P))).Nodup ∧
      RoundsOrdered (runInputs O before (init P)) (runInputs O (before ++ between) (init P)) ∧
      NeverWraps O (runInputs O (before ++ between) (init P)) := by
  have hret : NeverReturns Tip.hash
      ([(init P).tip] ++ readings (before ++ between)) := by
    apply htips.cons_of_fresh
    intro tip hmem
    exact hash_ne_null_of_mem_readings hmem
  rw [readings_append, <- append_assoc] at hret
  rw [runInputs_append]
  have hfirst := record_of_run O before (roundRecord_init P) (Behind.now (le_refl _)) hret.of_append
  have hlast := record_of_run O between hfirst.1 (Behind.now (le_refl _)) hret
  exact ⟨hlast.1.nodup, roundsOrdered_of_behind hret hlast.2, neverWraps O _⟩

/-- A node signs in round zero, the block is refused and round one is prepared. -/
theorem signsOncePerRound_secondRound :
    signedRounds (runInputs sampleOracles (roundInputs 6 6 127 ++ turnsAt 1023 3)
        (init Unit)) = [(sampleTop, 0)] ∧
      Context.round (runInputs sampleOracles (roundInputs 6 6 127 ++ turnsAt 1023 3)
        (init Unit)) = 1 ∧ RoundsOrdered (afterRound 6 6 127)
        (runInputs sampleOracles (roundInputs 6 6 127 ++ turnsAt 1023 3) (init Unit)) := by
  have htips : NeverReturns Tip.hash (readings (roundInputs 6 6 127 ++ turnsAt 1023 3)) := by
    decide +kernel
  refine ⟨by decide +kernel, by decide +kernel, ?_⟩
  exact (signsOncePerRound sampleOracles (roundInputs 6 6 127) (turnsAt 1023 3) htips).2.1

end Beldex.Pos
