import Beldex.Foundation.Command
import Beldex.Token.Ownership
import Beldex.Token.Rewind

/-!
# The two loops over the token operations of a block

A block is checked by one loop and written by another.  The second repeats the
transitions of the first on states that also count their operations, and writes
to the database only behind all of them.
-/

namespace Beldex.Token

open Basic Crypto Foundation Foundation.Fallible Table

variable {P Blob : Type} {codec : TokenCodec P Blob} {db : TokenDb Blob}
  {op : TokenDescriptorOperation P} {s s' next : TokenConsensusState} {id : TokenId}

def TokenConsensusState.bare (s : TokenConsensusState) : TokenConsensusState :=
  { s with opCount := 0, lastOpHash := nullHash }

def pendBlockTokens [DecidableEq P] (O : TokenOracles P) (codec : TokenCodec P Blob)
    (db : TokenDb Blob) (txs : List (Transaction P)) :
    Except String (Table TokenId TokenConsensusState) :=
  run (fun pending tx => run (pendingTokenOperation O codec db tx) pending tx.tokenOperations)
    empty txs

/-! ## The second loop and its database -/

section

variable (codec)

/-- The operations of a block on working copies; the database is read at every new token. -/
def applyTokenOperations : BlockWork -> List (TokenDescriptorOperation P) ->
    Command (TokenDb Blob) BlockWork
  | work, [] => pure work
  | work, tdo :: rest => do
    let applied <- Command.inspect fun db => applyBlockOperation codec db work tdo
    let work <- Command.ofOption applied.toOption
    applyTokenOperations work rest

def setTokenHistories : List (TokenId × TokenConsensusState) -> Command (TokenDb Blob) Unit
  | [] => pure ()
  | (tokenId, state) :: rest => do
    Command.modify? fun db => some ((), db.setTokenHistory tokenId (codec.dumpState state))
    setTokenHistories rest

/-- `apply_tokens_from_block` with the database that it leaves behind, also where it fails. -/
def applyTokensToDb (height : Nat) (txs : List (Transaction P)) : Command (TokenDb Blob) Unit := do
  let work <- applyTokenOperations codec ⟨empty, []⟩ (blockOperations txs)
  setTokenHistories codec work.states.entries
  if work.undo.isEmpty then pure ()
  else Command.modify? fun db => some ((), db.setTokenUndo height (codec.dumpUndo work.undo))

end

theorem applyTokenOperations_eq (ops : List (TokenDescriptorOperation P)) (work : BlockWork) :
    applyTokenOperations codec work ops db =
      ((run (applyBlockOperation codec db) work ops).toOption, db) := by
  induction ops generalizing work with
  | nil => rfl
  | cons op rest ih =>
    unfold run at ih ⊢
    rw [List.foldlM_cons]
    unfold applyTokenOperations
    cases hop : applyBlockOperation codec db work op with
    | error reason =>
      simp only [Command.bind_apply, Command.inspect, Command.ofOption, hop]
      rfl
    | ok next =>
      simp only [Command.bind_apply, Command.inspect, Command.ofOption, hop]
      exact ih next

theorem setTokenHistories_eq (rows : List (TokenId × TokenConsensusState)) (db : TokenDb Blob) :
    setTokenHistories codec rows db = (some (),
      { db with tokenHistories := rows.foldl (fun g entry =>
          Function.update g entry.1 (some (codec.dumpState entry.2))) db.tokenHistories }) := by
  induction rows generalizing db with
  | nil => rfl
  | cons row rest ih => exact ih (db.setTokenHistory row.1 (codec.dumpState row.2))

theorem applyTokensToDb_eq (height : Nat) (txs : List (Transaction P)) :
    applyTokensToDb codec height txs db =
      match applyTokensFromBlock codec db height txs with
      | .ok db' => (some (), db')
      | .error _ => (none, db) := by
  unfold applyTokensToDb applyTokensFromBlock
  rw [Command.bind_apply, applyTokenOperations_eq]
  cases run (applyBlockOperation codec db) ⟨empty, []⟩ (blockOperations txs) with
  | error reason => rfl
  | ok work =>
    change (setTokenHistories codec work.states.entries >>= fun _ => _) db =
      (some (), work.persist codec db height)
    rw [Command.bind_apply, setTokenHistories_eq]
    unfold BlockWork.persist
    cases work.undo.isEmpty with
    | true => rfl
    | false => rfl

/-! ## The two loops side by side -/

theorem applyTokenOperationToState_bare (hbare : s.bare = s'.bare)
    (h : applyTokenOperationToState id op s = .ok next) :
    exists next', applyTokenOperationToState id op s' = .ok next' ∧ next.bare = next'.bare := by
  have hs' : exists count hash, s' = { s with opCount := count, lastOpHash := hash } :=
    ⟨s'.opCount, s'.lastOpHash, by cases s; cases s'; cases hbare; rfl⟩
  rcases hs' with ⟨count, hash, rfl⟩
  refine ⟨{ next with opCount := count, lastOpHash := hash }, ?_, rfl⟩
  unfold applyTokenOperationToState applyRegisterToken applyMintToken applyBurnToken
    applyUpdateToken at *
  simp only [rejectIf_bind_ok] at h ⊢
  refine ⟨h.1, h.2.1, ?_⟩
  replace h := h.2.2
  cases hop : op.operationType with
  | undefined =>
    rw [hop] at h
    cases h
  | _ =>
    revert h
    simp only [hop, rejectIf_bind_ok, within_bind_ok]
    -- The guards read the same fields, one after the other.
    repeat refine And.imp_right ?_
    try refine Exists.imp fun _ => And.imp_right ?_
    rintro ⟨⟩
    rfl

def Agree (pending : Table TokenId TokenConsensusState) (work : BlockWork) : Prop :=
  forall id, (pending.find? id).map TokenConsensusState.bare =
    (work.states.find? id).map TokenConsensusState.bare

variable {work : BlockWork} {pending pending' : Table TokenId TokenConsensusState}

theorem Agree.touch (h : Agree pending work) (hst : stateIn codec db pending id = .ok s) :
    exists s' undo, work.touch codec db id = .ok (s', undo) ∧ s.bare = s'.bare := by
  have hid := h id
  unfold stateIn at hst
  unfold BlockWork.touch
  cases hfind : pending.find? id with
  | none =>
    rw [hfind] at hid hst
    rw [Option.map_eq_none_iff.mp hid.symm]
    exact ⟨s, _, within_bind_ok.mpr ⟨s, hst, rfl⟩, rfl⟩
  | some found =>
    rw [hfind] at hid hst
    cases hst
    rcases Option.map_eq_some_iff.mp hid.symm with ⟨s', hs', hbare⟩
    rw [hs']
    exact ⟨s', _, rfl, hbare.symm⟩

theorem Agree.step [DecidableEq P] {O : TokenOracles P} {tx : Transaction P}
    (hstep : pendingTokenOperation O codec db tx pending op = .ok pending')
    (h : Agree pending work) :
    exists work', applyBlockOperation codec db work op = .ok work' ∧ Agree pending' work' := by
  unfold pendingTokenOperation validateTokenDescriptorOperation applyPending at hstep
  simp only [bind_ok, rejectIf_ok] at hstep
  rcases hstep with ⟨_, hvalid, _, _, s, hst, next, hnext, hpending⟩
  cases hpending
  rcases h.touch hst with ⟨s', undo, htouch, hbare⟩
  rcases applyTokenOperationToState_bare hbare hnext with ⟨next', hnext', hbare'⟩
  refine ⟨_, rejectIf_bind_ok.mpr ⟨?_, bind_ok.mpr ⟨_, htouch,
    within_bind_ok.mpr ⟨next', hnext', rfl⟩⟩⟩, fun k => ?_⟩
  · grind
  · rw [find?_set, find?_set]
    split
    · exact congrArg some hbare'
    · exact h k

/-- A block that passes the loop of its check is written by the second loop, with the states
of the first up to their bookkeeping; a block that is refused by the second writes nothing. -/
theorem twoPhase_agrees [DecidableEq P] (O : TokenOracles P) (codec : TokenCodec P Blob)
    (db : TokenDb Blob) (height : Nat) (txs : List (Transaction P)) :
    (forall pending, pendBlockTokens O codec db txs = .ok pending ->
      exists db', applyTokensToDb codec height txs db = (some (), db') ∧
        forall id, match pending.find? id with
          | some s => exists s', db'.tokenHistories id = some (codec.dumpState s') ∧
              s.bare = s'.bare
          | none => db'.tokenHistories id = db.tokenHistories id) ∧
    ((applyTokensToDb codec height txs db).1 = none ->
      (applyTokensToDb codec height txs db).2 = db) := by
  rw [applyTokensToDb_eq]
  constructor
  · intro pending hpend
    have hempty : Agree empty ⟨empty, []⟩ := fun _ => rfl
    have htx {pending pending' tx work}
        (hrun : run (pendingTokenOperation O codec db tx) pending tx.tokenOperations = .ok pending')
        (h : Agree pending work) := run_simulates Agree.step hrun h
    rcases run_simulates htx hpend hempty with ⟨work, hwork, hagree⟩
    rw [<- run_flatMap] at hwork
    have happly : applyTokensFromBlock codec db height txs = .ok (work.persist codec db height) :=
      bind_ok.mpr ⟨work, hwork, rfl⟩
    rw [happly]
    refine ⟨_, rfl, fun id => ?_⟩
    have hid := hagree id
    rw [persist_tokenHistories, writeAll_apply]
    cases hfind : pending.find? id with
    | none =>
      rw [hfind] at hid
      rw [Option.map_eq_none_iff.mp hid.symm]
    | some s =>
      rw [hfind] at hid
      rcases Option.map_eq_some_iff.mp hid.symm with ⟨s', hs', hbare⟩
      rw [hs']
      exact ⟨s', rfl, hbare.symm⟩
  · cases applyTokensFromBlock codec db height txs with
    | ok db' =>
      intro h
      cases h
    | error reason => exact fun _ => rfl

/-- A transfer and a mint of the same token pass both loops. -/
theorem twoPhase_agrees_transferAndMint :
    exists pending db', pendBlockTokens repeatKeyOracles (plainCodec Int) ownedDb
        [transferTx, formerOwnerMintTx] = .ok pending ∧
      applyTokensToDb (plainCodec Int) 5 [transferTx, formerOwnerMintTx] ownedDb = (some (), db') ∧
      (pending.find? ⟨7⟩).map TokenConsensusState.currentSupply = some 105 ∧
      (db'.tokenUndo 5).isSome = true := by
  have hagrees := twoPhase_agrees repeatKeyOracles (plainCodec Int) ownedDb 5
    [transferTx, formerOwnerMintTx]
  have hpend : exists pending, pendBlockTokens repeatKeyOracles (plainCodec Int) ownedDb
      [transferTx, formerOwnerMintTx] = .ok pending ∧
        (pending.find? ⟨7⟩).map TokenConsensusState.currentSupply = some 105 := ⟨_, rfl, rfl⟩
  rcases hpend with ⟨pending, hpend, hsupply⟩
  rcases hagrees.1 pending hpend with ⟨db', happly, _⟩
  refine ⟨pending, db', hpend, happly, hsupply, ?_⟩
  cases happly
  rfl

end Beldex.Token
