import Beldex.NodeList.BlockSteps
import Beldex.NodeList.StateChangeVotes

/-!
# The quorum of a state change on alternative chains

The votes of a state change are verified with the quorum of the main chain at its
height and, if that fails, with those of the alternative states of the height.
The loop over the alternative states goes on after a quorum that verifies, so
that the last one decides; and the states are visited in the order of a hash
table, which can be any.
-/

namespace Beldex.NodeList

open Basic Foundation.Fallible List Option

variable {P σ : Type}

section Choice

variable (O : ListOracles P σ) (ctx : BlockContext) (stateChange : StateChange)

def verifiesWith (quorums : QuorumManager) : Bool :=
  match quorums.obligations with
  | some obligations =>
    isAccepted (verifyTxStateChange O stateChange ctx.blockHeight obligations ctx.hf)
  | none => false

def chooseAlternative : Option QuorumManager -> List (UInt64 × QuorumManager) ->
    Option QuorumManager
  | quorums, [] => quorums
  | quorums, (height, altQuorums) :: rest =>
    if height ≠ stateChange.blockHeight then
      chooseAlternative quorums rest
    else if verifiesWith O ctx stateChange altQuorums then
      chooseAlternative (some altQuorums) rest
    else
      chooseAlternative none rest

/-- The quorums that validate a state change.  The obligations quorum of the main chain is
read through a pointer, and nothing comes of a state without one. -/
def chooseQuorums (source : QuorumSource) : Option QuorumManager := do
  let quorums <- source.stored stateChange.blockHeight
  let _ <- quorums.obligations
  if verifiesWith O ctx stateChange quorums then
    some quorums
  else
    chooseAlternative O ctx stateChange none source.alternative

variable {O ctx stateChange} {quorums : QuorumManager}

theorem verifiesWith_iff :
    verifiesWith O ctx stateChange quorums = true <->
      exists obligations, quorums.obligations = some obligations ∧
        isAccepted (verifyTxStateChange O stateChange ctx.blockHeight obligations ctx.hf) =
          true := by
  unfold verifiesWith
  cases quorums.obligations with
  | _ => simp

theorem chooseAlternative_eq (quorums : Option QuorumManager)
    (states : List (UInt64 × QuorumManager)) :
    chooseAlternative O ctx stateChange quorums states =
      match (states.filter fun entry => entry.1 == stateChange.blockHeight).getLast? with
      | none => quorums
      | some last => if verifiesWith O ctx stateChange last.2 then some last.2 else none := by
  induction states generalizing quorums with
  | nil => rfl
  | cons entry rest ih =>
    rcases entry with ⟨height, altQuorums⟩
    unfold chooseAlternative
    by_cases hht : height = stateChange.blockHeight
    · have hfilter : ((height, altQuorums) :: rest).filter
          (fun entry => entry.1 == stateChange.blockHeight) = (height, altQuorums) ::
              rest.filter (fun entry => entry.1 == stateChange.blockHeight) :=
        filter_cons_of_pos (beq_iff_eq.mpr hht)
      rw [if_neg (not_not_intro hht), hfilter, getLast?_cons]
      cases hlast : (rest.filter fun entry => entry.1 == stateChange.blockHeight).getLast? with
      | none =>
        rw [ih, ih, hlast]
        rfl
      | some last =>
        rw [ih, ih, hlast]
        exact ite_self _
    · have hfilter : ((height, altQuorums) :: rest).filter
          (fun entry => entry.1 == stateChange.blockHeight) =
            rest.filter (fun entry => entry.1 == stateChange.blockHeight) :=
        filter_cons_of_neg (fun h => hht (beq_iff_eq.mp h))
      rw [if_pos hht, hfilter]
      exact ih quorums

variable {source : QuorumSource}

theorem chooseQuorums_of_stored (hstored : source.stored stateChange.blockHeight = some quorums)
    (hpres : quorums.obligations.isSome = true) (order : List (UInt64 × QuorumManager)) :
    chooseQuorums O ctx stateChange { source with alternative := order } =
      if verifiesWith O ctx stateChange quorums then some quorums
      else chooseAlternative O ctx stateChange none order := by
  rcases isSome_iff_exists.mp hpres with ⟨obligations, hoblig⟩
  unfold chooseQuorums
  rw [hstored, bind_eq_bind, bind_some, hoblig]
  rfl

def IsTaken (O : ListOracles P σ) (ctx : BlockContext) (stateChange : StateChange)
    (source : QuorumSource) : Prop :=
  exists quorums obligations key, chooseQuorums O ctx stateChange source = some quorums ∧
    quorums.obligations = some obligations ∧
    isAccepted (verifyTxStateChange O stateChange ctx.blockHeight obligations ctx.hf) = true ∧
    obligations.workers[stateChange.masterNodeIndex.toNat]? = some key

theorem isTaken_of_chosen (hchosen : chooseQuorums O ctx stateChange source = some quorums)
    (hver : verifiesWith O ctx stateChange quorums = true) : IsTaken O ctx stateChange source := by
  rcases verifiesWith_iff.mp hver with ⟨obligations, hoblig, hacc⟩
  rcases Obligations.isAccepted_iff.mp hacc with ⟨_, hok⟩
  unfold verifyTxStateChange at hok
  simp only [rejectIf_bind_ok, decide_eq_false_iff_not] at hok
  have hworker := getElem?_eq_getElem (not_le.mp hok.2.2.2.1)
  exact ⟨quorums, obligations, _, hchosen, hoblig, hacc, hworker⟩

/-- If some alternative state of the height verifies a state change, then it is taken in every
order of the alternative states exactly if the main chain has a state of the height and either
this state or every alternative state of the height verifies it. -/
theorem isTaken_everyOrder_iff {source : QuorumSource}
    (hsome : exists entry, entry ∈ source.alternative ∧ entry.1 = stateChange.blockHeight ∧
      verifiesWith O ctx stateChange entry.2 = true) :
    (forall order, order.Perm source.alternative ->
      IsTaken O ctx stateChange { source with alternative := order }) <->
    exists quorums, source.stored stateChange.blockHeight = some quorums ∧
      quorums.obligations.isSome = true ∧ (verifiesWith O ctx stateChange quorums = true ∨
        forall entry, entry ∈ source.alternative -> entry.1 = stateChange.blockHeight ->
          verifiesWith O ctx stateChange entry.2 = true) := by
  constructor
  · intro hall
    rcases hall _ (List.Perm.refl _) with ⟨_, _, _, hchosen, _⟩
    rcases bind_eq_some_iff.mp hchosen with ⟨quorums, hstored, h⟩
    rcases bind_eq_some_iff.mp h with ⟨obligations, hoblig, _⟩
    have hpres := isSome_iff_exists.mpr ⟨obligations, hoblig⟩
    have hstored : source.stored stateChange.blockHeight = some quorums := hstored
    refine ⟨quorums, hstored, hpres, ?_⟩
    by_cases hmain : verifiesWith O ctx stateChange quorums = true
    · exact Or.inl hmain
    · refine Or.inr fun entry hmem hht => ?_
      by_contra hnot
      -- the entry that does not verify comes last
      rcases append_of_mem hmem with ⟨front, back, hsplit⟩
      have hperm : (front ++ back ++ [entry]).Perm source.alternative := by
        rw [hsplit]
        exact (perm_append_singleton entry (front ++ back)).trans perm_middle.symm
      rcases hall _ hperm with ⟨chosen, _, _, hchosen, _⟩
      have hlast : ((front ++ back ++ [entry]).filter fun entry =>
          entry.1 == stateChange.blockHeight).getLast? = some entry := by
        rw [filter_append, filter_cons_of_pos (by simp [hht]), filter_nil,
          getLast?_append, getLast?_singleton]
        rfl
      rw [chooseQuorums_of_stored hstored hpres, if_neg hmain, chooseAlternative_eq,
        hlast] at hchosen
      dsimp only at hchosen
      rw [if_neg hnot] at hchosen
      cases hchosen
  · rintro ⟨quorums, hstored, hpres, hver⟩ order hperm
    have hchoice : chooseQuorums O ctx stateChange { source with alternative := order } = _ :=
      chooseQuorums_of_stored hstored hpres order
    by_cases hmain : verifiesWith O ctx stateChange quorums = true
    · rw [if_pos hmain] at hchoice
      exact isTaken_of_chosen hchoice hmain
    · have hevery := hver.resolve_left hmain
      rw [if_neg hmain, chooseAlternative_eq] at hchoice
      rcases hsome with ⟨entry, hmem, hht, _⟩
      have hne : (order.filter fun entry => entry.1 == stateChange.blockHeight) ≠ [] := by
        refine ne_nil_of_mem (a := entry) (mem_filter.mpr ⟨hperm.mem_iff.mpr hmem, ?_⟩)
        exact beq_iff_eq.mpr hht
      rw [getLast?_eq_getLast_of_ne_nil hne] at hchoice
      have hmemLast := mem_filter.mp (getLast_mem hne)
      have hlast := hevery _ (hperm.mem_iff.mp hmemLast.1) (beq_iff_eq.mp hmemLast.2)
      dsimp only at hchoice
      rw [if_pos hlast] at hchoice
      exact isTaken_of_chosen hchoice hlast

end Choice

/-! ## Two forks at one height -/

def decommissionVotes : StateChange where
  state := .decommission
  blockHeight := 100
  masterNodeIndex := 0
  reasonConsensusAll := 0
  reasonConsensusAny := 0
  votes := Obligations.decommissionBySeven.votes

def tenBlocksLater : BlockContext where
  hf := .hf18Bns
  timestamp := 0
  blockHeight := 110

/-- The main chain has a quorum without members; the forks are alternative states. -/
def forkedAt (forks : List (UInt64 × QuorumManager)) : QuorumSource where
  stored := fun _ => some { obligations := some ⟨[], []⟩ }
  alternative := forks

def votingFork : UInt64 × QuorumManager :=
  (100, { obligations := some Obligations.tenValidators })

def silentFork : UInt64 × QuorumManager :=
  (100, { obligations := some ⟨[], []⟩ })

def threeForks : List (UInt64 × QuorumManager) :=
  [votingFork, (99, silentFork.2),
    (100, { obligations := some { Obligations.tenValidators with workers := [⟨30⟩, ⟨31⟩] } })]

/-- Both forks of the height verify the state change, and it is taken in every order. -/
theorem isTaken_everyOrder_iff_threeForks :
    (forall entry, entry ∈ threeForks -> entry.1 = decommissionVotes.blockHeight ->
      verifiesWith stakeOracles tenBlocksLater decommissionVotes entry.2 = true) ∧
    forall order, order.Perm threeForks -> IsTaken stakeOracles tenBlocksLater decommissionVotes
      { forkedAt threeForks with alternative := order } := by
  have hevery : forall entry, entry ∈ threeForks -> entry.1 = decommissionVotes.blockHeight ->
      verifiesWith stakeOracles tenBlocksLater decommissionVotes entry.2 = true := by
    decide
  have hsome : exists entry, entry ∈ (forkedAt threeForks).alternative ∧
      entry.1 = decommissionVotes.blockHeight ∧
        verifiesWith stakeOracles tenBlocksLater decommissionVotes entry.2 = true :=
    ⟨votingFork, mem_cons_self, rfl, hevery _ mem_cons_self rfl⟩
  exact ⟨hevery, (isTaken_everyOrder_iff hsome).mpr ⟨_, rfl, rfl, Or.inr hevery⟩⟩

theorem isAccepted_iff_words_votingFork : Obligations.verifyTxStateChange Obligations.anySignature
      (Obligations.wordsOf decommissionVotes) 110 Obligations.tenValidators .hf18Bns = .accepted :=
  (Obligations.isAccepted_iff_words (O := stakeOracles) rfl (fun _ _ _ => rfl) (by decide)
    decommissionVotes 110).mp (by decide)

/-- A second fork at the height undoes the choice if it is visited last. -/
theorem silentFork_undoes_choice :
    verifiesWith stakeOracles tenBlocksLater decommissionVotes votingFork.2 = true ∧
    (chooseQuorums stakeOracles tenBlocksLater decommissionVotes
      (forkedAt [silentFork, votingFork])).isSome = true ∧
    chooseQuorums stakeOracles tenBlocksLater decommissionVotes
      (forkedAt [votingFork, silentFork]) = none := by
  decide

end Beldex.NodeList
