import Beldex.Voting.VotePool

/-!
# Assembling checkpoints

The votes of the pool are verified, and the pool keeps them in the order of their
voters.  What is written as a checkpoint is made of such votes and of what was
stored before, so it verifies in turn.  A checkpoint that replaces one of another
block is made of the votes alone, and may have fewer voters than an earlier one;
that takes a height at which two blocks have enough voters.
-/

namespace Beldex.Voting

open Basic Crypto Foundation Foundation.Fallible Foundation.Ranked Table List QuorumVote

/-! ## Runs -/

inductive CopInput where
  | vote (env : VoteEnvironment) (vote : QuorumVote)
  | removeExpiredVotes (height : UInt64)

variable (O : VoteOracles)

def stepCop (cop : QuorumCop) : CopInput -> QuorumCop
  | .vote env vote => (handleVote O env cop vote).1
  | .removeExpiredVotes height => { cop with pool := removeExpiredVotes cop.pool height }

def runCop (inputs : List CopInput) (cop : QuorumCop) : QuorumCop :=
  inputs.foldl (stepCop O) cop

variable (states : UInt64 -> Option (List PublicKey))

/-- The checkpointing quorums that an input is answered with are those of the chain. -/
def CopInput.QuorumsFrom : CopInput -> Prop
  | .vote env _ => forall height quorum, env.getQuorum .checkpointing height = some quorum ->
      getCheckpointingQuorum states height = some quorum
  | .removeExpiredVotes _ => True

/-- The vote of an input, with its subject, if it verifies. -/
def CopInput.ballot? : CopInput -> Option (VoteSubject × UInt16)
  | .vote env given =>
    match verifyVote O env given with
    | .ok subject => some (subject, given.indexInGroup)
    | .error _ => none
  | .removeExpiredVotes _ => none

def ballots (inputs : List CopInput) : List (VoteSubject × UInt16) :=
  inputs.filterMap (CopInput.ballot? O)

def voters (cast : List (VoteSubject × UInt16)) (subject : VoteSubject) : List UInt16 :=
  ((cast.filter fun ballot => ballot.1 = subject).map Prod.snd).dedup

/-- Enough validators have voted for a checkpoint, at whatever time. -/
def Wins (cast : List (VoteSubject × UInt16)) (height : UInt64) (hash : Hash) : Prop :=
  checkpointMinVotes <= (voters cast (.checkpoint height hash)).length

def Uncontested (cast : List (VoteSubject × UInt16)) : Prop :=
  forall height hash hash', Wins cast height hash -> Wins cast height hash' -> hash = hash'

/-! ## One vote -/

/-- What a vote does: nothing, or it joins the votes on its subject, which may
then make a checkpoint. -/
inductive HandlesVote (O : VoteOracles) (env : VoteEnvironment) (cop : QuorumCop)
    (vote : QuorumVote) : QuorumCop -> Prop where
  | refused : HandlesVote O env cop vote cop
  | obligations {height : UInt64} {workerIndex : UInt16} {state : NewState}
      {votes : List QuorumVote} :
      HandlesVote O env cop vote
        { cop with pool := cop.pool.set (.obligations height workerIndex state) votes }
  | checkpoint {quorum : Quorum} {hash : Hash} {votes : List QuorumVote} :
      verifyVote O env vote = .ok (.checkpoint vote.blockHeight hash) ->
      env.getQuorum .checkpointing vote.blockHeight = some quorum ->
      SignedBy O.checkSignature quorum hash vote.quorumSignature ->
      addVoteToPoolIfUnique (findVotePool cop.pool (.checkpoint vote.blockHeight hash)) vote =
        some votes -> HandlesVote O env cop vote
        (handleCheckpointVote
          { cop with pool := cop.pool.set (.checkpoint vote.blockHeight hash) votes }
          env.currentHeight vote.blockHeight hash votes)

variable {vote : QuorumVote} {hash : Hash}

theorem verifyVoteSignature_checkpointing {O : VoteOracles} {quorum : Quorum}
    (hbody : vote.body = .checkpointing hash) (h : verifyVoteSignature O vote quorum = .ok ()) :
    SignedBy O.checkSignature quorum hash vote.quorumSignature := by
  rcases bind_ok.mp h with ⟨⟨members, outOfBounds⟩, hmembers, hrest⟩
  rcases orReject_bind_ok.mp hrest with ⟨key, hkey, hrest'⟩
  rcases bind_ok.mp hrest' with ⟨signed, hsign, hcheck⟩
  rw [rejectIf_ok, Bool.not_eq_false'] at hcheck
  unfold signedHash at hsign
  rw [hbody] at hsign
  by_cases hgroup : vote.group = .validator
  · rw [hgroup] at hmembers hsign
    cases hmembers
    cases hsign
    exact ⟨key, hkey, hcheck⟩
  · have hother : (vote.group != QuorumGroup.validator) = true := bne_iff_ne.mpr hgroup
    simp [hother] at hsign

theorem verifyVote_eq_ok {O : VoteOracles} {env : VoteEnvironment} {subject : VoteSubject}
    (h : verifyVote O env vote = .ok subject) :
    vote.subject? = some subject ∧
      exists quorum, env.getQuorum vote.body.type vote.blockHeight = some quorum ∧
        verifyVoteSignature O vote quorum = .ok () := by
  rcases bind_ok.mp h with ⟨_, _, hquor⟩
  rcases orReject_bind_ok.mp hquor with ⟨quorum, hget, hsig⟩
  rcases bind_ok.mp hsig with ⟨_, hverify, hsubject⟩
  refine ⟨?_, quorum, hget, hverify⟩
  cases hfound : vote.subject? with
  | none =>
    rw [hfound] at hsubject
    cases hsubject
  | some found =>
    rw [hfound] at hsubject
    cases hsubject
    rfl

theorem handleVote_handlesVote (env : VoteEnvironment) (cop : QuorumCop) (vote : QuorumVote) :
    HandlesVote O env cop vote (handleVote O env cop vote).1 := by
  unfold handleVote
  cases hverify : verifyVote O env vote with
  | error rejection => exact .refused
  | ok subject =>
    rcases verifyVote_eq_ok hverify with ⟨hsubject, quorum, hquor, hsign⟩
    simp only
    cases hadd : addVoteToPoolIfUnique (findVotePool cop.pool subject) vote with
    | none => exact .refused
    | some votes =>
      unfold subject? at hsubject
      cases hbody : vote.body with
      | obligations workerIndex state reason =>
        rw [hbody] at hsubject
        cases hsubject
        exact .obligations
      | checkpointing hash =>
        rw [hbody] at hsubject hquor
        cases hsubject
        exact .checkpoint hverify hquor (verifyVoteSignature_checkpointing hbody hsign) hadd
      | _ =>
        rw [hbody] at hsubject
        cases hsubject

/-! ## What is known of the pool and the checkpoints -/

/-- Votes of distinct members of the quorum that have been cast. -/
structure VerifiedVotes (cast : List (VoteSubject × UInt16)) (height : UInt64) (hash : Hash)
    (votes : List QuorumVote) : Prop where
  ascending : Ascending rank votes
  signed : forall vote, vote ∈ votes -> exists quorum,
    getCheckpointingQuorum states height = some quorum ∧
      SignedBy O.checkSignature quorum hash vote.quorumSignature
  counted : forall vote, vote ∈ votes -> (.checkpoint height hash, vote.indexInGroup) ∈ cast

/-- What signs a stored checkpoint are distinct members of the quorum of its height. -/
def SoundlyStored (checkpoint : Checkpoint) : Prop :=
  forall quorum, getCheckpointingQuorum states checkpoint.height = some quorum ->
    checkpoint.height ≠ exemptHeight -> (checkpoint.signatures.map QuorumSignature.rank).Nodup ∧
      forall signature, signature ∈ checkpoint.signatures ->
        SignedBy O.checkSignature quorum checkpoint.blockHash signature

def NoFewerVoters (later earlier : Checkpoint) : Prop :=
  later.height = earlier.height -> later.blockHash = earlier.blockHash ->
    earlier.signatures.length <= later.signatures.length

/-- What was written for a winner is stored, with no fewer signatures. -/
structure KeepsWinners (cast : List (VoteSubject × UInt16)) (cop : QuorumCop) : Prop where
  won : forall checkpoint, checkpoint ∈ cop.written ->
    Wins cast checkpoint.height checkpoint.blockHash
  kept : forall checkpoint, checkpoint ∈ cop.written -> exists stored,
    cop.checkpoints.find? checkpoint.height = some stored ∧
      stored.blockHash = checkpoint.blockHash ∧
      checkpoint.signatures.length <= stored.signatures.length
  ordered : cop.written.Pairwise NoFewerVoters

structure CopInv (cast : List (VoteSubject × UInt16)) (cop : QuorumCop) : Prop where
  votes : forall height hash votes, cop.pool.find? (.checkpoint height hash) = some votes ->
    VerifiedVotes O states cast height hash votes
  stored : forall height checkpoint, cop.checkpoints.find? height = some checkpoint ->
    checkpoint.height = height ∧ SoundlyStored O states checkpoint
  assembled : forall checkpoint, checkpoint ∈ cop.written -> exists quorum,
    getCheckpointingQuorum states checkpoint.height = some quorum ∧
      Assembled O.checkSignature quorum checkpoint
  winners : Uncontested cast -> KeepsWinners cast cop

variable {cop : QuorumCop}

/-! ## The written checkpoint -/

section

variable {O : VoteOracles} {states : UInt64 -> Option (List PublicKey)}
  {cast : List (VoteSubject × UInt16)} {height : UInt64} {hash : Hash}
  {votes : List QuorumVote} {quorum : Quorum}

theorem VerifiedVotes.insert {added : List QuorumVote} {vote : QuorumVote}
    (h : VerifiedVotes O states cast height hash votes)
    (hquor : getCheckpointingQuorum states height = some quorum)
    (hsign : SignedBy O.checkSignature quorum hash vote.quorumSignature)
    (hcast : (.checkpoint height hash, vote.indexInGroup) ∈ cast)
    (hadd : addVoteToPoolIfUnique votes vote = some added) :
    VerifiedVotes O states cast height hash added := by
  refine ⟨h.ascending.insertUnique hadd, ?_, ?_⟩
  · intro other hother
    rcases (mem_insertUnique hadd other).mp hother with rfl | hold
    · exact ⟨quorum, hquor, hsign⟩
    · exact h.signed other hold
  · intro other hother
    rcases (mem_insertUnique hadd other).mp hother with rfl | hold
    · exact hcast
    · exact h.counted other hold

theorem length_le_of_signedBy {signatures : List QuorumSignature}
    (hnodup : (signatures.map QuorumSignature.rank).Nodup)
    (hsign : forall signature, signature ∈ signatures ->
      SignedBy O.checkSignature quorum hash signature) :
    signatures.length <= quorum.validators.length := by
  apply length_le_of_rank_lt hnodup
  intro signature hsig
  rcases hsign signature hsig with ⟨key, hkey, _⟩
  exact (List.getElem?_eq_some_iff.mp hkey).1

theorem assembled_of_votes (h : VerifiedVotes O states cast height hash votes)
    (hquor : getCheckpointingQuorum states height = some quorum)
    (henough : checkpointMinVotes <= votes.length) :
    Assembled O.checkSignature quorum
      { makeEmptyMasterNodeCheckpoint hash height with
        signatures := votes.map quorumSignature : Checkpoint }.asStored := by
  rcases getCheckpointingQuorum_eq_some hquor with ⟨hintv, hsize⟩
  have hascending : Ascending QuorumSignature.rank (votes.map quorumSignature) :=
    pairwise_map.mpr h.ascending
  have hsign : forall signature, signature ∈ votes.map quorumSignature ->
      SignedBy O.checkSignature quorum hash signature := by
    intro signature hsig
    rcases mem_map.mp hsig with ⟨vote, hvote, rfl⟩
    rcases h.signed vote hvote with ⟨quorum', hquor', hsign⟩
    rw [hquor] at hquor'
    cases hquor'
    exact hsign
  have hlen : checkpointMinVotes <= (votes.map quorumSignature).length := by
    rw [length_map]
    exact henough
  exact ⟨asStored_type hlen, hintv, hascending, hlen,
    le_trans (length_le_of_signedBy hascending.nodup hsign) hsize, hsign⟩

variable {checkpoint merged : Checkpoint}

theorem mergeVotes_eq_some (h : mergeVotes checkpoint votes = some merged) :
    merged = { checkpoint with
      signatures := (mergeUnique QuorumSignature.rank
        (sortByRank QuorumSignature.rank checkpoint.signatures)
        (votes.map quorumSignature)).1 } := by
  unfold mergeVotes at h
  split at h
  · cases h
  split at h
  · cases h
  next signatures hmerge =>
    cases h
    rw [hmerge]

theorem assembled_of_merge (hstored : SoundlyStored O states checkpoint)
    (hexempt : checkpoint.height ≠ exemptHeight)
    (h : VerifiedVotes O states cast checkpoint.height checkpoint.blockHash votes)
    (hquor : getCheckpointingQuorum states checkpoint.height = some quorum)
    (henough : checkpointMinVotes <= votes.length)
    (hmerge : mergeVotes checkpoint votes = some merged) :
    Assembled O.checkSignature quorum merged.asStored ∧
      checkpoint.signatures.length <= merged.signatures.length := by
  rcases getCheckpointingQuorum_eq_some hquor with ⟨hintv, hsize⟩
  rcases hstored quorum hquor hexempt with ⟨hnodup, hsign⟩
  have hperm : (sortByRank QuorumSignature.rank checkpoint.signatures).Perm
      checkpoint.signatures := sortByRank_perm _
  have hmerged := merged_mergeUnique (ascending_sortByRank hnodup) (votes.map quorumSignature)
  rw [mergeVotes_eq_some hmerge]
  generalize (mergeUnique QuorumSignature.rank (sortByRank QuorumSignature.rank
    checkpoint.signatures) (votes.map quorumSignature)).1 = signatures at hmerged ⊢
  have hsign' : forall signature, signature ∈ signatures ->
      SignedBy O.checkSignature quorum checkpoint.blockHash signature := by
    intro signature hsig
    rcases hmerged.mem signature hsig with hold | hadded
    · exact hsign signature (hperm.mem_iff.mp hold)
    · exact (assembled_of_votes h hquor henough).signed signature hadded
  have hvotes : votes.length <= signatures.length := by
    apply length_le_of_ranks_subset h.ascending.nodup
    intro vote hvote
    exact hmerged.ranks vote.quorumSignature (mem_map_of_mem hvote)
  have hlen : checkpoint.signatures.length <= signatures.length := by
    apply length_le_of_ranks_subset hnodup
    intro signature hsig
    exact mem_map_of_mem (hmerged.old signature (hperm.mem_iff.mpr hsig))
  have hmany := le_trans henough hvotes
  refine ⟨⟨asStored_type hmany, hintv, hmerged.ascending, hmany, ?_, hsign'⟩, hlen⟩
  exact le_trans (length_le_of_signedBy hmerged.ascending.nodup hsign') hsize

inductive Makes (checkpoints : CheckpointDb) (height : UInt64) (hash : Hash)
    (votes : List QuorumVote) : Checkpoint -> Prop where
  | merge {stored merged : Checkpoint} :
      checkpoints.find? height = some stored -> stored.blockHash = hash ->
      mergeVotes stored votes = some merged -> Makes checkpoints height hash votes merged
  | new :
      (forall stored, checkpoints.find? height = some stored -> stored.blockHash ≠ hash) ->
      Makes checkpoints height hash votes
        { makeEmptyMasterNodeCheckpoint hash height with
          signatures := votes.map quorumSignature }

theorem assembleCheckpoint_makes {checkpoints : CheckpointDb} {currentHeight : UInt64}
    (h : assembleCheckpoint checkpoints currentHeight height hash votes = some checkpoint) :
    Makes checkpoints height hash votes checkpoint := by
  have hnew : forall made, (if height < currentHeight then
      some { makeEmptyMasterNodeCheckpoint hash height with
        signatures := votes.map quorumSignature }
      else none) = some made ->
      (forall stored, checkpoints.find? height = some stored -> stored.blockHash ≠ hash) ->
      Makes checkpoints height hash votes made := by
    intro made hmade hother
    split at hmade
    · cases hmade
      exact .new hother
    · cases hmade
  unfold assembleCheckpoint at h
  cases hfind : checkpoints.find? height with
  | none =>
    simp only [hfind] at h
    apply hnew checkpoint h
    intro stored hstored
    rw [hfind] at hstored
    cases hstored
  | some stored =>
    simp only [hfind] at h
    split at h
    next hhash =>
      exact .merge hfind hhash h
    next hhash =>
      apply hnew checkpoint h
      intro other hother
      rw [hfind] at hother
      cases hother
      exact hhash

theorem handleCheckpointVote_cases (cop : QuorumCop) (currentHeight height : UInt64)
    (hash : Hash) (votes : List QuorumVote) :
    handleCheckpointVote cop currentHeight height hash votes = cop ∨ exists checkpoint,
        handleCheckpointVote cop currentHeight height hash votes = updateCheckpoint cop checkpoint ∧
        checkpointMinVotes <= votes.length ∧ checkpoint.height ≠ exemptHeight ∧
        Makes cop.checkpoints height hash votes checkpoint := by
  fun_cases handleCheckpointVote cop currentHeight height hash votes with
  | case4 hfew checkpoint hassemble hexempt =>
    exact .inr ⟨checkpoint, rfl, not_lt.mp hfew, hexempt, assembleCheckpoint_makes hassemble⟩
  | _ => exact .inl rfl

variable {cop : QuorumCop}

theorem wins_of_votes (h : VerifiedVotes O states cast height hash votes)
    (henough : checkpointMinVotes <= votes.length) : Wins cast height hash := by
  refine le_trans henough (@length_le_of_ranks_subset _ _ _ _ UInt16.toNat _ h.ascending.nodup ?_)
  intro vote hvote
  have hvoter : vote.indexInGroup ∈ voters cast (.checkpoint height hash) := by
    rw [voters, mem_dedup, mem_map]
    exact ⟨_, mem_filter.mpr ⟨h.counted vote hvote, decide_eq_true rfl⟩, rfl⟩
  exact mem_map_of_mem hvoter

theorem subject_of_wins (h : Wins cast height hash) :
    .checkpoint height hash ∈ cast.map Prod.fst := by
  rcases exists_mem_of_length_pos (lt_of_lt_of_le (by decide) h) with ⟨voter, hvoter⟩
  rw [voters, mem_dedup, mem_map] at hvoter
  rcases hvoter with ⟨ballot, hballot, _⟩
  rw [mem_filter, decide_eq_true_eq] at hballot
  exact mem_map.mpr ⟨ballot, hballot.1, hballot.2⟩

/-- Nothing of another block was written at the height, so that the stored checkpoint has all
the signatures of those that were written before. -/
theorem KeepsWinners.write (h : KeepsWinners cast cop) (huncontested : Uncontested cast)
    (hwins : Wins cast checkpoint.height checkpoint.blockHash)
    (hstored : forall stored, cop.checkpoints.find? checkpoint.height = some stored ->
      stored.blockHash = checkpoint.blockHash ->
      stored.signatures.length <= checkpoint.signatures.length) :
    KeepsWinners cast (updateCheckpoint cop checkpoint) := by
  have hearlier : forall earlier, earlier ∈ cop.written -> earlier.height = checkpoint.height ->
      earlier.blockHash = checkpoint.blockHash ∧
        earlier.signatures.length <= checkpoint.signatures.length := by
    intro earlier hmem hht
    have hwon := h.won earlier hmem
    rcases h.kept earlier hmem with ⟨stored, hfind, hhash, hlen⟩
    rw [hht] at hwon hfind
    have hsame := huncontested _ _ _ hwon hwins
    exact ⟨hsame, le_trans hlen (hstored stored hfind (hhash.trans hsame))⟩
  refine ⟨forall_mem_cons.mpr ⟨hwins, h.won⟩, forall_mem_cons.mpr ⟨?_, ?_⟩, ?_⟩
  · exact ⟨_, find?_set_self _ _ _, rfl, le_refl _⟩
  · intro earlier hmem
    by_cases hht : earlier.height = checkpoint.height
    · rcases hearlier earlier hmem hht with ⟨hhash, hlen⟩
      refine ⟨checkpoint.asStored, ?_, hhash.symm, hlen⟩
      rw [hht]
      exact find?_set_self _ _ _
    · rcases h.kept earlier hmem with ⟨stored, hfind, hkept⟩
      refine ⟨stored, ?_, hkept⟩
      exact (find?_set_of_ne _ _ hht).trans hfind
  · refine pairwise_cons.mpr ⟨?_, h.ordered⟩
    intro earlier hmem hht _
    exact (hearlier earlier hmem hht.symm).2

variable (h : CopInv O states cast cop)
include h

theorem CopInv.write (hquor : getCheckpointingQuorum states checkpoint.height = some quorum)
    (hassembled : Assembled O.checkSignature quorum checkpoint.asStored)
    (hwins : Wins cast checkpoint.height checkpoint.blockHash)
    (hstored : forall stored, cop.checkpoints.find? checkpoint.height = some stored ->
      stored.blockHash = checkpoint.blockHash ->
      stored.signatures.length <= checkpoint.signatures.length) :
    CopInv O states cast (updateCheckpoint cop checkpoint) where
  votes := h.votes
  stored := by
    intro height stored hstored
    rcases find?_set_cases hstored with ⟨heq, rfl⟩ | ⟨_, hstored⟩
    · refine ⟨heq.symm, ?_⟩
      intro quorum' hquor' _
      change getCheckpointingQuorum states checkpoint.height = some quorum' at hquor'
      rw [hquor] at hquor'
      cases hquor'
      exact ⟨hassembled.ascending.nodup, hassembled.signed⟩
    · exact h.stored height stored hstored
  assembled := forall_mem_cons.mpr ⟨⟨quorum, hquor, hassembled⟩, h.assembled⟩
  winners := fun huncontested =>
    (h.winners huncontested).write huncontested hwins hstored

theorem CopInv.setPool {pool : VotingPool}
    (hvotes : forall height hash votes, pool.find? (.checkpoint height hash) = some votes ->
      VerifiedVotes O states cast height hash votes) :
    CopInv O states cast { cop with pool := pool } :=
  { h with
    votes := hvotes
    winners := fun huncontested => { h.winners huncontested with } }

theorem CopInv.setVotes (subject : VoteSubject)
    (hvotes : forall height hash, subject = .checkpoint height hash ->
      VerifiedVotes O states cast height hash votes) :
    CopInv O states cast { cop with pool := cop.pool.set subject votes } := by
  refine h.setPool ?_
  intro height hash found hfound
  rcases find?_set_cases hfound with ⟨heq, rfl⟩ | ⟨_, hfound⟩
  · exact hvotes height hash heq.symm
  · exact h.votes height hash found hfound

theorem CopInv.findVotePool (height : UInt64) (hash : Hash) :
    VerifiedVotes O states cast height hash (findVotePool cop.pool (.checkpoint height hash)) := by
  unfold Voting.findVotePool
  cases hfind : cop.pool.find? (.checkpoint height hash) with
  | none =>
    have hnone {vote : QuorumVote} : vote ∉ [] := not_mem_nil
    exact ⟨.nil, fun _ hvote => absurd hvote hnone, fun _ hvote => absurd hvote hnone⟩
  | some votes => exact h.votes height hash votes hfind

theorem CopInv.removeExpiredVotes (height : UInt64) :
    CopInv O states cast { cop with pool := removeExpiredVotes cop.pool height } := by
  refine h.setPool ?_
  intro height' hash votes hfind
  exact h.votes height' hash votes (find?_restrict_eq_some.mp hfind).2

/-- What is made of enough votes is assembled, and has no fewer signatures than a stored
checkpoint of the block. -/
theorem CopInv.makes (hver : VerifiedVotes O states cast height hash votes)
    (hquor : getCheckpointingQuorum states height = some quorum)
    (henough : checkpointMinVotes <= votes.length) (hexempt : checkpoint.height ≠ exemptHeight)
    (hmakes : Makes cop.checkpoints height hash votes checkpoint) :
    checkpoint.height = height ∧ checkpoint.blockHash = hash ∧
      Assembled O.checkSignature quorum checkpoint.asStored ∧
      forall stored, cop.checkpoints.find? height = some stored -> stored.blockHash = hash ->
        stored.signatures.length <= checkpoint.signatures.length := by
  cases hmakes with
  | @merge stored _ hfind hhash hmerge =>
    rcases h.stored _ _ hfind with ⟨rfl, hstored⟩
    cases hhash
    have hmerged := mergeVotes_eq_some hmerge
    have hht : checkpoint.height = stored.height := by
      rw [hmerged]
    rw [hht] at hexempt
    rcases assembled_of_merge hstored hexempt hver hquor henough hmerge with
      ⟨hassembled, hlen⟩
    refine ⟨hht, by rw [hmerged], hassembled, ?_⟩
    intro found hfound _
    rw [hfind] at hfound
    cases hfound
    exact hlen
  | new hother =>
    refine ⟨rfl, rfl, assembled_of_votes hver hquor henough, ?_⟩
    intro stored hfind hhash
    exact absurd hhash (hother stored hfind)

theorem CopInv.handleVote {env : VoteEnvironment} {vote : QuorumVote}
    (hquorums : forall height quorum, env.getQuorum .checkpointing height = some quorum ->
      getCheckpointingQuorum states height = some quorum)
    (hcast : forall ballot, (CopInput.vote env vote).ballot? O = some ballot -> ballot ∈ cast) :
    CopInv O states cast (handleVote O env cop vote).1 := by
  have hhandles := handleVote_handlesVote O env cop vote
  generalize (Voting.handleVote O env cop vote).1 = cop' at hhandles ⊢
  cases hhandles with
  | refused => exact h
  | obligations => exact h.setVotes _ fun height hash heq => by cases heq
  | @checkpoint quorum hash votes hverify hget hsign hadd =>
    have hquor := hquorums _ _ hget
    have hballot : (.checkpoint vote.blockHeight hash, vote.indexInGroup) ∈ cast := by
      apply hcast
      simp only [CopInput.ballot?, hverify]
    have hver := (h.findVotePool vote.blockHeight hash).insert hquor hsign hballot hadd
    have hadded : CopInv O states cast
        { cop with pool := cop.pool.set (.checkpoint vote.blockHeight hash) votes } := by
      apply h.setVotes
      intro height hash' heq
      cases heq
      exact hver
    rcases handleCheckpointVote_cases
        { cop with pool := cop.pool.set (.checkpoint vote.blockHeight hash) votes }
        env.currentHeight vote.blockHeight hash votes with
      hsame | ⟨checkpoint, hwrite, henough, hexempt, hmakes⟩
    · rw [hsame]
      exact hadded
    · rw [hwrite]
      rcases h.makes hver hquor henough hexempt hmakes with ⟨hht, hhash, hassembled, hstored⟩
      rw [<- hht, <- hhash] at hver hstored
      exact hadded.write (hht ▸ hquor) hassembled (wins_of_votes hver henough) hstored

end

/-! ## Whole runs -/

def QuorumCop.start (checkpoints : CheckpointDb) : QuorumCop where
  pool := empty
  checkpoints := checkpoints
  written := []

def StoredVerified (checkpoints : CheckpointDb) : Prop :=
  forall height checkpoint, checkpoints.find? height = some checkpoint ->
    checkpoint.height = height ∧
      forall quorum, getCheckpointingQuorum states height = some quorum -> exists hfVersion,
          verifyCheckpoint O.checkSignature hfVersion checkpoint quorum = true

/-- Every written checkpoint is assembled of verified votes and verifies. -/
def WritesAssembled (cop : QuorumCop) : Prop :=
  forall checkpoint, checkpoint ∈ cop.written -> exists quorum,
    getCheckpointingQuorum states checkpoint.height = some quorum ∧
      Assembled O.checkSignature quorum checkpoint ∧
      forall hfVersion, verifyCheckpoint O.checkSignature hfVersion checkpoint quorum = true

variable {O} {states} {cast : List (VoteSubject × UInt16)}

theorem copInv_start {checkpoints : CheckpointDb} (h : StoredVerified O states checkpoints) :
    CopInv O states cast (QuorumCop.start checkpoints) where
  votes := by
    intro height hash votes hfind
    cases hfind
  stored := by
    intro height checkpoint hfind
    rcases h height checkpoint hfind with ⟨hht, hver⟩
    refine ⟨hht, ?_⟩
    intro quorum hquor hexempt
    rw [hht] at hquor
    rcases hver quorum hquor with ⟨hfVersion, hverify⟩
    exact verifyCheckpoint_signed hexempt hverify
  assembled := by
    intro checkpoint hmem
    cases hmem
  winners := by
    intro _
    have hnone {checkpoint : Checkpoint} : checkpoint ∉ [] := not_mem_nil
    exact ⟨fun _ hmem => absurd hmem hnone, fun _ hmem => absurd hmem hnone, .nil⟩

theorem CopInv.step (h : CopInv O states cast cop) {input : CopInput}
    (hquorums : input.QuorumsFrom states)
    (hcast : forall ballot, input.ballot? O = some ballot -> ballot ∈ cast) :
    CopInv O states cast (stepCop O cop input) := by
  cases input with
  | vote env vote => exact h.handleVote hquorums hcast
  | removeExpiredVotes height => exact h.removeExpiredVotes height

theorem CopInv.run {inputs : List CopInput} (h : CopInv O states cast cop)
    (hquorums : forall input, input ∈ inputs -> input.QuorumsFrom states)
    (hcast : forall input, input ∈ inputs ->
      forall ballot, input.ballot? O = some ballot -> ballot ∈ cast) :
    CopInv O states cast (runCop O inputs cop) := by
  induction inputs generalizing cop with
  | nil => exact h
  | cons input rest ih =>
    rw [forall_mem_cons] at hquorums hcast
    exact ih (h.step hquorums.1 hcast.1) hquorums.2 hcast.2

theorem CopInv.writesAssembled (h : CopInv O states cast cop) : WritesAssembled O states cop := by
  intro checkpoint hwritten
  rcases h.assembled checkpoint hwritten with ⟨quorum, hquor, hassembled⟩
  exact ⟨quorum, hquor, hassembled, hassembled.verifies (getCheckpointingQuorum_eq_some hquor).2⟩

/-- From an empty vote pool, over every run of votes and expiries, the written checkpoints
verify.  If no two blocks of a height have enough voters in the run, a later one for the same
block does not have fewer voters. -/
theorem checkpointAssembly_of_run (O : VoteOracles) (states : UInt64 -> Option (List PublicKey))
    (checkpoints : CheckpointDb) (hstored : StoredVerified O states checkpoints)
    (inputs : List CopInput) (hquorums : forall input, input ∈ inputs -> input.QuorumsFrom states) :
    WritesAssembled O states (runCop O inputs (QuorumCop.start checkpoints)) ∧
      (Uncontested (ballots O inputs) ->
        (runCop O inputs (QuorumCop.start checkpoints)).written.Pairwise NoFewerVoters) := by
  have hcast : forall input, input ∈ inputs -> forall ballot, input.ballot? O = some ballot ->
      ballot ∈ ballots O inputs := by
    intro input hinput ballot hballot
    exact mem_filterMap.mpr ⟨input, hinput, hballot⟩
  have hinv := (copInv_start hstored).run hquorums hcast
  exact ⟨hinv.writesAssembled, fun huncontested => (hinv.winners huncontested).ordered⟩

/-! ## Runs of twenty validators -/

instance (later earlier : Checkpoint) : Decidable (NoFewerVoters later earlier) :=
  inferInstanceAs (Decidable (_ -> _ -> _))

def keyAndHashOracles : VoteOracles where
  checkSignature := namesKeyAndHash
  makeStateChangeVoteHash _ _ _ := nullHash

/-- The state of height one, which has the quorum of height twelve. -/
def stateOfHeightOne (height : UInt64) : Option (List PublicKey) :=
  if height = 1 then some twentyValidators.validators else none

def voteAtTwelve (hash : Hash) (n : Nat) : QuorumVote where
  blockHeight := 12
  group := .validator
  indexInGroup := UInt16.ofNat n
  signature := { c := ⟨BitVec.ofNat 256 (100 + n)⟩, r := ⟨hash.bits⟩ }
  body := .checkpointing hash

def heightTwenty : VoteEnvironment where
  latestHeight := 20
  getQuorum _ height := getCheckpointingQuorum stateOfHeightOne height
  currentHeight := 20
  acceptsStateChange _ := true

def firstVote (count : Nat) (hash : Hash) : List CopInput :=
  (range count).map fun n => .vote heightTwenty (voteAtTwelve hash n)

theorem firstVote_quorumsFrom (count : Nat) (hash : Hash) (input : CopInput)
    (h : input ∈ firstVote count hash) : input.QuorumsFrom stateOfHeightOne := by
  rcases mem_map.mp h with ⟨n, _, rfl⟩
  intro height quorum hquor
  exact hquor

/-- Validators vote for one hash and for another, the pool is expired, and validators vote for
the first hash again. -/
def votesAroundExpiry (first second again : Nat) : List CopInput :=
  firstVote first ⟨1⟩ ++ firstVote second ⟨2⟩ ++ [.removeExpiredVotes 11] ++ firstVote again ⟨1⟩

theorem votesAroundExpiry_quorumsFrom (first second again : Nat) (input : CopInput)
    (h : input ∈ votesAroundExpiry first second again) : input.QuorumsFrom stateOfHeightOne := by
  rcases mem_append.mp h with hbef | hlast
  · rcases mem_append.mp hbef with hvotes | hexpire
    · rcases mem_append.mp hvotes with hfirst | hsecond
      · exact firstVote_quorumsFrom first ⟨1⟩ input hfirst
      · exact firstVote_quorumsFrom second ⟨2⟩ input hsecond
    · rw [mem_singleton.mp hexpire]
      trivial
  · exact firstVote_quorumsFrom again ⟨1⟩ input hlast

def oneWinner : List CopInput := votesAroundExpiry 14 5 16

def copAfter (inputs : List CopInput) : QuorumCop :=
  runCop keyAndHashOracles inputs (QuorumCop.start empty)

theorem oneWinner_uncontested : Uncontested (ballots keyAndHashOracles oneWinner) := by
  have hwinner : forall subject, subject ∈ (ballots keyAndHashOracles oneWinner).map Prod.fst ->
      checkpointMinVotes <= (voters (ballots keyAndHashOracles oneWinner) subject).length ->
        subject = .checkpoint 12 ⟨1⟩ := by
    decide +kernel
  intro height hash hash' hwins hwins'
  cases hwinner _ (subject_of_wins hwins) hwins
  cases hwinner _ (subject_of_wins hwins') hwins'
  rfl

theorem checkpointAssembly_of_run_expiry :
    (copAfter oneWinner).written.map (fun checkpoint => checkpoint.signatures.length) =
        [16, 15, 14, 13] ∧
      WritesAssembled keyAndHashOracles stateOfHeightOne (copAfter oneWinner) ∧
      Uncontested (ballots keyAndHashOracles oneWinner) ∧
      (copAfter oneWinner).written.Pairwise NoFewerVoters := by
  have hsound := checkpointAssembly_of_run keyAndHashOracles stateOfHeightOne empty
    (fun _ _ hfind => by cases hfind) oneWinner (votesAroundExpiry_quorumsFrom 14 5 16)
  exact ⟨by decide +kernel, hsound.1, oneWinner_uncontested, hsound.2 oneWinner_uncontested⟩

/-- A checkpoint that was displaced comes back with fewer voters. -/
theorem assembledCheckpoints_unsound :
    StoredVerified keyAndHashOracles stateOfHeightOne empty ∧
      (forall input, input ∈ votesAroundExpiry 14 13 13 -> input.QuorumsFrom stateOfHeightOne) ∧
      ¬ (copAfter (votesAroundExpiry 14 13 13)).written.Pairwise NoFewerVoters := by
  refine ⟨?_, votesAroundExpiry_quorumsFrom 14 13 13, by decide +kernel⟩
  intro height checkpoint hfind
  cases hfind

end Beldex.Voting
