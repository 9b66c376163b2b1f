import Beldex.Foundation.Counting
import Beldex.Voting.VotePool

/-!
# The tests of other nodes

A member of an obligations quorum tests the workers of the quorum and votes on their
state.  It has counted which validators voted on a checkpoint, it walks over the
workers next to the records of those that are still registered, and it ranks the nodes
that report one address by the height of their registration.
-/

namespace Beldex.Voting

open Basic Crypto Foundation Foundation.Counting Foundation.Ranked Table List

/-! ## Checkpoint votes that were received -/

def addPoolVoteIfUnique (pool : VotingPool) (vote : QuorumVote) :
    VotingPool × Option (List QuorumVote × Bool) :=
  match vote.subject? with
  | none => (pool, none)
  | some subject =>
    match addVoteToPoolIfUnique (findVotePool pool subject) vote with
    | none => (pool, some (findVotePool pool subject, false))
    | some votes => (pool.set subject votes, some (votes, true))

inductive PoolCall where
  | addPoolVoteIfUnique (vote : QuorumVote)
  | removeExpiredVotes (height : UInt64)

def PoolCall.apply (pool : VotingPool) : PoolCall -> VotingPool
  | .addPoolVoteIfUnique vote => (Voting.addPoolVoteIfUnique pool vote).1
  | .removeExpiredVotes height => Voting.removeExpiredVotes pool height

def poolAfter (calls : List PoolCall) : VotingPool :=
  calls.foldl PoolCall.apply empty

def VoteSubject.isCheckpointAt (height : UInt64) : VoteSubject -> Bool
  | .obligations _ _ _ => false
  | .checkpoint h _ => h == height

/-- The votes for the hash that has been in the pool for the longest time. -/
def firstVotes (pool : VotingPool) (height : UInt64) : List QuorumVote :=
  match pool.entries.find? fun entry => entry.1.isCheckpointAt height with
  | none => []
  | some entry => entry.2

def receivedCheckpointVote (pool : VotingPool) (height : UInt64) (indexInQuorum : Nat) : Bool :=
  (firstVotes pool height).any fun vote => vote.rank == indexInQuorum

def HasVoted (pool : VotingPool) (height : UInt64) (index : Nat) : Prop :=
  exists subject votes vote, pool.find? subject = some votes ∧ vote ∈ votes ∧
    vote.body.type = .checkpointing ∧ vote.blockHeight = height ∧ vote.rank = index

def Filed (pool : VotingPool) : Prop :=
  forall subject votes vote, pool.find? subject = some votes -> vote ∈ votes ->
    vote.subject? = some subject

variable {pool : VotingPool}

theorem Filed.addPoolVoteIfUnique (h : Filed pool) (vote : QuorumVote) :
    Filed (addPoolVoteIfUnique pool vote).1 := by
  unfold Voting.addPoolVoteIfUnique
  cases hsubject : vote.subject? with
  | none => exact h
  | some subject =>
    simp only
    cases hadd : addVoteToPoolIfUnique (findVotePool pool subject) vote with
    | none => exact h
    | some added =>
      intro other votes v hfind hv
      rcases find?_set_cases hfind with ⟨rfl, rfl⟩ | ⟨_, hfind⟩
      · rcases (mem_insertUnique hadd v).mp hv with rfl | hold
        · exact hsubject
        · unfold findVotePool at hold
          cases hvotes : pool.find? other with
          | none =>
            rw [hvotes] at hold
            cases hold
          | some votes =>
            rw [hvotes] at hold
            exact h other votes v hvotes hold
      · exact h other votes v hfind hv

theorem Filed.removeExpiredVotes (h : Filed pool) (height : UInt64) :
    Filed (removeExpiredVotes pool height) := by
  intro subject votes vote hfind hvote
  exact h subject votes vote (find?_restrict_eq_some.mp hfind).2 hvote

theorem filed_poolAfter (calls : List PoolCall) : Filed (poolAfter calls) := by
  have hrun : forall pool, Filed pool -> Filed (calls.foldl PoolCall.apply pool) := by
    induction calls with
    | nil => exact fun _ h => h
    | cons call rest ih =>
      intro pool h
      refine ih _ ?_
      cases call with
      | addPoolVoteIfUnique vote => exact h.addPoolVoteIfUnique vote
      | removeExpiredVotes height => exact h.removeExpiredVotes height
  refine hrun empty ?_
  intro _ _ _ hfind
  cases hfind

variable {height : UInt64}

theorem hasVoted_of_firstVotes (h : Filed pool) {vote : QuorumVote}
    (hvote : vote ∈ firstVotes pool height) : HasVoted pool height vote.rank := by
  unfold firstVotes at hvote
  cases hfirst : pool.entries.find? fun entry => entry.1.isCheckpointAt height with
  | none =>
    rw [hfirst] at hvote
    cases hvote
  | some entry =>
    rw [hfirst] at hvote
    have hfind := pool.find?_eq_some_of_mem (mem_of_find?_eq_some hfirst)
    have hsubject := h entry.1 entry.2 vote hfind hvote
    have hat := find?_some hfirst
    refine ⟨entry.1, entry.2, vote, hfind, hvote, ?_⟩
    unfold QuorumVote.subject? at hsubject
    cases hbody : vote.body with
    | obligations workerIndex state reason =>
      rw [hbody, Option.some.injEq] at hsubject
      rw [<- hsubject] at hat
      cases hat
    | checkpointing blockHash =>
      rw [hbody, Option.some.injEq] at hsubject
      rw [<- hsubject] at hat
      exact ⟨rfl, eq_of_beq hat, rfl⟩
    | _ =>
      rw [hbody] at hsubject
      cases hsubject

/-! ### The subject that opened a height -/

/-- The subject of the first checkpoint vote at a height since the votes there expired. -/
def openingSubject (height : UInt64) (calls : List PoolCall) : Option VoteSubject :=
  calls.foldl (fun opening call =>
    match call with
    | .addPoolVoteIfUnique vote =>
      opening.or (vote.subject?.filter fun subject => subject.isCheckpointAt height)
    | .removeExpiredVotes now => opening.filter fun subject => !isExpired now subject) none

def firstSubject (pool : VotingPool) (height : UInt64) : Option VoteSubject :=
  (pool.entries.map Prod.fst).find? fun subject => subject.isCheckpointAt height

theorem firstSubject_addPoolVoteIfUnique (pool : VotingPool) (vote : QuorumVote) :
    firstSubject (addPoolVoteIfUnique pool vote).1 height =
      (firstSubject pool height).or
        (vote.subject?.filter fun subject => subject.isCheckpointAt height) := by
  unfold Voting.addPoolVoteIfUnique
  cases hsubject : vote.subject? with
  | none => exact Option.or_none.symm
  | some subject =>
    -- a subject that the pool knows does not open the height
    have hknown (hmem : subject ∈ pool.entries.map Prod.fst) :
        firstSubject pool height = (firstSubject pool height).or
          ((some subject).filter fun subject => subject.isCheckpointAt height) := by
      rw [Option.filter_some]
      split
      next hat =>
        have hsome := find?_isSome.mpr ⟨subject, hmem, hat⟩
        exact (Option.or_of_isSome hsome).symm
      · exact Option.or_none.symm
    dsimp only
    cases hadd : addVoteToPoolIfUnique (findVotePool pool subject) vote with
    | none =>
      refine hknown ?_
      cases hvotes : pool.find? subject with
      | none =>
        unfold findVotePool at hadd
        rw [hvotes] at hadd
        cases hadd
      | some votes => exact mem_map_of_mem (pool.mem_of_find?_eq_some hvotes)
    | some votes =>
      unfold firstSubject
      rw [keys_set]
      split
      next hmem => exact hknown hmem
      · rw [find?_append, find?_singleton, Option.filter_some]

theorem height_of_isCheckpointAt {subject : VoteSubject}
    (h : subject.isCheckpointAt height = true) : subject.height = height := by
  cases subject with
  | obligations h index state => cases h
  | checkpoint stored hash => exact eq_of_beq h

theorem firstSubject_removeExpiredVotes (pool : VotingPool) (now : UInt64) :
    firstSubject (removeExpiredVotes pool now) height =
      (firstSubject pool height).filter fun subject => !isExpired now subject := by
  have hkeys : (removeExpiredVotes pool now).entries.map Prod.fst =
      (pool.entries.map Prod.fst).filter fun subject => !isExpired now subject := by
    rw [filter_map]
    rfl
  unfold firstSubject
  rw [hkeys, find?_filter]
  cases hfirst : (pool.entries.map Prod.fst).find? fun s => s.isCheckpointAt height with
  | none =>
    rw [find?_eq_none] at hfirst
    refine find?_eq_none.mpr fun subject hmem hat => ?_
    exact hfirst subject hmem (of_decide_eq_true hat).2
  | some first =>
    -- the checkpoints at one height expire together
    have hsame {subject : VoteSubject} (hat : subject.isCheckpointAt height = true) :
        isExpired now subject = isExpired now first := by
      have hheight := (height_of_isCheckpointAt hat).trans
        (height_of_isCheckpointAt (find?_some hfirst)).symm
      unfold isExpired
      rw [hheight]
    rw [Option.filter_some, <- hfirst]
    split
    next hkept =>
      congr
      funext subject
      by_cases hat : subject.isCheckpointAt height = true
      · simp [hat, hsame hat, hkept]
      · simp [hat]
    next hexpired =>
      refine find?_eq_none.mpr fun subject _ hkept => hexpired ?_
      rw [<- hsame (of_decide_eq_true hkept).2]
      exact (of_decide_eq_true hkept).1

theorem firstSubject_poolAfter (calls : List PoolCall) :
    firstSubject (poolAfter calls) height = openingSubject height calls := by
  unfold poolAfter openingSubject
  induction calls using reverseRecOn with
  | nil => rfl
  | append_singleton calls call ih =>
    rw [foldl_append, foldl_append, foldl_cons, foldl_nil, foldl_cons, foldl_nil, <- ih]
    cases call with
    | addPoolVoteIfUnique vote => exact firstSubject_addPoolVoteIfUnique _ vote
    | removeExpiredVotes now => exact firstSubject_removeExpiredVotes _ now

theorem mem_firstVotes {vote : QuorumVote} :
    vote ∈ firstVotes pool height <->
      exists subject, firstSubject pool height = some subject ∧
        vote ∈ findVotePool pool subject := by
  unfold firstVotes firstSubject
  rw [find?_map, Function.comp_def]
  cases hfirst : pool.entries.find? fun entry => entry.1.isCheckpointAt height with
  | none => simp
  | some entry =>
    have hfind := pool.find?_eq_some_of_mem (mem_of_find?_eq_some hfirst)
    simp [findVotePool, hfind]

theorem receivedCheckpointVote_eq_true (calls : List PoolCall) {index : Nat} :
    receivedCheckpointVote (poolAfter calls) height index = true <->
      exists subject vote, openingSubject height calls = some subject ∧
        vote ∈ findVotePool (poolAfter calls) subject ∧ vote.rank = index := by
  unfold receivedCheckpointVote
  rw [any_eq_true, <- firstSubject_poolAfter]
  constructor
  · rintro ⟨vote, hvote, hindex⟩
    rcases mem_firstVotes.mp hvote with ⟨subject, hfirst, hvote⟩
    exact ⟨subject, vote, hfirst, hvote, eq_of_beq hindex⟩
  · rintro ⟨subject, vote, hfirst, hvote, hindex⟩
    exact ⟨vote, mem_firstVotes.mpr ⟨subject, hfirst, hvote⟩, beq_iff_eq.mpr hindex⟩

/-- The votes at a height are reported faithfully exactly when every validator that has voted
at the height has voted for the hash of the first vote there. -/
theorem receivedCheckpointVote_faithful_iff (calls : List PoolCall) (height : UInt64) :
    (forall index, receivedCheckpointVote (poolAfter calls) height index = true <->
      HasVoted (poolAfter calls) height index) <->
    forall index, HasVoted (poolAfter calls) height index ->
      exists subject vote, openingSubject height calls = some subject ∧
        vote ∈ findVotePool (poolAfter calls) subject ∧ vote.rank = index := by
  simp only [<- receivedCheckpointVote_eq_true]
  constructor
  · exact fun h index => (h index).mpr
  · intro h index
    refine ⟨?_, h index⟩
    intro hvote
    rcases any_eq_true.mp hvote with ⟨vote, hvote, hindex⟩
    rw [<- eq_of_beq hindex]
    exact hasVoted_of_firstVotes (filed_poolAfter calls) hvote

theorem receivedCheckpointVote_misses_fork :
    let vote := fun (index : UInt16) (hash : Hash) =>
      QuorumVote.mk 100 .validator index nullSignature (.checkpointing hash)
    let pool := poolAfter
      [.addPoolVoteIfUnique (vote 0 ⟨1⟩), .addPoolVoteIfUnique (vote 1 ⟨2⟩)]
    HasVoted pool 100 1 ∧ receivedCheckpointVote pool 100 1 = false :=
  ⟨⟨.checkpoint 100 ⟨2⟩, _, _, rfl, mem_cons_self, rfl, rfl, rfl⟩, rfl⟩

/-! ## The walk over the workers -/

section

variable {Info : Type}

def getMasterNodeListState (infos : Table PublicKey Info) (pubkeys : List PublicKey) :
    List (PublicKey × Info) :=
  if pubkeys.isEmpty then infos.entries
  else pubkeys.filterMap fun key => (infos.find? key).map fun info => (key, info)

/-- Skip the workers before the one with the key.  A worker is read before its index is
compared with the number of workers. -/
def skipAhead (pubkey : PublicKey) (nodeIndex : Nat) :
    List PublicKey -> Option (Nat × List PublicKey)
  | [] => none
  | worker :: rest =>
    if pubkey ≠ worker then skipAhead pubkey (nodeIndex + 1) rest
    else some (nodeIndex, rest)

/-- The nodes that the loop votes on with their indices, over the records and the workers
that are left; nothing if it reads past the end of one of the two. -/
def visitWorkers : List (PublicKey × Info) -> Nat -> List PublicKey ->
    Option (List (Nat × PublicKey × Info))
  | _, _, [] => some []
  | [], _, _ :: _ => none
  | state :: states, nodeIndex, worker :: rest => do
      let (index, rest) <- skipAhead state.1 nodeIndex (worker :: rest)
      let visits <- visitWorkers states (index + 1) rest
      some ((index, state) :: visits)

def handlingMasterNodesStates (infos : Table PublicKey Info) (workers : List PublicKey) :
    Option (List (Nat × PublicKey × Info)) :=
  visitWorkers (getMasterNodeListState infos workers) 0 workers

def registeredWorkers (infos : Table PublicKey Info) :
    Nat -> List PublicKey -> List (Nat × PublicKey × Info)
  | _, [] => []
  | index, worker :: rest =>
    match infos.find? worker with
    | none => registeredWorkers infos (index + 1) rest
    | some info => (index, worker, info) :: registeredWorkers infos (index + 1) rest

def LastRegistered (infos : Table PublicKey Info) (workers : List PublicKey) : Prop :=
  forall last, workers.getLast? = some last -> (infos.find? last).isSome = true

theorem lastRegistered_cons_iff {infos : Table PublicKey Info} {worker next : PublicKey}
    {rest : List PublicKey} :
    LastRegistered infos (worker :: next :: rest) <-> LastRegistered infos (next :: rest) := by
  unfold LastRegistered
  rw [getLast?_cons_cons]

variable (infos : Table PublicKey Info)

theorem visitWorkers_eq_some_iff (workers : List PublicKey) (index : Nat) :
    visitWorkers (workers.filterMap fun key => (infos.find? key).map fun info => (key, info))
      index workers = some (registeredWorkers infos index workers) <->
        LastRegistered infos workers := by
  -- the skip loop is part of the walk, so the walk is unfolded one worker at a time
  have hskip : forall (states : List (PublicKey × Info)) worker next rest index,
      (forall state, states.head? = some state -> state.1 ≠ worker) ->
      visitWorkers states index (worker :: next :: rest) =
        visitWorkers states (index + 1) (next :: rest) := by
    intro states worker next rest index hne
    cases states with
    | nil => rfl
    | cons state states =>
      simp only [visitWorkers]
      rw [skipAhead, if_pos (hne state rfl)]
  induction workers generalizing index with
  | nil => exact ⟨fun _ _ h => (nomatch h), fun _ => rfl⟩
  | cons worker rest ih =>
    cases hworker : infos.find? worker with
    | none =>
      cases rest with
      | nil =>
        simp [visitWorkers, registeredWorkers, LastRegistered, hworker]
      | cons next rest =>
        refine Iff.trans ?_ ((ih (index + 1)).trans lastRegistered_cons_iff.symm)
        rw [filterMap_cons_none (by rw [hworker, Option.map_none]), hskip]
        · rw [registeredWorkers, hworker]
        · intro state hst
          rcases mem_filterMap.mp (mem_of_head? hst) with ⟨key, _, hkey⟩
          rcases Option.map_eq_some_iff.mp hkey with ⟨info, hinfo, rfl⟩
          rintro rfl
          rw [hworker] at hinfo
          cases hinfo
    | some info =>
      rw [filterMap_cons_some (by rw [hworker, Option.map_some])]
      simp only [visitWorkers, skipAhead, registeredWorkers, hworker, ne_eq, not_true,
        if_false, Option.bind_eq_bind, Option.bind_some]
      have hhead : forall visits : Option (List (Nat × PublicKey × Info)),
          (visits.bind fun visits => some ((index, worker, info) :: visits)) =
            some ((index, worker, info) :: registeredWorkers infos (index + 1) rest) <->
          visits = some (registeredWorkers infos (index + 1) rest) := by
        intro visits
        cases visits with
        | _ => simp
      refine ((hhead _).trans (ih (index + 1))).trans ?_
      cases rest with
      | nil => simp [LastRegistered, hworker]
      | cons next rest => exact lastRegistered_cons_iff.symm

/-- The loop visits the registered workers, each with its own index, exactly when the last
worker is registered; otherwise it reads past the end of the records. -/
theorem handlingMasterNodesStates_aligned_iff (workers : List PublicKey) :
    handlingMasterNodesStates infos workers = some (registeredWorkers infos 0 workers) <->
      LastRegistered infos workers := by
  unfold handlingMasterNodesStates getMasterNodeListState
  cases workers with
  | nil => exact ⟨fun _ _ h => (nomatch h), fun _ => by cases infos.entries <;> rfl⟩
  | cons worker rest => exact visitWorkers_eq_some_iff infos (worker :: rest) 0

end

theorem handlingMasterNodesStates_reads_past_end :
    handlingMasterNodesStates (empty.set ⟨1⟩ ()) [⟨1⟩, ⟨2⟩] = none :=
  rfl

/-! ## Nodes that report one address -/

/-- The address of the current proof of a node, and the last two addresses with the times at
which they were seen.  The latter are not stored. -/
structure ProofInfo where
  publicIp : UInt32 := 0
  publicIps : (UInt32 × UInt64) × UInt32 × UInt64 := ((0, 0), 0, 0)

def ProofInfo.update (info : ProofInfo) (publicIp : UInt32) (now : UInt64) : ProofInfo where
  publicIp := publicIp
  publicIps :=
    let (first, second) := info.publicIps
    if first.1 ≠ 0 ∧ first.1 = publicIp then ((first.1, now), second)
    else if second.1 ≠ 0 ∧ second.1 = publicIp then (first, second.1, now)
    -- replace the address that was seen less recently
    else if second.2 < first.2 then (first, publicIp, now)
    else ((publicIp, now), second)

structure TestedNode where
  pubkey : PublicKey
  registrationHeight : UInt64
  proof : Option ProofInfo

def TestedNode.entry (node : TestedNode) : PublicKey × UInt64 :=
  (node.pubkey, node.registrationHeight)

def TestedNode.reports (ip : UInt32) (node : TestedNode) : Bool :=
  node.proof.any fun proof => proof.publicIp == ip

def TestedNode.lookedUp (node : TestedNode) : UInt32 :=
  (node.proof.getD {}).publicIps.1.1

variable (nodes : List TestedNode)

def multiMnsList (ip : UInt32) : List (PublicKey × UInt64) :=
  (nodes.filter (TestedNode.reports ip)).map TestedNode.entry

/-- What `std::sort` promises for the registration heights; it is free to order ties. -/
structure HeightSort where
  sort : List (PublicKey × UInt64) -> List (PublicKey × UInt64)
  perm : forall entries, (sort entries).Perm entries
  sorted : forall entries, (sort entries).Pairwise fun a b => a.2.toNat <= b.2.toNat

def maxAllowedMasternodesPerIp : Nat := 3

def multiMnAcceptRange (S : HeightSort) (nodes : List TestedNode) (hf : Hf)
    (node : TestedNode) : Bool :=
  if Hf.hf19EnhanceBns <= hf then
    match (S.sort (multiMnsList nodes node.lookedUp)).findIdx? fun entry =>
        entry.1 == node.pubkey with
    | some index => decide (index < maxAllowedMasternodesPerIp)
    | none => true
  else
    true

/-- At most three nodes are accepted for an address, and neither the order of the list nor
that of ties matters. -/
def Agreed (hf : Hf) (nodes : List TestedNode) : Prop :=
  forall (S S' : HeightSort) (order order' : List TestedNode),
    order.Perm nodes -> order'.Perm nodes ->
    (forall ip, order.countP (fun node => node.reports ip && multiMnAcceptRange S order hf node) <=
      maxAllowedMasternodesPerIp) ∧ forall node, node ∈ nodes ->
      multiMnAcceptRange S order hf node = multiMnAcceptRange S' order' hf node

/-- A node that is looked up under the address that it reports. -/
def TestedNode.isListed (node : TestedNode) : Bool :=
  node.reports node.lookedUp

def countAt (node : TestedNode) (p : Nat -> Bool) : Nat :=
  (multiMnsList nodes node.lookedUp).countP fun entry => p entry.2.toNat

def notAbove (node : TestedNode) : Nat :=
  countAt nodes node fun height => height <= node.registrationHeight.toNat

def below (node : TestedNode) : Nat :=
  countAt nodes node fun height => height < node.registrationHeight.toNat

def surelyAccepted (node : TestedNode) : Bool :=
  !node.isListed || decide (notAbove nodes node <= maxAllowedMasternodesPerIp)

/-- No listed node is tied with others at the last place that is accepted. -/
def Settled : Prop :=
  forall node, node ∈ nodes -> node.isListed = true ->
    notAbove nodes node <= maxAllowedMasternodesPerIp ∨
      maxAllowedMasternodesPerIp <= below nodes node

section Ranking

variable {nodes order : List TestedNode} {hf : Hf} {node : TestedNode} {S : HeightSort}
  (hfork : Hf.hf19EnhanceBns <= hf) (hnodup : (nodes.map TestedNode.pubkey).Nodup)
  (hperm : order.Perm nodes)

include hnodup hperm in
theorem nodup_sorted (ip : UInt32) : ((S.sort (multiMnsList order ip)).map Prod.fst).Nodup := by
  refine (((S.perm _).map Prod.fst).nodup_iff).mpr ?_
  have hmap : (multiMnsList order ip).map Prod.fst =
      (order.filter (TestedNode.reports ip)).map TestedNode.pubkey := by
    unfold multiMnsList
    rw [map_map]
    rfl
  rw [hmap]
  exact (((hperm.map _).nodup_iff).mpr hnodup).sublist (filter_sublist.map _)

include hperm in
theorem countP_sorted (p : PublicKey × UInt64 -> Bool) (ip : UInt32) :
    (S.sort (multiMnsList order ip)).countP p = (multiMnsList nodes ip).countP p := by
  rw [(S.perm _).countP_eq]
  exact ((hperm.filter _).map _).countP_eq p

include hnodup hperm in
theorem accepted_of_not_listed (hnode : node ∈ nodes) (hlisted : node.isListed = false) :
    multiMnAcceptRange S order hf node = true := by
  unfold multiMnAcceptRange
  split
  · rw [findIdx?_eq_none_iff.mpr]
    intro entry hent
    rcases mem_map.mp ((S.perm _).mem_iff.mp hent) with ⟨other, hother, rfl⟩
    rcases mem_filter.mp hother with ⟨hmem, hreports⟩
    rw [beq_eq_false_iff_ne]
    intro hkey
    have hsame := inj_on_of_nodup_map hnodup (hperm.mem_iff.mp hmem) hnode hkey
    rw [hsame] at hreports
    unfold TestedNode.isListed at hlisted
    rw [hlisted] at hreports
    cases hreports
  · rfl

include hfork hnodup hperm in
theorem accepted_of_listed (hnode : node ∈ nodes) (hlisted : node.isListed = true) :
    exists i, (S.sort (multiMnsList order node.lookedUp))[i]? = some node.entry ∧
      multiMnAcceptRange S order hf node = decide (i < maxAllowedMasternodesPerIp) := by
  have hmem : node.entry ∈ S.sort (multiMnsList order node.lookedUp) :=
    (S.perm _).mem_iff.mpr (mem_map_of_mem (mem_filter.mpr ⟨hperm.mem_iff.mpr hnode, hlisted⟩))
  unfold multiMnAcceptRange
  rw [if_pos hfork]
  cases hfound : (S.sort (multiMnsList order node.lookedUp)).findIdx? fun entry =>
      entry.1 == node.pubkey with
  | none =>
    have hnone := findIdx?_eq_none_iff.mp hfound node.entry hmem
    exact absurd hnone (by simp [TestedNode.entry])
  | some i =>
    rcases findIdx?_eq_some_iff_getElem.mp hfound with ⟨hi, hkey, _⟩
    refine ⟨i, ?_, rfl⟩
    rw [getElem?_eq_getElem hi, Option.some.injEq]
    exact inj_on_of_nodup_map (nodup_sorted hnodup hperm _) (getElem_mem hi) hmem (eq_of_beq hkey)

include hfork hnodup hperm in
theorem accepted_eq_surely (hnode : node ∈ nodes) (hsettled : Settled nodes) :
    multiMnAcceptRange S order hf node = surelyAccepted nodes node := by
  unfold surelyAccepted
  cases hlisted : node.isListed with
  | false => exact accepted_of_not_listed hnodup hperm hnode hlisted
  | true =>
    rcases accepted_of_listed hfork hnodup hperm hnode hlisted with ⟨i, hi, haccept⟩
    have hbounds := position_bounds (S.sorted _) hi
    rw [countP_sorted hperm, countP_sorted hperm] at hbounds
    change below nodes node <= i ∧ i < notAbove nodes node at hbounds
    rw [haccept, Bool.not_true, Bool.false_or, decide_eq_decide]
    rcases hsettled node hnode hlisted with hin | hout
    · exact iff_of_true (lt_of_lt_of_le hbounds.2 hin) hin
    · exact iff_of_false (by omega) (by omega)

/-- Sort by the height, and one key before or after the others of its height. -/
def sortWith (key : PublicKey) (keyFirst : Bool) : HeightSort where
  sort := sortByRank fun entry => 2 * entry.2.toNat + if (entry.1 == key) = keyFirst then 0 else 1
  perm := sortByRank_perm
  sorted := by
    intro entries
    refine (pairwise_sortByRank _ entries).imp ?_
    intro a b hle
    split at hle <;> split at hle <;> omega

include hnodup in
theorem countP_key_le (ip : UInt32) (key : PublicKey) :
    (multiMnsList nodes ip).countP (fun entry => entry.1 == key) <= 1 := by
  have hkeys := nodup_sorted (S := sortWith key true) hnodup (List.Perm.refl nodes) ip
  have hcount := nodup_iff_count_le_one.mp hkeys key
  rw [count, countP_map] at hcount
  rwa [<- countP_sorted (S := sortWith key true) (List.Perm.refl nodes)]

include hfork hnodup in
theorem settled_of_agreed (h : Agreed hf nodes) : Settled nodes := by
  intro node hnode hlisted
  have hperm := List.Perm.refl nodes
  have hkey := countP_key_le hnodup node.lookedUp node.pubkey
  rcases accepted_of_listed (S := sortWith node.pubkey true) hfork hnodup hperm hnode hlisted
    with ⟨i, hi, hfirst⟩
  rcases accepted_of_listed (S := sortWith node.pubkey false) hfork hnodup hperm hnode hlisted
    with ⟨j, hj, hlast⟩
  have hsame := (h (sortWith node.pubkey true) (sortWith node.pubkey false) nodes nodes hperm
    hperm).2 node hnode
  rw [hfirst, hlast, decide_eq_decide] at hsame
  have hibound := (position_bounds (pairwise_sortByRank _ _) hi).2
  have hjbound := (position_bounds (pairwise_sortByRank _ _) hj).1
  change _ < ((sortWith node.pubkey true).sort _).countP _ at hibound
  change ((sortWith node.pubkey false).sort _).countP _ <= _ at hjbound
  rw [countP_sorted hperm] at hibound hjbound
  have hbef : i < below nodes node + 1 := by
    refine lt_of_lt_of_le hibound (le_trans (countP_le_add ?_) (Nat.add_le_add_left hkey _))
    intro entry hle
    have hle := of_decide_eq_true hle
    by_cases hself : (entry.1 == node.pubkey) = true
    · exact Or.inr hself
    · refine Or.inl (decide_eq_true ?_)
      simp only [TestedNode.entry, beq_self_eq_true, if_true, if_neg hself] at hle
      omega
  have hafter : notAbove nodes node <= j + 1 := by
    refine le_trans (countP_le_add ?_) (Nat.add_le_add hjbound hkey)
    intro entry hle
    have hle := of_decide_eq_true hle
    cases hself : entry.1 == node.pubkey with
    | true => exact Or.inr rfl
    | false =>
      refine Or.inl (decide_eq_true ?_)
      simp only [TestedNode.entry, beq_self_eq_true, if_true, Bool.true_eq_false, if_false]
      omega
  omega

/-- The rule holds exactly when no listed node is tied at the boundary of the third place,
and the nodes that are surely accepted at an address are at most three. -/
theorem multiMnAcceptRange_agreed_iff (hfork : Hf.hf19EnhanceBns <= hf)
    (hnodup : (nodes.map TestedNode.pubkey).Nodup) :
    Agreed hf nodes <-> Settled nodes ∧
      forall ip, nodes.countP (fun node => node.reports ip && surelyAccepted nodes node) <=
        maxAllowedMasternodesPerIp := by
  have hcount : Settled nodes -> forall (S : HeightSort) (order : List TestedNode),
      order.Perm nodes -> forall ip,
        order.countP (fun node => node.reports ip && multiMnAcceptRange S order hf node) =
          nodes.countP fun node => node.reports ip && surelyAccepted nodes node := by
    intro hsettled S order hperm ip
    rw [hperm.countP_eq]
    refine countP_congr fun node hnode => ?_
    rw [accepted_eq_surely hfork hnodup hperm hnode hsettled]
  constructor
  · intro h
    have hsettled := settled_of_agreed hfork hnodup h
    refine ⟨hsettled, fun ip => ?_⟩
    have hperm := List.Perm.refl nodes
    rw [<- hcount hsettled (sortWith ⟨0⟩ true) nodes hperm ip]
    exact (h (sortWith ⟨0⟩ true) (sortWith ⟨0⟩ true) nodes nodes hperm hperm).1 ip
  · rintro ⟨hsettled, hbnd⟩ S S' order order' hperm hperm'
    refine ⟨fun ip => ?_, fun node hnode => ?_⟩
    · rw [hcount hsettled S order hperm ip]
      exact hbnd ip
    · rw [accepted_eq_surely hfork hnodup hperm hnode hsettled,
        accepted_eq_surely hfork hnodup hperm' hnode hsettled]

end Ranking

/-- A node that reports the second address after it was first seen at another one. -/
def movedNode (key : Nat) : TestedNode where
  pubkey := ⟨key⟩
  registrationHeight := UInt64.ofNat key
  proof := some ((ProofInfo.update {} 1 10).update 2 20)

/-- A node at the address where it was first seen. -/
def settledNode (key : Nat) : TestedNode :=
  { movedNode key with proof := some (ProofInfo.update {} 1 10) }

/-- The last of four nodes at one address is turned down in every order. -/
theorem multiMnAcceptRange_agreed_iff_fourNodes :
    Agreed .hf19EnhanceBns [settledNode 4, settledNode 2, settledNode 3, settledNode 1] := by
  refine (multiMnAcceptRange_agreed_iff (by decide) (by decide)).mpr
    ⟨by unfold Settled; decide, fun ip => ?_⟩
  refine le_trans (countP_mono_left fun node _ h => (Bool.and_eq_true_iff.mp h).2) ?_
  decide

theorem movedNodes_accepted :
    let nodes := [movedNode 1, movedNode 2, movedNode 3, movedNode 4]
    nodes.countP (fun node => node.reports 2 &&
      multiMnAcceptRange (sortWith ⟨1⟩ true) nodes .hf19EnhanceBns node) = 4 :=
  rfl

end Beldex.Voting
