import Beldex.Basic.Transaction
import Beldex.Foundation.Bitset
import Mathlib.Data.Finset.Card

/-!
# The signatures of a quorum

`verifyQuorumSignatures` decides whether the signatures on a checkpoint or on a
proof of stake block come from enough distinct members of a quorum, so two
accepted lists share the members that the thresholds force them to share.
-/

namespace Beldex.Voting

open Basic Crypto Foundation List

variable {P : Type}

section

/-! ## The loop over the signatures -/

/-- The number of entries of the array that counts the votes of each voter. -/
def maxQuorumSize : Nat :=
  max checkpointQuorumSize posQuorumNumValidators

def breaksVoteOrdering (enforceVoteOrdering : Bool) (signature : QuorumSignature)
    (rest : List QuorumSignature) : Bool :=
  match rest with
  | [] => false
  | next :: _ => enforceVoteOrdering && decide (next.voterIndex <= signature.voterIndex)

def isNotParticipating (type : QuorumType) (block : Option (Block P))
    (voterIndex : UInt16) : Bool :=
  match type, block with
  | .pos, none => true
  | .pos, some block => block.pos.validatorBitset &&& Bitset.bit voterIndex.toNat == 0
  | _, _ => false

def verifyVotes (checkSignature : PublicKey -> Signature -> Bool) (quorum : Quorum)
    (type : QuorumType) (block : Option (Block P)) (enforceVoteOrdering : Bool)
    (height : UInt64) (voted : List UInt16) : List QuorumSignature -> Bool
  | [] => true
  | signature :: rest =>
    if breaksVoteOrdering enforceVoteOrdering signature rest then false
    else
      match quorum.validators[signature.voterIndex.toNat]? with
      | none => false
      | some key =>
        if isNotParticipating type block signature.voterIndex then false
        else if maxQuorumSize <= signature.voterIndex.toNat then false
        else if signature.voterIndex ∈ voted then false
        else if checkSignature key signature.signature then
          verifyVotes checkSignature quorum type block enforceVoteOrdering height
            (signature.voterIndex :: voted) rest
        else
          -- one block of the main network is let through as it is
          height == 3126052

/-! ## The whole check -/

def signatureListIsAdmissible (type : QuorumType) (signatures : List QuorumSignature)
    (block : Option (Block P)) : Bool :=
  match type with
  | .checkpointing =>
    decide (checkpointMinVotes <= signatures.length) &&
      decide (signatures.length <= checkpointQuorumSize)
  | .pos =>
    signatures.length == posBlockRequiredSignatures && match block with
      | none => false
      | some block => decide (block.pos.validatorBitset.toNat < 1 <<< posQuorumNumValidators)
  | .obligations => true
  | .flash => true

def enforcesVoteOrdering (type : QuorumType) (hfVersion : Hf) : Bool :=
  match type with
  | .checkpointing => decide (Hf.hf15Flash <= hfVersion)
  | _ => true

def verifyQuorumSignatures (checkSignature : Hash -> PublicKey -> Signature -> Bool)
    (quorum : Quorum) (type : QuorumType) (hfVersion : Hf) (height : UInt64) (hash : Hash)
    (signatures : List QuorumSignature) (block : Option (Block P)) : Bool :=
  signatureListIsAdmissible type signatures block &&
    verifyVotes (checkSignature hash) quorum type block (enforcesVoteOrdering type hfVersion)
      height [] signatures

/-! ## Lists that are accepted -/

/-- A signature on a hash from a participating member of the quorum. -/
structure IsValidVote (checkSignature : PublicKey -> Signature -> Bool) (quorum : Quorum)
    (type : QuorumType) (block : Option (Block P)) (signature : QuorumSignature) : Prop where
  participates : isNotParticipating type block signature.voterIndex = false
  inVoteSet : signature.voterIndex.toNat < maxQuorumSize
  signed : exists key, quorum.validators[signature.voterIndex.toNat]? = some key ∧
    checkSignature key signature.signature = true

variable {enforceVoteOrdering : Bool}

variable {quorum : Quorum} {block : Option (Block P)} {height : UInt64}
  {signatures : List QuorumSignature}

theorem verifyVotes_of_ascending {checkSignature : PublicKey -> Signature -> Bool}
    {type : QuorumType} {voted : List UInt16}
    (hascending : signatures.Pairwise fun a b => a.voterIndex < b.voterIndex)
    (hvoted : forall signature, signature ∈ signatures ->
      forall voter, voter ∈ voted -> voter < signature.voterIndex)
    (hvalid : forall signature, signature ∈ signatures ->
      IsValidVote checkSignature quorum type block signature) :
    verifyVotes checkSignature quorum type block enforceVoteOrdering height voted signatures =
      true := by
  induction signatures generalizing voted with
  | nil => rfl
  | cons signature rest ih =>
    rcases pairwise_cons.mp hascending with ⟨hfirst, hrest⟩
    have hhead := hvalid signature (mem_cons_self ..)
    rcases hhead.signed with ⟨key, hkey, hcheck⟩
    have hnew : signature.voterIndex ∉ voted := by
      intro hmem
      exact UInt16.lt_irrefl _ (hvoted signature (mem_cons_self ..) _ hmem)
    unfold verifyVotes
    have hordered : breaksVoteOrdering enforceVoteOrdering signature rest = false := by
      cases rest with
      | nil => rfl
      | cons next rest => simp [breaksVoteOrdering, UInt16.not_le.mpr (hfirst next mem_cons_self)]
    rw [hordered, hkey]
    simp only [Bool.false_eq_true, if_false, hhead.participates,
      not_le.mpr hhead.inVoteSet, hnew, hcheck, if_true]
    apply ih hrest
    · intro next hnext
      exact forall_mem_cons.mpr ⟨hfirst next hnext, hvoted next (mem_cons_of_mem _ hnext)⟩
    · exact (forall_mem_cons.mp hvalid).2

theorem verifyQuorumSignatures_pos_length {checkSignature : Hash -> PublicKey -> Signature -> Bool}
    {hfVersion : Hf} {hash : Hash}
    (h : verifyQuorumSignatures checkSignature quorum .pos hfVersion height hash signatures
      block = true) : signatures.length = posBlockRequiredSignatures := by
  unfold verifyQuorumSignatures signatureListIsAdmissible at h
  rw [Bool.and_eq_true, Bool.and_eq_true, beq_iff_eq] at h
  exact h.1.1

end

/-! ## What an accepted list shows -/

structure DistinctVotes (checkSignature : PublicKey -> Signature -> Bool) (quorum : Quorum)
    (signatures : List QuorumSignature) : Prop where
  distinct : (signatures.map QuorumSignature.voterIndex).Nodup
  signed : forall signature, signature ∈ signatures ->
    exists key, quorum.validators[signature.voterIndex.toNat]? = some key ∧
      checkSignature key signature.signature = true

variable {checkSignature : PublicKey -> Signature -> Bool} {quorum : Quorum}
  {signature : QuorumSignature} {rest : List QuorumSignature}

theorem DistinctVotes.tail (h : DistinctVotes checkSignature quorum (signature :: rest)) :
    DistinctVotes checkSignature quorum rest where
  distinct := (nodup_cons.mp h.distinct).2
  signed := by
    intro next hnext
    exact h.signed next (mem_cons_of_mem _ hnext)

variable {type : QuorumType} {block : Option (Block P)} {height : UInt64}
  {enforceVoteOrdering : Bool} {voted : List UInt16}

variable {signatures : List QuorumSignature}

/-- What the loop knows of the votes that it passes, but for the one height at which it
does not insist on the signatures. -/
theorem verifyVotes_eq_true (hheight : height ≠ 3126052)
    (h : verifyVotes checkSignature quorum type block enforceVoteOrdering height voted
      signatures = true) :
    DistinctVotes checkSignature quorum signatures ∧
      forall signature, signature ∈ signatures -> signature.voterIndex ∉ voted := by
  induction signatures generalizing voted with
  | nil =>
    constructor
    · exact ⟨nodup_nil, fun _ hmem => by cases hmem⟩
    · intro signature hmem
      cases hmem
  | cons signature rest ih =>
    unfold verifyVotes at h
    split at h
    · cases h
    split at h
    · cases h
    rename_i key hkey
    split at h
    · cases h
    split at h
    · cases h
    split at h
    · cases h
    rename_i hvoted
    split at h
    case isFalse => exact absurd (eq_of_beq h) hheight
    rename_i hcheck
    rcases ih h with ⟨hrest, hnew⟩
    have hfirst : signature.voterIndex ∉ rest.map QuorumSignature.voterIndex := by
      intro hmem
      rcases mem_map.mp hmem with ⟨later, hlater, heq⟩
      apply hnew later hlater
      rw [heq]
      exact mem_cons_self
    refine ⟨⟨nodup_cons.mpr ⟨hfirst, hrest.distinct⟩, ?_⟩, forall_mem_cons.mpr ⟨hvoted, ?_⟩⟩
    · exact forall_mem_cons.mpr ⟨⟨key, hkey, hcheck⟩, hrest.signed⟩
    · intro vote hlater hmem
      exact hnew vote hlater (mem_cons_of_mem _ hmem)

/-! ## Signers -/

def signers (checkSignature : PublicKey -> Signature -> Bool) (quorum : Quorum)
    (signatures : List QuorumSignature) : Finset PublicKey :=
  quorum.validators.toFinset.filter fun key =>
    exists signature, signature ∈ signatures ∧
      quorum.validators[signature.voterIndex.toNat]? = some key ∧
        checkSignature key signature.signature = true

theorem signers_subset (checkSignature : PublicKey -> Signature -> Bool) (quorum : Quorum)
    (signatures : List QuorumSignature) :
    signers checkSignature quorum signatures ⊆ quorum.validators.toFinset :=
  Finset.filter_subset _ _

section

variable (hdistinct : quorum.validators.Nodup)
include hdistinct

theorem DistinctVotes.card_signers (h : DistinctVotes checkSignature quorum signatures) :
    signatures.length <= (signers checkSignature quorum signatures).card := by
  induction signatures with
  | nil => exact Nat.zero_le _
  | cons signature rest ih =>
    rcases h.signed signature mem_cons_self with ⟨key, hkey, hcheck⟩
    have hnew : key ∉ signers checkSignature quorum rest := by
      intro hmem
      rcases (Finset.mem_filter.mp hmem).2 with ⟨later, hlater, hkey', _⟩
      have hbound := (List.getElem?_eq_some_iff.mp hkey).1
      have hindex := UInt16.toNat_inj.mp
        ((getElem?_inj hbound hdistinct).mp (hkey.trans hkey'.symm))
      apply (nodup_cons.mp h.distinct).1
      rw [hindex]
      exact mem_map_of_mem hlater
    have hsubset : insert key (signers checkSignature quorum rest) ⊆
        signers checkSignature quorum (signature :: rest) := by
      intro member hmember
      rcases Finset.mem_insert.mp hmember with rfl | hold
      · refine Finset.mem_filter.mpr ⟨?_, signature, mem_cons_self, hkey, hcheck⟩
        exact mem_toFinset.mpr (mem_of_getElem? hkey)
      · rcases Finset.mem_filter.mp hold with ⟨hval, later, hlater, hsign⟩
        exact Finset.mem_filter.mpr ⟨hval, later, mem_cons_of_mem _ hlater, hsign⟩
    calc (signature :: rest).length = rest.length + 1 := length_cons
      _ <= (signers checkSignature quorum rest).card + 1 :=
          Nat.add_le_add_right (ih h.tail) 1
      _ = (insert key (signers checkSignature quorum rest)).card :=
          (Finset.card_insert_of_notMem hnew).symm
      _ <= (signers checkSignature quorum (signature :: rest)).card :=
          Finset.card_le_card hsubset

theorem card_signers_inter {check check' : PublicKey -> Signature -> Bool}
    {signatures' : List QuorumSignature}
    (h : DistinctVotes check quorum signatures) (h' : DistinctVotes check' quorum signatures') :
    signatures.length + signatures'.length <= quorum.validators.length +
      (signers check quorum signatures ∩ signers check' quorum signatures').card := by
  have hunion := Finset.card_union_add_card_inter (signers check quorum signatures)
    (signers check' quorum signatures')
  have hfits : (signers check quorum signatures ∪ signers check' quorum signatures').card <=
      quorum.validators.length := by
    rw [<- toFinset_card_of_nodup hdistinct]
    exact Finset.card_le_card (Finset.union_subset (signers_subset _ _ _) (signers_subset _ _ _))
  have hcard := h.card_signers hdistinct
  have hcard' := h'.card_signers hdistinct
  omega

end

/-! ## Accepted lists -/

theorem verifyQuorumSignatures_eq_true {checkSignature : Hash -> PublicKey -> Signature -> Bool}
    {hfVersion : Hf} {hash : Hash} (hheight : height ≠ 3126052)
    (h : verifyQuorumSignatures checkSignature quorum type hfVersion height hash signatures
      block = true) :
    signatureListIsAdmissible type signatures block = true ∧
      DistinctVotes (checkSignature hash) quorum signatures := by
  unfold verifyQuorumSignatures at h
  rw [Bool.and_eq_true] at h
  exact ⟨h.1, (verifyVotes_eq_true hheight h.2).1⟩

theorem checkpointMinVotes_le_of_admissible
    (h : signatureListIsAdmissible .checkpointing signatures block = true) :
    checkpointMinVotes <= signatures.length := by
  unfold signatureListIsAdmissible at h
  rw [Bool.and_eq_true, decide_eq_true_eq] at h
  exact h.1

/-- Two accepted lists of signatures, on whatever hashes, share at least as many
signers as the thresholds of the quorum force. -/
theorem quorumIntersection (checkSignature : Hash -> PublicKey -> Signature -> Bool)
    (quorum : Quorum) (hdistinct : quorum.validators.Nodup) (type : QuorumType)
    (hfVersion hfVersion' : Hf) (height height' : UInt64) (hheight : height ≠ 3126052)
    (hheight' : height' ≠ 3126052) (hash hash' : Hash)
    (signatures signatures' : List QuorumSignature) (block block' : Option (Block P))
    (h : verifyQuorumSignatures checkSignature quorum type hfVersion height hash signatures
      block = true) (h' : verifyQuorumSignatures checkSignature quorum type hfVersion' height' hash'
      signatures' block' = true) :
    (type = .checkpointing -> quorum.validators.length <= checkpointQuorumSize ->
      checkpointMinVotes <= signatures.length ∧ 2 * checkpointMinVotes - checkpointQuorumSize <=
          (signers (checkSignature hash) quorum signatures ∩
            signers (checkSignature hash') quorum signatures').card) ∧
    (type = .pos -> quorum.validators.length = posQuorumNumValidators ->
      signatures.length = posBlockRequiredSignatures ∧
        2 * posBlockRequiredSignatures - posQuorumNumValidators <=
          (signers (checkSignature hash) quorum signatures ∩
            signers (checkSignature hash') quorum signatures').card) ∧
    DistinctVotes (checkSignature hash) quorum signatures := by
  rcases verifyQuorumSignatures_eq_true hheight h with ⟨hadmissible, hvotes⟩
  rcases verifyQuorumSignatures_eq_true hheight' h' with ⟨hadmissible', hvotes'⟩
  have hinter := card_signers_inter hdistinct hvotes hvotes'
  refine ⟨?_, ?_, hvotes⟩
  · rintro rfl hsize
    have hlen := checkpointMinVotes_le_of_admissible hadmissible
    have hlength' := checkpointMinVotes_le_of_admissible hadmissible'
    constructor
    · exact hlen
    · omega
  · rintro rfl hsize
    have hlen := verifyQuorumSignatures_pos_length h
    have hlength' := verifyQuorumSignatures_pos_length h'
    constructor
    · exact hlen
    · omega

/-! ## Twenty validators -/

def twentyValidators : Quorum where
  validators := (range checkpointQuorumSize).map fun n => ⟨BitVec.ofNat 256 (100 + n)⟩
  workers := []

def namesKeyAndHash (hash : Hash) (key : PublicKey) (signature : Signature) : Bool :=
  signature.c.bits == key.bits && signature.r.bits == hash.bits

def votesFrom (voters : List Nat) (hash : Hash) : List QuorumSignature :=
  voters.map fun n =>
    { voterIndex := UInt16.ofNat n
      signature := { c := ⟨BitVec.ofNat 256 (100 + n)⟩, r := ⟨hash.bits⟩ } }

/-- Validators 0 to 12 sign one hash and validators 7 to 19 another one. -/
theorem quorumIntersection_sixCommon :
    2 * checkpointMinVotes - checkpointQuorumSize = 6 ∧
      6 <= (signers (namesKeyAndHash ⟨1⟩) twentyValidators (votesFrom (range' 0 13) ⟨1⟩) ∩
        signers (namesKeyAndHash ⟨2⟩) twentyValidators (votesFrom (range' 7 13) ⟨2⟩)).card := by
  have hdistinct : twentyValidators.validators.Nodup := by decide +kernel
  have hfirst : verifyQuorumSignatures (P := Unit) namesKeyAndHash twentyValidators
      .checkpointing .hf17POS 8 ⟨1⟩ (votesFrom (range' 0 13) ⟨1⟩) none = true := by
    decide +kernel
  have hsecond : verifyQuorumSignatures (P := Unit) namesKeyAndHash twentyValidators
      .checkpointing .hf14EnforceCheckpoints 8 ⟨2⟩ (votesFrom (range' 7 13) ⟨2⟩) none =
        true := by
    decide +kernel
  have hinter := quorumIntersection namesKeyAndHash twentyValidators hdistinct
    .checkpointing .hf17POS .hf14EnforceCheckpoints 8 8 (by decide) (by decide) ⟨1⟩ ⟨2⟩
    (votesFrom (range' 0 13) ⟨1⟩) (votesFrom (range' 7 13) ⟨2⟩) none none
    hfirst hsecond
  exact ⟨by decide, (hinter.1 rfl (by decide)).2⟩

end Beldex.Voting
