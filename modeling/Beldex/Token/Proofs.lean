import Beldex.Token.Validate

/-!
# Verification of the token proofs

`verTokenProofs` checks the set of proofs a transaction carries, the ring
signature of every privacy-token input, the surjection proof that ties each
output to a token source, the balance proof and the range proof.  The verifiers
themselves are oracles.
-/

namespace Beldex.Token

open Basic Crypto Foundation.Fallible List TxOutZyphora

variable {P Blob : Type}

/-! ## The set of proofs -/

def surjectionProofs (tx : Transaction P) : List (List BgeProof) :=
  tx.tokenProofs.filterMap fun proof =>
    match proof with
    | .surjection bgeProofs => some bgeProofs
    | _ => none

def balanceProofs (tx : Transaction P) : List (ZyBalanceProof P) :=
  tx.tokenProofs.filterMap fun proof =>
    match proof with
    | .balance p => some p
    | _ => none

def rangeProofs (tx : Transaction P) : List (ZyOutsRangeProof P) :=
  tx.tokenProofs.filterMap fun proof =>
    match proof with
    | .outsRange p => some p
    | _ => none

def aopAllowed (type : TxType) : Bool :=
  type == .registerPrivacyToken || type == .mintToken || type == .burnToken

def ownershipAllowed (type : TxType) : Bool :=
  type == .mintToken || type == .updateToken

def checkSingleOperation (tx : Transaction P) : Except String Unit :=
  match tx.tokenOperations with
  | [] => .ok ()
  | [tdo] =>
    rejectIf (!typeMatches tdo tx.type)
      "tx.type does not match the token descriptor operation_type (cross-typed token operation rejected)"
  | _ => .error "a token transaction must carry exactly one token descriptor operation"

def checkProofSet (tx : Transaction P) : Except String Unit := do
  rejectIf (decide (1 < (surjectionProofs tx).length))
    "multiple zy_token_surjection_proof entries"
  rejectIf (decide (1 < (balanceProofs tx).length)) "multiple zy_balance_proof entries"
  rejectIf (decide (1 < (rangeProofs tx).length)) "multiple zy_outs_range_proof entries"
  rejectIf (decide (1 < (tokenOperationProofs tx).length))
    "multiple token_operation_proof entries"
  rejectIf (decide (1 < (ownershipProofs tx).length))
    "multiple token_operation_ownership_proof entries"
  rejectIf (tx.zySig.length != tx.zyInputs.length)
    ("ZY_sig count (" ++ toString tx.zySig.length ++ ") != confidential input count (" ++
      toString tx.zyInputs.length ++ ")")
  rejectIf (!(tokenOperationProofs tx).isEmpty && !aopAllowed tx.type)
    "token_operation_proof present on a tx that is not deploy/mint/burn"
  rejectIf (!(ownershipProofs tx).isEmpty && !ownershipAllowed tx.type)
    "token_operation_ownership_proof present on a tx that is not mint/update"
  checkSingleOperation tx

/-! ## Inputs -/

/-- The ring signature of one privacy-token input, at its position in the inputs. -/
def verZyInput (O : TokenOracles P) (message : Hash) (pubkeys : List (List (Ctkey P)))
    (tokenIdRings : List (List P)) (entry : (TxInZyInput × Nat) × ZySig P) :
    Except String Unit := do
  let ((txin, i), zySig) := entry
  let ring := pubkeys.getD i []
  let ringTokenId := tokenIdRings.getD i []
  rejectIf (ringTokenId.length != ring.length)
    ("token-id ring size mismatch for input " ++ toString i)
  rejectIf (!O.isInMainSubgroup zySig.pseudoOutAmountCommitment ||
      !O.isInMainSubgroup zySig.pseudoOutBlindedTokenId)
    ("ZY_sig pseudo-out point not in main subgroup for input " ++ toString i)
  rejectIf (!O.verZySig message zySig ring ringTokenId)
    ("ZY_sig verification failed for input " ++ toString i)
  rejectIf (zySig.clsagSig.keyImage != txin.kImage)
    ("ZY_sig key_image mismatch for input " ++ toString i)

def signedInputs (tx : Transaction P) : List ((TxInZyInput × Nat) × ZySig P) :=
  (filterMapIdx TxIn.zyInput? 0 tx.vin).zip tx.zySig

def zyInputCount (tx : Transaction P) : Nat :=
  (signedInputs tx).length

/-! ## Surjection -/

def emissionTokenId (codec : TokenCodec P Blob) (tx : Transaction P) : Except String TokenId :=
  match getTokenDescriptorOperationFromTxExtra tx 0 with
  | none => .error "mint tx is missing its token_descriptor_operation in tx.extra"
  | some tdo => do
      let tokenId :=
        if tx.type = .registerPrivacyToken then getOrCalculateTokenId codec tdo
        else tdo.tokenId
      rejectIf (tokenId == nullTid)
        "mint tx token_descriptor_operation has no resolvable token_id"
      .ok tokenId

def isEmission (type : TxType) : Bool :=
  type == .registerPrivacyToken || type == .mintToken

/-- The token sources of a transaction: its inputs, and the token it emits. -/
def surjectionRing (O : TokenOracles P) (codec : TokenCodec P Blob)
    (tx : Transaction P) : Except String (List P) :=
  let spent := tx.zySig.map ZySig.pseudoOutBlindedTokenId
  if isEmission tx.type then do
    let tokenId <- emissionTokenId codec tx
    .ok (spent ++ [O.tid2rct tokenId])
  else
    .ok spent

def verBgeProofs (O : TokenOracles P) (message : Hash) (ring : List P) :
    List (TxOutZyphora P × Nat) -> List BgeProof -> Except String Unit
  | [], [] => .ok ()
  | [], _ :: _ => .error "surjection proof has more entries than ZY outputs"
  | _ :: _, [] => .error "surjection proof has fewer entries than ZY outputs"
  | (zout, k) :: outs, proof :: proofs => do
      rejectIf (!O.verifyBgeProof message ring zout.blindedTokenId proof)
        ("BGE surjection proof verification failed for output " ++ toString k)
      verBgeProofs O message ring outs proofs

def verSurjection (O : TokenOracles P) (message : Hash) (ring : List P)
    (tx : Transaction P) : Except String Unit :=
  match surjectionProofs tx with
  | [] =>
    rejectIf (!tx.zyOutputs.isEmpty)
      "zyphora outputs present without an token surjection proof"
  | bgeProofs :: _ => do
      rejectIf ring.isEmpty
        "surjection proof present but tx has no token source (no zy inputs and not a mint)"
      verBgeProofs O message ring (filterMapIdx TxOut.zyphora? 0 tx.vout) bgeProofs

/-! ## Balance -/

def burnedCommitment [AddCommGroup P] (tx : Transaction P) : Except String P :=
  if tx.type = .burnToken then
    match getTokenDescriptorOperationFromTxExtra tx 0 with
    | none => .error "burn tx is missing its token_descriptor_operation in tx.extra"
    | some tdo => do
        rejectIf (!tdo.fieldIsSet tokenFieldAmountCommitment)
          "burn tx token_descriptor_operation is missing amount_commitment"
        .ok tdo.amountCommitment
  else
    .ok 0

def verBalance [AddCommGroup P] [DecidableEq P] (O : TokenOracles P) (message : Hash)
    (tx : Transaction P) : Except String Unit :=
  if zyInputCount tx = 0 then
    .ok ()
  else
    match balanceProofs tx with
    | [] => .error "missing zy_balance_proof for PT spend"
    | bal :: _ => do
        -- Both sums start at the point of the zero key, which cancels.
        let sumIn := O.nullPoint + (tx.zySig.map ZySig.pseudoOutAmountCommitment).sum
        let sumOut := O.nullPoint + (tx.zyOutputs.map amountCommitment).sum
        let burned <- burnedCommitment tx
        rejectIf (bal.p != sumIn - sumOut - burned) "zy_balance_proof statement mismatch"
        rejectIf (!O.verifyDoubleSchnorrSig message bal.p (getTxPubKeyFromExtra tx) bal.dss)
          "zy_balance_proof verification failed"

/-! ## Range -/

/-- A source for the token of the outputs, when no input provides one. -/
def checkOutputSource (codec : TokenCodec P Blob) (tx : Transaction P) : Except String Unit :=
  if 0 < zyInputCount tx then
    .ok ()
  else if isEmission tx.type then do
    let _ <- emissionTokenId codec tx
    .ok ()
  else
    .error "zyphora outputs present without any source to declare the token id"

def verRange (O : TokenOracles P) (codec : TokenCodec P Blob) (message : Hash)
    (tx : Transaction P) : Except String Unit :=
  match rangeProofs tx with
  | [] =>
    rejectIf (!tx.zyOutputs.isEmpty)
      "zyphora outputs present without an outputs range proof"
  | rp :: _ => do
      rejectIf tx.zyOutputs.isEmpty
        "zy_outs_range_proof present without any zyphora outputs"
      checkOutputSource codec tx
      rejectIf (!O.verifyVectorUgAggregationProof message
          (tx.zyOutputs.map amountCommitment)
          (tx.zyOutputs.map blindedTokenId) rp.aggregationProof)
        "zy_outs_range_proof aggregation proof verification failed"
      rejectIf (!O.verBulletproofPlus rp.bpp rp.aggregationProof.amountCommitmentsForRpAggregation)
        "zy_outs_range_proof Bulletproof+ verification failed"

/-! ## All proofs -/

def verTokenProofs [AddCommGroup P] [DecidableEq P] (O : TokenOracles P)
    (codec : TokenCodec P Blob) (tx : Transaction P) (pubkeys : List (List (Ctkey P)))
    (tokenIdRings : List (List P)) : Except String Unit := do
  checkProofSet tx
  let message := O.getHf21TokenProofMessage tx pubkeys
  checkAll (verZyInput O message pubkeys tokenIdRings) (signedInputs tx)
  rejectIf (zyInputCount tx != tx.zySig.length)
    ("ZY_sig count mismatch: have " ++ toString tx.zySig.length ++ ", matched " ++
      toString (zyInputCount tx))
  let ring <- surjectionRing O codec tx
  verSurjection O message ring tx
  rejectIf ((ownershipProofs tx).any fun sig => sig.c == zeroKey || sig.y == zeroKey)
    "token ownership proof is zero"
  verBalance O message tx
  verRange O codec message tx

/-! ## What accepted proofs have shown -/

variable {tx : Transaction P}

theorem map_snd_signedInputs (h : tx.zySig.length = tx.zyInputs.length) :
    (signedInputs tx).map Prod.snd = tx.zySig := by
  apply map_snd_zip
  have hlen := congrArg length (map_fst_filterMapIdx TxIn.zyInput? 0 tx.vin)
  rw [length_map] at hlen
  change _ = tx.zyInputs.length at hlen
  omega

variable {O : TokenOracles P} {message : Hash}
  {pubkeys : List (List (Ctkey P))} {tokenIdRings : List (List P)}

variable {ring : List P}

theorem verBgeProofs_eq_ok {outs : List (TxOutZyphora P × Nat)} {proofs : List BgeProof}
    (h : verBgeProofs O message ring outs proofs = .ok ()) :
    forall out, out ∈ outs ->
      exists proof, O.verifyBgeProof message ring out.1.blindedTokenId proof = true := by
  induction outs generalizing proofs with
  | nil =>
    intro out hout
    cases hout
  | cons first rest ih =>
    cases proofs with
    | nil => cases h
    | cons proof proofs =>
      rcases rejectIf_bind_ok.mp h with ⟨hfirst, hrest⟩
      exact forall_mem_cons.mpr ⟨⟨proof, by simpa using hfirst⟩, ih hrest⟩

theorem verSurjection_eq_ok (h : verSurjection O message ring tx = .ok ()) :
    forall zout, zout ∈ tx.zyOutputs ->
      exists proof, O.verifyBgeProof message ring zout.blindedTokenId proof = true := by
  unfold verSurjection at h
  cases hproofs : surjectionProofs tx with
  | nil =>
    rw [hproofs] at h
    have hnone : tx.zyOutputs = [] := by simpa [rejectIf_ok] using h
    intro zout hout
    rw [hnone] at hout
    cases hout
  | cons bgeProofs _ =>
    rw [hproofs] at h
    rcases rejectIf_bind_ok.mp h with ⟨_, hbge⟩
    intro zout hout
    unfold Transaction.zyOutputs at hout
    rw [<- map_fst_filterMapIdx TxOut.zyphora? 0] at hout
    rcases mem_map.mp hout with ⟨out, hmem, rfl⟩
    exact verBgeProofs_eq_ok hbge out hmem

def Balanced [AddCommGroup P] (O : TokenOracles P) (message : Hash) (tx : Transaction P) : Prop :=
  exists (burned : P) (dss : DoubleSchnorrSig), burnedCommitment tx = .ok burned ∧
      O.verifyDoubleSchnorrSig message
        ((tx.zySig.map ZySig.pseudoOutAmountCommitment).sum -
          (tx.zyOutputs.map amountCommitment).sum - burned)
        (getTxPubKeyFromExtra tx) dss = true

theorem verBalance_eq_ok [AddCommGroup P] [DecidableEq P] (h : verBalance O message tx = .ok ())
    (hins : zyInputCount tx ≠ 0) : Balanced O message tx := by
  unfold verBalance at h
  rw [if_neg hins] at h
  cases hproofs : balanceProofs tx with
  | nil =>
    rw [hproofs] at h
    cases h
  | cons bal _ =>
    rw [hproofs] at h
    rcases bind_ok.mp h with ⟨burned, hburned, hbind⟩
    rcases rejectIf_bind_ok.mp hbind with ⟨hstatement, hver⟩
    rw [rejectIf_ok, Bool.not_eq_false'] at hver
    rw [bne_eq_false_iff_eq, add_sub_add_left_eq_sub] at hstatement
    rw [hstatement] at hver
    exact ⟨burned, bal.dss, hburned, hver⟩

variable {codec : TokenCodec P Blob}

theorem verRange_eq_ok (h : verRange O codec message tx = .ok ()) (houts : tx.zyOutputs ≠ []) :
    exists rp : ZyOutsRangeProof P, O.verifyVectorUgAggregationProof message
        (tx.zyOutputs.map amountCommitment)
        (tx.zyOutputs.map blindedTokenId) rp.aggregationProof = true ∧
      O.verBulletproofPlus rp.bpp rp.aggregationProof.amountCommitmentsForRpAggregation = true := by
  unfold verRange at h
  cases hproofs : rangeProofs tx with
  | nil =>
    rw [hproofs] at h
    exact absurd (by simpa [rejectIf_ok] using h) houts
  | cons rp _ =>
    rw [hproofs] at h
    rcases rejectIf_bind_ok.mp h with ⟨_, hbind⟩
    rcases bind_ok.mp hbind with ⟨_, _, hbind⟩
    simp only [rejectIf_bind_ok, rejectIf_ok, Bool.not_eq_false'] at hbind
    exact ⟨rp, hbind⟩

structure VerifiedProofs [AddCommGroup P] (O : TokenOracles P)
    (codec : TokenCodec P Blob) (tx : Transaction P) (pubkeys : List (List (Ctkey P)))
    (tokenIdRings : List (List P)) : Prop where
  sig_count : tx.zySig.length = tx.zyInputs.length
  inputs : forall entry, entry ∈ signedInputs tx ->
    O.verZySig (O.getHf21TokenProofMessage tx pubkeys) entry.2
      (pubkeys.getD entry.1.2 []) (tokenIdRings.getD entry.1.2 []) = true
  surjection : exists ring, surjectionRing O codec tx = .ok ring ∧
    forall zout, zout ∈ tx.zyOutputs ->
      exists proof, O.verifyBgeProof (O.getHf21TokenProofMessage tx pubkeys) ring
        zout.blindedTokenId proof = true
  balance : tx.zyInputs ≠ [] -> Balanced O (O.getHf21TokenProofMessage tx pubkeys) tx
  range : tx.zyOutputs ≠ [] -> exists rp : ZyOutsRangeProof P,
    O.verifyVectorUgAggregationProof (O.getHf21TokenProofMessage tx pubkeys)
      (tx.zyOutputs.map amountCommitment)
      (tx.zyOutputs.map blindedTokenId) rp.aggregationProof = true ∧
    O.verBulletproofPlus rp.bpp rp.aggregationProof.amountCommitmentsForRpAggregation = true

theorem verTokenProofs_eq_ok [AddCommGroup P] [DecidableEq P]
    (h : verTokenProofs O codec tx pubkeys tokenIdRings = .ok ()) :
    VerifiedProofs O codec tx pubkeys tokenIdRings := by
  rcases bind_ok.mp h with ⟨_, hset, hbind⟩
  rcases bind_ok.mp hbind with ⟨_, hins, hbind⟩
  rcases rejectIf_bind_ok.mp hbind with ⟨hcount, hbind⟩
  rcases bind_ok.mp hbind with ⟨ring, hring, hbind⟩
  rcases bind_ok.mp hbind with ⟨_, hsurjection, hbind⟩
  rcases rejectIf_bind_ok.mp hbind with ⟨_, hbind⟩
  rcases bind_ok.mp hbind with ⟨_, hbal, hrange⟩
  have hsigs : tx.zySig.length = tx.zyInputs.length := by
    unfold checkProofSet at hset
    simp only [rejectIf_bind_ok, bne_eq_false_iff_eq] at hset
    exact hset.2.2.2.2.2.1
  refine ⟨hsigs, ?_, ⟨ring, hring, verSurjection_eq_ok hsurjection⟩, ?_, verRange_eq_ok hrange⟩
  · intro entry hent
    have hin := checkAll_eq_ok.mp hins entry hent
    unfold verZyInput at hin
    simp only [rejectIf_bind_ok, Bool.not_eq_false'] at hin
    exact hin.2.2.1
  · intro hne
    apply verBalance_eq_ok hbal
    rw [bne_eq_false_iff_eq.mp hcount, hsigs]
    exact fun hzero => hne (length_eq_zero_iff.mp hzero)

end Beldex.Token
