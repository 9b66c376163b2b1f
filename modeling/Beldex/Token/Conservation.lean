import Beldex.Foundation.Matching
import Beldex.Foundation.Pedersen
import Beldex.Foundation.Residues
import Beldex.Token.Proofs
import Mathlib.Data.ZMod.Basic
import Mathlib.Tactic.LinearCombination

/-!
# Conservation of tokens in one transaction

Over formal sums of independent generators every proof of a transaction is a
statement about coefficients, and sound oracles accept true statements only.  The
equation between the amounts that a transaction spends, creates and declares is
spread over a balance proof, a check on the sum of the output commitments and the
surjection proofs.  They say that a transaction without privacy-token inputs
creates what it declares, and that one with such inputs creates what it spends less
what it burns, whatever amount it declares to issue.
-/

namespace Beldex.Token

open Basic Crypto Foundation Foundation.Fallible Foundation.Pedersen List

section

/-! ## Points -/

def groupOrder : Nat :=
  2 ^ 252 + 27742317777372353535851937790883648493

instance : NeZero groupOrder where
  out := by decide

abbrev Scalar := ZMod groupOrder

abbrev Commitment := Point TokenId Scalar

noncomputable instance : DecidableEq Commitment :=
  Classical.decEq _

def amountOf (t : TokenId) (c : Commitment) : Nat :=
  (coeff t c).val

/-! ## Ring members -/

/-- A ring member of a privacy-token input: an amount commitment and its tag. -/
structure Member where
  mask : Commitment
  tag : Commitment

def IsTokenMember (m : Member) : Prop :=
  exists (t : TokenId) (a : Nat), IsTag t m.tag ∧ Opens m.tag m.mask (a : Scalar) ∧ a < 2 ^ 64

/-- A native output of the chain, which is stored with the null token. -/
def IsNativeMember (m : Member) : Prop :=
  m.tag = base (.token nullTid) ∧ exists a y : Scalar, m.mask = a • base .h + y • base .g

def IsChainMember (m : Member) : Prop :=
  IsTokenMember m ∨ IsNativeMember m

def members (ring : List (Ctkey Commitment)) (tags : List Commitment) : List Member :=
  List.zipWith (fun key tag => { mask := key.mask, tag := tag }) ring tags

def Hides (sig : ZySig Commitment) (m : Member) : Prop :=
  (exists f : Scalar, sig.pseudoOutAmountCommitment = m.mask + f • base .g) ∧
    exists r : Scalar, sig.pseudoOutBlindedTokenId = m.tag + r • base .x

/-! ## The statements of the proofs -/

/-- The statement of a ring signature: one of the members is spent. -/
def SpendsOneOf (sig : ZySig Commitment) (ring : List Member) : Prop :=
  exists m, m ∈ ring ∧ Hides sig m

/-- The statement of a surjection proof: the tag blinds one of the sources. -/
def BlindsOneOf (tag : Commitment) (ring : List Commitment) : Prop :=
  exists source, source ∈ ring ∧ exists r : Scalar, tag = source + r • base .x

/-- The statement of a balance proof: no amount is left over. -/
def IsResidual (p : Commitment) : Prop :=
  exists s : Scalar, p = s • base .x

def IsBlinding (p : Commitment) : Prop :=
  exists a b : Scalar, p = a • base .g + b • base .x

def AggregatesTo (c tag v : Commitment) : Prop :=
  exists a y : Scalar, Opens tag c a ∧ 8 • v = a • base .h + y • base .g

def AllAggregateTo (cs tags vs : List Commitment) : Prop :=
  List.Forall₂ (fun (entry : Commitment × Commitment) v => AggregatesTo entry.1 entry.2 v)
    (cs.zip tags) vs

def InRange (v : Commitment) : Prop :=
  exists (n : Nat) (y : Scalar), n < 2 ^ 64 ∧ 8 • v = (n : Scalar) • base .h + y • base .g

/-- Oracles that accept true statements only. -/
structure SoundOracles (O : TokenOracles Commitment) : Prop where
  tid2rct_eq : forall t, O.tid2rct t = base (.token t)
  zySig : forall {message sig ring tags},
    O.verZySig message sig ring tags = true -> SpendsOneOf sig (members ring tags)
  bgeProof : forall {message ring tag proof},
    O.verifyBgeProof message ring tag proof = true -> BlindsOneOf tag ring
  doubleSchnorr : forall {message p key sig},
    O.verifyDoubleSchnorrSig message p key sig = true -> IsResidual p
  composition : forall {message p proof},
    O.verifyLinearCompositionProof message p proof = true -> IsBlinding p
  aggregation : forall {message cs tags proof},
    O.verifyVectorUgAggregationProof message cs tags proof = true ->
    AllAggregateTo cs tags proof.amountCommitmentsForRpAggregation
  range : forall {bpp vs}, O.verBulletproofPlus bpp vs = true -> forall v, v ∈ vs -> InRange v

open Classical in
noncomputable def honestOracles : TokenOracles Commitment where
  nullPoint := 0
  tid2rct := fun t => base (.token t)
  isInMainSubgroup := fun _ => true
  getTransactionPrefixHash := fun _ => nullHash
  getHf21TokenProofMessage := fun _ _ => nullHash
  -- Every key has a discrete logarithm, so an ownership statement is always true.
  verifySchnorrSig := fun _ _ _ => true
  verifyLinearCompositionProof := fun _ p _ => decide (IsBlinding p)
  verifyDoubleSchnorrSig := fun _ p _ _ => decide (IsResidual p)
  verifyBgeProof := fun _ ring tag _ => decide (BlindsOneOf tag ring)
  verifyVectorUgAggregationProof := fun _ cs tags proof =>
    decide (AllAggregateTo cs tags proof.amountCommitmentsForRpAggregation)
  verBulletproofPlus := fun _ vs => decide (forall v, v ∈ vs -> InRange v)
  verZySig := fun _ sig ring tags => decide (SpendsOneOf sig (members ring tags))

theorem soundOracles_honestOracles : SoundOracles honestOracles where
  tid2rct_eq := fun _ => rfl
  zySig := fun h => by simpa [honestOracles] using h
  bgeProof := fun h => by simpa [honestOracles] using h
  doubleSchnorr := fun h => by simpa [honestOracles] using h
  composition := fun h => by simpa [honestOracles] using h
  aggregation := fun h => by simpa [honestOracles] using h
  range := fun h => by simpa [honestOracles] using h

/-! ## Amounts of chain outputs -/

theorem val_natCast_of_lt {a : Nat} (h : a < 2 ^ 64) : ((a : Nat) : Scalar).val = a := by
  apply ZMod.val_natCast_of_lt
  exact lt_of_lt_of_le h (by decide)

theorem amountOf_of_opens {s t : TokenId} {tag c : Commitment} {a : Nat} (htag : IsTag t tag)
    (hc : Opens tag c (a : Scalar)) (ha : a < 2 ^ 64) : amountOf s c = if s = t then a else 0 := by
  unfold amountOf
  rw [coeff_of_opens htag hc]
  split
  · exact val_natCast_of_lt ha
  · exact ZMod.val_zero

variable {m : Member}

theorem amountOf_of_isNativeMember (h : IsNativeMember m) (t : TokenId) :
    amountOf t m.mask = 0 := by
  rcases h with ⟨_, a, y, hmask⟩
  unfold amountOf
  rw [hmask]
  simp

theorem IsChainMember.amountOf_le (h : IsChainMember m) (t : TokenId) :
    amountOf t m.mask <= 2 ^ 64 := by
  rcases h with ⟨s, a, htag, hopen, ha⟩ | hnative
  · rw [amountOf_of_opens htag hopen ha]
    split <;> omega
  · rw [amountOf_of_isNativeMember hnative]
    exact Nat.zero_le _

theorem IsChainMember.isTag (h : IsChainMember m) : exists t, IsTag t m.tag := by
  rcases h with ⟨t, _, htag, _⟩ | ⟨htag, _⟩
  · exact ⟨t, htag⟩
  · exact ⟨nullTid, 0, by rw [htag, zero_smul, add_zero]⟩

theorem Hides.isTag {sig : ZySig Commitment} (h : Hides sig m)
    {t : TokenId} (htag : IsTag t m.tag) : IsTag t sig.pseudoOutBlindedTokenId := by
  rcases h.2 with ⟨r, hr⟩
  rw [hr]
  exact htag.add_smul_x r

end

variable {Blob : Type}

/-! ## Amounts of a transaction -/

def SpentBy (pubkeys : List (List (Ctkey Commitment))) (tokenIdRings : List (List Commitment))
    (entry : (TxInZyInput × Nat) × ZySig Commitment) (m : Member) : Prop :=
  m ∈ members (pubkeys.getD entry.1.2 []) (tokenIdRings.getD entry.1.2 []) ∧ Hides entry.2 m

def Spends (tx : Transaction Commitment) (pubkeys : List (List (Ctkey Commitment)))
    (tokenIdRings : List (List Commitment)) (spent : List Member) : Prop :=
  List.Forall₂ (SpentBy pubkeys tokenIdRings) (signedInputs tx) spent

def outputMember (zout : TxOutZyphora Commitment) : Member where
  mask := zout.amountCommitment
  tag := zout.blindedTokenId

def outputMembers (tx : Transaction Commitment) : List Member :=
  tx.zyOutputs.map outputMember

def totalAmount (t : TokenId) (ms : List Member) : Nat :=
  (ms.map fun m => amountOf t m.mask).sum

def operationDelta {P : Type} (codec : TokenCodec P Blob) (t : TokenId)
    (op : TokenDescriptorOperation P) : Int :=
  if getOrCalculateTokenId codec op = t then
    match op.operationType with
    | .registerToken => op.descriptor.currentSupply.toNat
    | .mintToken => op.amount.toNat
    | .burnToken => -op.amount.toNat
    | _ => 0
  else
    0

def declaredNet {P : Type} (codec : TokenCodec P Blob) (tx : Transaction P) (t : TokenId) : Int :=
  (tx.tokenOperations.map (operationDelta codec t)).sum

def isIssue {P : Type} (op : TokenDescriptorOperation P) : Bool :=
  op.operationType == .registerToken || op.operationType == .mintToken

/-- A transaction that declares new units and spends privacy-token inputs too. -/
def IssuesWhileSpending {P : Type} (tx : Transaction P) : Prop :=
  tx.zyInputs ≠ [] ∧
    exists op, op ∈ tx.tokenOperations ∧ isIssue op = true ∧ 0 < (declaredAmount op).toNat

/-- A transaction whose vectors have lengths that a `size_t` can hold. -/
def Indexable {P : Type} (tx : Transaction P) : Prop :=
  tx.vin.length < 2 ^ 64 ∧ tx.vout.length < 2 ^ 64

/-! ## Inputs and outputs -/

section

variable {O : TokenOracles Commitment} {codec : TokenCodec Commitment Blob}
  {db : TokenDb Blob} {hf : Hf} {tx : Transaction Commitment}
  {pubkeys : List (List (Ctkey Commitment))} {tokenIdRings : List (List Commitment)}
  {spent : List Member}

theorem exists_spends (hO : SoundOracles O) (h : VerifiedProofs O codec tx pubkeys tokenIdRings) :
    exists spent, Spends tx pubkeys tokenIdRings spent := by
  apply Matching.exists_forall₂
  intro entry hent
  exact hO.zySig (h.inputs entry hent)

section

variable (hcount : tx.zySig.length = tx.zyInputs.length)
  (hspent : Spends tx pubkeys tokenIdRings spent)
include hcount hspent

theorem sum_coeff_pseudoOut
    (t : TokenId) :
    coeff t (tx.zySig.map ZySig.pseudoOutAmountCommitment).sum =
      (spent.map fun m => coeff t m.mask).sum := by
  rw [coeff_sum, <- map_snd_signedInputs hcount, map_map, map_map]
  apply Matching.sum_map_eq hspent
  intro entry m hm
  rcases hm.2.1 with ⟨f, hf⟩
  simp [hf]

theorem length_spent
    : spent.length = tx.zyInputs.length := by
  rw [<- hspent.length_eq, <- hcount, <- length_map, map_snd_signedInputs hcount]

end

theorem isTag_of_mem_surjectionRing (hO : SoundOracles O)
    (hcount : tx.zySig.length = tx.zyInputs.length) (hspent : Spends tx pubkeys tokenIdRings spent)
    (hchain : forall m, m ∈ spent -> IsChainMember m) {ring : List Commitment}
    (hring : surjectionRing O codec tx = .ok ring) {source : Commitment}
    (hsource : source ∈ ring) : exists t, IsTag t source := by
  have hinput : source ∈ tx.zySig.map ZySig.pseudoOutBlindedTokenId ->
      exists t, IsTag t source := by
    intro hmem
    rw [<- map_snd_signedInputs hcount, map_map] at hmem
    rcases mem_map.mp hmem with ⟨entry, hent, rfl⟩
    rcases Matching.exists_right_of_mem hspent hent with ⟨m, hm, _, hhides⟩
    rcases (hchain m hm).isTag with ⟨t, htag⟩
    exact ⟨t, hhides.isTag htag⟩
  unfold surjectionRing at hring
  split at hring
  · rcases bind_ok.mp hring with ⟨tokenId, _, hok⟩
    cases hok
    rcases mem_append.mp hsource with hmem | hmem
    · exact hinput hmem
    · rw [mem_singleton.mp hmem, hO.tid2rct_eq]
      exact ⟨tokenId, 0, by rw [zero_smul, add_zero]⟩
  · cases hring
    exact hinput hsource

theorem isTokenMember_output (hO : SoundOracles O)
    (h : VerifiedProofs O codec tx pubkeys tokenIdRings)
    (hspent : Spends tx pubkeys tokenIdRings spent)
    (hchain : forall m, m ∈ spent -> IsChainMember m) {m : Member}
    (hm : m ∈ outputMembers tx) : IsTokenMember m := by
  rcases mem_map.mp hm with ⟨zout, hout, rfl⟩
  rcases h.surjection with ⟨ring, hring, hproofs⟩
  rcases hproofs zout hout with ⟨proof, hbge⟩
  rcases hO.bgeProof hbge with ⟨source, hsource, r, htag⟩
  rcases isTag_of_mem_surjectionRing hO h.sig_count hspent hchain hring hsource with
    ⟨t, ht⟩
  rcases h.range (ne_nil_of_mem hout) with ⟨rp, hagg, hrange⟩
  have hall := hO.aggregation hagg
  unfold AllAggregateTo at hall
  rw [zip_map'] at hall
  rcases Matching.exists_right_of_mem hall (mem_map_of_mem hout) with
    ⟨v, hv, a, y, hopens, hv8⟩
  rcases hO.range hrange v hv with ⟨n, z, hn, hv8'⟩
  have han : a = n := amount_unique (hv8.symm.trans hv8')
  refine ⟨t, n, ?_, ?_, hn⟩
  · rw [outputMember, htag]
    exact ht.add_smul_x r
  · rw [<- han]
    exact hopens

/-! ## What the transaction declares and what the proofs enforce -/

variable {op : TokenDescriptorOperation Commitment}

theorem isEmission_eq_isIssue (h : typeMatches op tx.type = true) :
    isEmission tx.type = isIssue op := by
  unfold typeMatches at h
  unfold isEmission isIssue
  cases hop : op.operationType with
  | undefined =>
    rw [hop] at h
    cases h
  | _ => rw [hop] at h; rw [beq_iff_eq.mp h]; rfl

variable {next state : TokenConsensusState}

theorem coeff_amountCommitment (hO : SoundOracles O)
    (hop : ValidatedOperation O codec db tx op state next)
    (hkind : op.operationType = .registerToken ∨ op.operationType = .mintToken ∨
      op.operationType = .burnToken) (t : TokenId) :
    coeff t op.amountCommitment =
      if t = getOrCalculateTokenId codec op then
        (((declaredAmount op).toNat : Nat) : Scalar)
      else 0 := by
  rcases (hop.amountCommitment_checked hkind).1 with ⟨proof, hproof⟩
  rcases hO.composition hproof with ⟨a, b, hab⟩
  have hcoeff := congrArg (coeff t) hab
  rw [hO.tid2rct_eq] at hcoeff
  simp only [coeff_sub, coeff_nsmul, coeff_base_token, coeff_add, coeff_smul,
    coeff_base_g, coeff_base_x, mul_zero, add_zero, mul_ite, mul_one] at hcoeff
  exact sub_eq_zero.mp hcoeff

theorem sum_outputs_of_isIssue (hop : ValidatedOperation O codec db tx op state next)
    (hissue : isIssue op = true) :
    (tx.zyOutputs.map TxOutZyphora.amountCommitment).sum = op.amountCommitment := by
  have hkind : op.operationType = .registerToken ∨ op.operationType = .mintToken := by
    simpa [isIssue] using hissue
  apply (hop.amountCommitment_checked (by tauto)).2
  rcases hkind with h | h <;> simp [h]

theorem zyOutputs_eq_nil (hO : SoundOracles O) (h : VerifiedProofs O codec tx pubkeys tokenIdRings)
    (hins : tx.zyInputs = []) (hemis : isEmission tx.type = false) : tx.zyOutputs = [] := by
  have hsigs : tx.zySig = [] := by
    apply length_eq_zero_iff.mp
    rw [h.sig_count, hins, length_nil]
  rcases h.surjection with ⟨ring, hring, hproofs⟩
  unfold surjectionRing at hring
  rw [hemis, hsigs] at hring
  cases hring
  by_contra hne
  rcases exists_mem_of_ne_nil _ hne with ⟨zout, hout⟩
  rcases hproofs zout hout with ⟨proof, hbge⟩
  rcases hO.bgeProof hbge with ⟨source, hsource, _⟩
  cases hsource

theorem isEmission_eq_false (h : VerifiedProofs O codec tx pubkeys tokenIdRings)
    (hops : tx.tokenOperations = []) : isEmission tx.type = false := by
  rcases h.surjection with ⟨ring, hring, _⟩
  by_contra hne
  unfold surjectionRing emissionTokenId getTokenDescriptorOperationFromTxExtra at hring
  rw [if_pos (by simpa using hne), hops] at hring
  cases hring

/-- What the proofs enforce: an issue beside privacy-token inputs adds nothing. -/
def realisedNet (codec : TokenCodec Commitment Blob) (tx : Transaction Commitment)
    (t : TokenId) : Int :=
  if tx.zyInputs = [] then
    declaredNet codec tx t
  else
    (tx.tokenOperations.map fun op =>
      if isIssue op then 0 else operationDelta codec t op).sum

structure AcceptedTx (O : TokenOracles Commitment) (codec : TokenCodec Commitment Blob)
    (db : TokenDb Blob) (hf : Hf) (tx : Transaction Commitment)
    (pubkeys : List (List (Ctkey Commitment))) (tokenIdRings : List (List Commitment)) : Prop where
  proofs : verTokenProofs O codec tx pubkeys tokenIdRings = .ok ()
  operations : validateTxTokenOperationsAgainstDb O codec db tx hf = .ok ()

theorem coeff_outputs_of_no_inputs (hO : SoundOracles O)
    (h : AcceptedTx O codec db hf tx pubkeys tokenIdRings) (hins : tx.zyInputs = []) (t : TokenId) :
    coeff t (tx.zyOutputs.map TxOutZyphora.amountCommitment).sum =
      ((declaredNet codec tx t : Int) : Scalar) := by
  have hproofs := verTokenProofs_eq_ok h.proofs
  have hnone : isEmission tx.type = false ->
      coeff t (tx.zyOutputs.map TxOutZyphora.amountCommitment).sum = 0 := by
    intro hemis
    rw [zyOutputs_eq_nil hO hproofs hins hemis]
    rfl
  unfold declaredNet
  rcases validateTxTokenOperationsAgainstDb_cases h.operations with
    hops | ⟨op, state, next, hops, hop⟩
  · rw [hnone (isEmission_eq_false hproofs hops), hops]
    simp
  · rw [hops, map_singleton, sum_singleton]
    cases hkind : op.operationType with
    | undefined =>
      have hmatch := hop.type_matches
      simp [typeMatches, hkind] at hmatch
    | updateToken =>
      rw [hnone (by rw [isEmission_eq_isIssue hop.type_matches]; simp [isIssue, hkind])]
      simp [operationDelta, hkind]
    | burnToken => exact absurd hins (hop.burn_spends hkind)
    | _ =>
      rw [sum_outputs_of_isIssue hop (by simp [isIssue, hkind]),
        coeff_amountCommitment hO hop (by simp [hkind])]
      simp [operationDelta, declaredAmount, hkind, eq_comm]

variable {burned : Commitment}

theorem burnedCommitment_eq_zero {tx : Transaction Commitment} (htype : tx.type ≠ .burnToken)
    (h : burnedCommitment tx = .ok burned) : burned = 0 := by
  unfold burnedCommitment at h
  rw [if_neg htype] at h
  cases h
  rfl

section

variable (hO : SoundOracles O) (h : AcceptedTx O codec db hf tx pubkeys tokenIdRings)
include hO h

theorem coeff_burnedCommitment
    (hburned : burnedCommitment tx = .ok burned) (t : TokenId) :
    coeff t burned =
      -(((tx.tokenOperations.map fun op =>
        if isIssue op then 0 else operationDelta codec t op).sum : Int) : Scalar) := by
  rcases validateTxTokenOperationsAgainstDb_cases h.operations with
    hops | ⟨op, state, next, hops, hop⟩
  · by_cases htype : tx.type = .burnToken
    · unfold burnedCommitment getTokenDescriptorOperationFromTxExtra at hburned
      rw [hops, if_pos htype] at hburned
      cases hburned
    · rw [burnedCommitment_eq_zero htype hburned, hops]
      simp
  · have hmatch := hop.type_matches
    unfold typeMatches at hmatch
    have hzero : op.operationType ≠ .burnToken -> burned = 0 := by
      intro hkind
      refine burnedCommitment_eq_zero ?_ hburned
      intro htype
      rw [htype] at hmatch
      cases hop' : op.operationType with
      | burnToken => exact hkind hop'
      | _ =>
        rw [hop'] at hmatch
        cases hmatch
    rw [hops, map_singleton, sum_singleton]
    cases hkind : op.operationType with
    | undefined =>
      rw [hkind] at hmatch
      cases hmatch
    | updateToken =>
      rw [hzero (by simp [hkind])]
      simp [isIssue, operationDelta, hkind]
    | burnToken =>
      rw [hkind] at hmatch
      unfold burnedCommitment getTokenDescriptorOperationFromTxExtra at hburned
      rw [hops, if_pos (beq_iff_eq.mp hmatch)] at hburned
      rcases rejectIf_bind_ok.mp hburned with ⟨_, hok⟩
      cases hok
      rw [coeff_amountCommitment hO hop (by simp [hkind])]
      by_cases hid : t = getOrCalculateTokenId codec op
      · simp [isIssue, operationDelta, declaredAmount, hkind, hid]
      · simp [isIssue, operationDelta, hkind, hid, Ne.symm hid]
    | _ =>
      rw [hzero (by simp [hkind])]
      simp [isIssue, hkind]

theorem coeff_net
    (hspent : Spends tx pubkeys tokenIdRings spent) (t : TokenId) :
    (tx.zyOutputs.map fun zout => coeff t zout.amountCommitment).sum -
        (spent.map fun m => coeff t m.mask).sum =
      ((realisedNet codec tx t : Int) : Scalar) := by
  have hproofs := verTokenProofs_eq_ok h.proofs
  have houts : (tx.zyOutputs.map fun zout => coeff t zout.amountCommitment).sum =
      coeff t (tx.zyOutputs.map TxOutZyphora.amountCommitment).sum := by
    rw [coeff_sum, map_map]
    rfl
  rw [houts]
  unfold realisedNet
  by_cases hins : tx.zyInputs = []
  · have hnil : spent = [] := by
      apply length_eq_zero_iff.mp
      rw [length_spent hproofs.sig_count hspent, hins, length_nil]
    rw [if_pos hins, coeff_outputs_of_no_inputs hO h hins, hnil]
    simp
  · rw [if_neg hins]
    rcases hproofs.balance hins with ⟨burned, dss, hburned, hdss⟩
    rcases hO.doubleSchnorr hdss with ⟨x, hx⟩
    have hcoeff := congrArg (coeff t) hx
    rw [coeff_sub, coeff_sub, sum_coeff_pseudoOut hproofs.sig_count hspent,
      coeff_burnedCommitment hO h hburned, coeff_smul, coeff_base_x, mul_zero] at hcoeff
    linear_combination -hcoeff

end

/-! ## From residues to amounts -/

theorem operationDelta_of_isIssue (h : isIssue op = true) (t : TokenId) :
    operationDelta codec t op =
      if getOrCalculateTokenId codec op = t then ((declaredAmount op).toNat : Int)
      else 0 := by
  have hkind : op.operationType = .registerToken ∨ op.operationType = .mintToken := by
    simpa [isIssue] using h
  unfold operationDelta declaredAmount
  rcases hkind with hkind | hkind
  · simp [hkind]
  · simp [hkind]

theorem natAbs_realisedNet_lt (h : AcceptedTx O codec db hf tx pubkeys tokenIdRings)
    (t : TokenId) : (realisedNet codec tx t).natAbs < 2 ^ 64 := by
  unfold realisedNet declaredNet
  rcases validateTxTokenOperationsAgainstDb_cases h.operations with
    hops | ⟨op, state, next, hops, hop⟩
  · simp [hops]
  · have hsup := op.descriptor.currentSupply.toNat_lt
    have hamt := op.amount.toNat_lt
    have hdelta : (operationDelta codec t op).natAbs < 2 ^ 64 := by
      unfold operationDelta
      split
      · split <;> omega
      · decide
    simp only [hops, map_singleton, sum_singleton]
    split
    · exact hdelta
    · split
      · decide
      · exact hdelta

theorem length_zyInputs_le (tx : Transaction Commitment) : tx.zyInputs.length <= tx.vin.length :=
  length_filterMap_le _ _

theorem length_zyOutputs_le (tx : Transaction Commitment) : tx.zyOutputs.length <= tx.vout.length :=
  length_filterMap_le _ _

theorem net_lt_groupOrder {m n k : Nat} (hm : m <= 2 ^ 64) (hn : n <= 2 ^ 64)
    (hk : k < 2 ^ 64) : m * 2 ^ 64 + n * 2 ^ 64 + k < groupOrder := by
  have horder : 3 * 2 ^ 128 < groupOrder := by
    decide
  generalize groupOrder = order at *
  omega

theorem totalAmount_net (hO : SoundOracles O) (h : AcceptedTx O codec db hf tx pubkeys tokenIdRings)
    (hsize : Indexable tx) (hspent : Spends tx pubkeys tokenIdRings spent)
    (hchain : forall m, m ∈ spent -> IsChainMember m) (t : TokenId) :
    (totalAmount t (outputMembers tx) : Int) - totalAmount t spent = realisedNet codec tx t := by
  have hproofs := verTokenProofs_eq_ok h.proofs
  have hnet := coeff_net hO h hspent t
  have hlen := length_spent hproofs.sig_count hspent
  have hin := length_zyInputs_le tx
  have hout := length_zyOutputs_le tx
  have hk := natAbs_realisedNet_lt h t
  have htotal : forall ms : List Member,
      Residues.total (ms.map fun m => coeff t m.mask) = totalAmount t ms := by
    intro ms
    unfold Residues.total totalAmount
    rw [map_map]
    rfl
  have houtMap : (tx.zyOutputs.map fun zout => coeff t zout.amountCommitment) =
      (outputMembers tx).map fun m => coeff t m.mask := by
    unfold outputMembers
    rw [map_map]
    rfl
  rw [houtMap, Residues.sum_sub_sum_eq_iff (b := 2 ^ 64)] at hnet
  · rw [htotal, htotal] at hnet
    exact hnet
  · intro x hx
    rcases mem_map.mp hx with ⟨m, hm, rfl⟩
    have hmember := isTokenMember_output hO hproofs hspent hchain hm
    exact IsChainMember.amountOf_le (Or.inl hmember) t
  · intro y hy
    rcases mem_map.mp hy with ⟨m, hm, rfl⟩
    exact (hchain m hm).amountOf_le t
  · rw [length_map, length_map, outputMembers, length_map, hlen]
    exact net_lt_groupOrder (le_trans hout (le_of_lt hsize.2)) (le_trans hin (le_of_lt hsize.1)) hk

theorem realisedNet_eq_declaredNet_iff (h : AcceptedTx O codec db hf tx pubkeys tokenIdRings) :
    (forall t, realisedNet codec tx t = declaredNet codec tx t) <-> ¬ IssuesWhileSpending tx := by
  constructor
  · rintro hall ⟨hins, op, hmem, hissue, hpos⟩
    rcases validateTxTokenOperationsAgainstDb_cases h.operations with
      hops | ⟨op', state, next, hops, hop⟩
    · rw [hops] at hmem
      cases hmem
    · rw [hops, mem_singleton] at hmem
      subst hmem
      have hnet := hall (getOrCalculateTokenId codec op)
      unfold realisedNet declaredNet at hnet
      rw [if_neg hins, hops, map_singleton, sum_singleton,
        map_singleton, sum_singleton, if_pos hissue] at hnet
      rw [operationDelta_of_isIssue hissue, if_pos rfl] at hnet
      omega
  · intro hnot t
    unfold realisedNet
    split
    · rfl
    next hins =>
      congr 1
      apply map_congr_left
      intro op hmem
      split
      next hissue =>
        have hzero : (declaredAmount op).toNat = 0 := by
          by_contra hne
          exact hnot ⟨hins, op, hmem, hissue, Nat.pos_of_ne_zero hne⟩
        rw [operationDelta_of_isIssue hissue, hzero]
        simp
      · rfl

end

end Beldex.Token
