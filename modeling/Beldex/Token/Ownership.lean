import Beldex.Token.Validate

/-!
# Who may mint and update

The ownership proof of a transaction is verified against the owner that the
database holds before the block, while the operation itself is applied after
all earlier operations of the block.  The two owners agree as long as no earlier
update of the same token in the block has named another one.
-/

namespace Beldex.Token

open Basic Crypto Foundation Foundation.Fallible Table List

variable {P Blob : Type} {codec : TokenCodec P Blob} {db : TokenDb Blob}

/-! ## The pending states of a block -/

variable {op : TokenDescriptorOperation P}

def lastNamedOwner (codec : TokenCodec P Blob) (t : TokenId)
    (ops : List (TokenDescriptorOperation P)) (named : Option PublicKey) : Option PublicKey :=
  ops.foldl (fun named op =>
    if op.operationType = .updateToken ∧ getOrCalculateTokenId codec op = t then
      some op.descriptor.owner
    else
      named) named

theorem TokenStep.owner_eq {s s' : TokenConsensusState} (h : TokenStep op s s')
    (hold : s.existing = true) :
    s'.descriptor.owner = if op.operationType = .updateToken then op.descriptor.owner
      else s.descriptor.owner := by
  cases h with
  | register _ hnew =>
    rw [hold] at hnew
    cases hnew
  | mint hop | burn hop => simp [hop, TokenConsensusState.setSupply]
  | update hop => simp [hop]

variable {ops : List (TokenDescriptorOperation P)}

theorem owner_of_run {t : TokenId} (stored : TokenConsensusState) (named : Option PublicKey)
    {pending pending' : Table TokenId TokenConsensusState}
    {state : TokenConsensusState} (hst : stateIn codec db pending t = .ok state)
    (hexisting : state.existing = true)
    (howner : state.descriptor.owner = named.getD stored.descriptor.owner)
    (hrun : run (applyPending codec db) pending ops = .ok pending') :
    exists state', stateIn codec db pending' t = .ok state' ∧ state'.descriptor.owner =
        (lastNamedOwner codec t ops named).getD stored.descriptor.owner := by
  induction ops generalizing pending state named with
  | nil =>
    cases hrun
    exact ⟨state, hst, howner⟩
  | cons op rest ih =>
    rcases run_cons_ok.mp hrun with ⟨pending1, hfirst, hrest⟩
    rcases bind_ok.mp hfirst with ⟨current, hcur, hbind⟩
    rcases bind_ok.mp hbind with ⟨next, happly, hok⟩
    cases hok
    have hstep := applyTokenOperationToState_step happly
    by_cases hid : getOrCalculateTokenId codec op = t
    · rw [hid] at hcur hrest
      rw [hst] at hcur
      cases hcur
      refine ih _ ?_ hstep.existing_eq_true ?_ hrest
      · unfold stateIn
        rw [find?_set_self]
      rw [hstep.owner_eq hexisting]
      by_cases hop : op.operationType = .updateToken
      · simp [hop, hid]
      · simp [hop, howner]
    · refine ih _ ?_ hexisting ?_ hrest
      · unfold stateIn
        rw [find?_set_of_ne _ _ (Ne.symm hid)]
        exact hst
      · simp [hid, howner]

/-! ## Accepted blocks -/

section

variable [DecidableEq P] {O : TokenOracles P} {hf : Hf}
  {tx : Transaction P} {pending' pending : Table TokenId TokenConsensusState}

theorem applyPending_of_pendingTokenOperation
    (h : run (pendingTokenOperation O codec db tx) pending ops = .ok pending') :
    run (applyPending codec db) pending ops = .ok pending' := by
  induction ops generalizing pending with
  | nil => exact h
  | cons op rest ih =>
    rcases run_cons_ok.mp h with ⟨pending1, hfirst, hrest⟩
    rcases bind_ok.mp hfirst with ⟨_, _, hbind⟩
    rcases rejectIf_bind_ok.mp hbind with ⟨_, happly⟩
    exact run_cons_ok.mpr ⟨pending1, happly, ih hrest⟩

variable [AddCommGroup P]

theorem handleBlockTokenTx_eq_ok (h : handleBlockTokenTx O codec db hf pending tx = .ok pending') :
    validateTxTokenOperationsAgainstDb O codec db tx hf = .ok () ∧
      run (applyPending codec db) pending tx.tokenOperations = .ok pending' := by
  rcases bind_ok.mp h with ⟨_, hvalid, hrest⟩
  refine ⟨hvalid, ?_⟩
  split at hrest
  · exact applyPending_of_pendingTokenOperation hrest
  next hfork =>
    cases hrest
    unfold validateTxTokenOperationsAgainstDb at hvalid
    rw [if_pos ((Hf.lt_iff_not_le _ _).mpr hfork), rejectIf_ok] at hvalid
    have hnil : tx.tokenOperations = [] := by
      simpa using hvalid
    rw [hnil]
    rfl

variable {txs : List (Transaction P)}

theorem handleBlockTokens_eq_ok
    (h : run (handleBlockTokenTx O codec db hf) pending txs = .ok pending') :
    (forall tx, tx ∈ txs -> validateTxTokenOperationsAgainstDb O codec db tx hf = .ok ()) ∧
    run (applyPending codec db) pending (blockOperations txs) = .ok pending' := by
  induction txs generalizing pending with
  | nil => exact ⟨fun _ hmem => (not_mem_nil hmem).elim, h⟩
  | cons tx rest ih =>
    rcases run_cons_ok.mp h with ⟨pending1, hfirst, hrest⟩
    rcases handleBlockTokenTx_eq_ok hfirst with ⟨hvalid, hops⟩
    rcases ih hrest with ⟨hvalids, hopss⟩
    constructor
    · exact forall_mem_cons.mpr ⟨hvalid, hvalids⟩
    · exact run_append_eq_ok.mpr ⟨pending1, hops, hopss⟩

/-! ## Authorisation -/

def NeedsOwner (op : TokenDescriptorOperation P) : Prop :=
  op.operationType = .mintToken ∨ op.operationType = .updateToken

/-- Every mint and update of a block is signed by the owner that the token has
after all earlier operations of the block. -/
def Authorised (O : TokenOracles P) (codec : TokenCodec P Blob) (db : TokenDb Blob)
    (txs : List (Transaction P)) : Prop :=
  forall before tx after, txs = before ++ tx :: after ->
    forall op, op ∈ tx.tokenOperations -> NeedsOwner op -> exists pending state sig,
        run (applyPending codec db) empty (blockOperations before) = .ok pending ∧
        stateIn codec db pending (getOrCalculateTokenId codec op) = .ok state ∧
        sig ∈ ownershipProofs tx ∧
        O.verifySchnorrSig (O.getTransactionPrefixHash tx) state.descriptor.owner sig = true

/-- Before each mint and update, the last earlier update of the token in the block
names the owner that was stored before the block. -/
def OwnersKept (codec : TokenCodec P Blob) (db : TokenDb Blob)
    (txs : List (Transaction P)) : Prop :=
  forall before tx after, txs = before ++ tx :: after ->
    forall op, op ∈ tx.tokenOperations -> NeedsOwner op -> forall stored owner,
        loadTokenState codec db (getOrCalculateTokenId codec op) = .ok stored ->
        lastNamedOwner codec (getOrCalculateTokenId codec op) (blockOperations before)
          none = some owner -> owner = stored.descriptor.owner

def SchnorrBinding (O : TokenOracles P) : Prop :=
  forall msg key key' sig, O.verifySchnorrSig msg key sig = true ->
    O.verifySchnorrSig msg key' sig = true -> key = key'

theorem storedOwner_signed (hvalid : validateTxTokenOperationsAgainstDb O codec db tx hf = .ok ())
    (hop : op ∈ tx.tokenOperations) (hneeds : NeedsOwner op) :
    exists stored sig, loadTokenState codec db (getOrCalculateTokenId codec op) = .ok stored ∧
      stored.existing = true ∧ sig ∈ ownershipProofs tx ∧
      O.verifySchnorrSig (O.getTransactionPrefixHash tx) stored.descriptor.owner sig =
        true := by
  rcases validateTxTokenOperationsAgainstDb_cases hvalid with
    hnil | ⟨op', stored, next, hsingle, hpassed⟩
  · rw [hnil] at hop
    cases hop
  · rw [hsingle, mem_singleton] at hop
    subst hop
    have howner := hpassed.ownership
    unfold checkOwnership at howner
    unfold NeedsOwner at hneeds
    rw [if_pos hneeds, rejectIf_bind_ok, rejectIf_ok] at howner
    simp only [Bool.not_eq_false', any_eq_true] at howner
    rcases howner with ⟨hexisting, sig, hmem, hsig⟩
    exact ⟨stored, sig, hpassed.loaded, hexisting, hmem, hsig⟩

variable {final : Table TokenId TokenConsensusState}

/-- At every mint and update of an accepted block, the pending owner is the last
named one, or the stored one when none is named. -/
theorem pendingOwner_of_accepted (hok : handleBlockTokens O codec db hf txs = .ok final)
    {before after : List (Transaction P)} (hsplit : txs = before ++ tx :: after) {t : TokenId}
    {stored : TokenConsensusState} (hload : loadTokenState codec db t = .ok stored)
    (hexisting : stored.existing = true) :
    exists pending state,
      run (applyPending codec db) empty (blockOperations before) = .ok pending ∧
      stateIn codec db pending t = .ok state ∧ state.descriptor.owner =
        (lastNamedOwner codec t (blockOperations before) none).getD stored.descriptor.owner := by
  rw [hsplit] at hok
  rcases run_append_eq_ok.mp hok with ⟨pending, hbef, _⟩
  have hrun := (handleBlockTokens_eq_ok hbef).2
  have hstored : stateIn codec db empty t = .ok stored := hload
  rcases owner_of_run stored none hstored hexisting rfl hrun with
    ⟨state, hst, howner⟩
  exact ⟨pending, state, hrun, hst, howner⟩

theorem authorised_of_ownersKept (hok : handleBlockTokens O codec db hf txs = .ok final)
    (hkept : OwnersKept codec db txs) : Authorised O codec db txs := by
  intro before tx after hsplit op hop hneeds
  have hmem : tx ∈ txs := by
    rw [hsplit]
    exact mem_append_right _ mem_cons_self
  rcases storedOwner_signed ((handleBlockTokens_eq_ok hok).1 tx hmem) hop hneeds with
    ⟨stored, sig, hload, hexisting, hsig, hver⟩
  rcases pendingOwner_of_accepted hok hsplit hload hexisting with
    ⟨pending, state, hrun, hst, howner⟩
  have hsame : state.descriptor.owner = stored.descriptor.owner := by
    cases hnamed : lastNamedOwner codec (getOrCalculateTokenId codec op)
      (blockOperations before) none with
    | none =>
      rw [hnamed] at howner
      exact howner
    | some owner =>
      rw [hnamed] at howner
      exact howner.trans (hkept before tx after hsplit op hop hneeds stored owner hload hnamed)
  rw [<- hsame] at hver
  exact ⟨pending, state, sig, hrun, hst, hsig, hver⟩

omit [DecidableEq P] [AddCommGroup P] in
theorem ownershipProof_unique {sig sig' : SchnorrSig} (hsingle : (ownershipProofs tx).length <= 1)
    (hsig : sig ∈ ownershipProofs tx) (hsig' : sig' ∈ ownershipProofs tx) : sig' = sig := by
  cases hproofs : ownershipProofs tx with
  | nil =>
    rw [hproofs] at hsig
    cases hsig
  | cons first rest =>
    rw [hproofs] at hsig hsig' hsingle
    have hnil : rest = [] := by
      apply length_eq_zero_iff.mp
      rw [length_cons] at hsingle
      omega
    rw [hnil, mem_singleton] at hsig hsig'
    rw [hsig, hsig']

theorem ownersKept_of_authorised (hok : handleBlockTokens O codec db hf txs = .ok final)
    (hbinding : SchnorrBinding O)
    (hsingle : forall tx, tx ∈ txs -> (ownershipProofs tx).length <= 1)
    (hauth : Authorised O codec db txs) : OwnersKept codec db txs := by
  intro before tx after hsplit op hop hneeds stored owner hload hnamed
  have hmem : tx ∈ txs := by
    rw [hsplit]
    exact mem_append_right _ mem_cons_self
  rcases storedOwner_signed ((handleBlockTokens_eq_ok hok).1 tx hmem) hop hneeds with
    ⟨stored', sig, hload', hexisting, hsig, hver⟩
  rw [hload] at hload'
  cases hload'
  rcases pendingOwner_of_accepted hok hsplit hload hexisting with
    ⟨pending, state, hrun, hst, howner⟩
  rcases hauth before tx after hsplit op hop hneeds with
    ⟨pending', state', sig', hrun', hstate', hsig', hver'⟩
  rw [hrun] at hrun'
  cases hrun'
  rw [hst] at hstate'
  cases hstate'
  -- the one proof of the transaction verifies under both owners
  rw [ownershipProof_unique (hsingle tx hmem) hsig hsig'] at hver'
  rw [hnamed] at howner
  exact howner.symm.trans (hbinding _ _ _ _ hver' hver)

/-- A block that keeps its owners is authorised; an authorised block keeps them,
when a transaction carries one ownership proof and a signature fixes its key. -/
theorem authorised_iff_ownersKept {txs : List (Transaction P)}
    {final : Table TokenId TokenConsensusState}
    (hok : handleBlockTokens O codec db hf txs = .ok final) :
    (OwnersKept codec db txs -> Authorised O codec db txs) ∧ (SchnorrBinding O ->
      (forall tx, tx ∈ txs -> (ownershipProofs tx).length <= 1) ->
      Authorised O codec db txs -> OwnersKept codec db txs) := by
  constructor
  · exact authorised_of_ownersKept hok
  · intro hbinding hsingle hauth
    exact ownersKept_of_authorised hok hbinding hsingle hauth

end

/-! ## A transfer and a mint by the former owner -/

/-- Verifiers that accept every proof and a signature that repeats the key. -/
def repeatKeyOracles : TokenOracles Int :=
  { passingOracles 0 1 with verifySchnorrSig := fun _ key sig => sig.y.bits == key.bits }

def ownedDescriptor (owner : PublicKey) : TokenDescriptorBase :=
  { totalMaxSupply := 1000
    currentSupply := 100
    ticker := [0x54]
    fullName := [0x54]
    owner := owner }

def ownedDb : TokenDb (TokenConsensusState ⊕ List TokenUndoEntry) where
  tokenHistories := fun id =>
    if id = ⟨7⟩ then
      some (.inl
        { existing := true
          descriptor := ownedDescriptor ⟨1⟩
          currentSupply := 100
          totalMaxSupply := 1000 })
    else
      none
  tokenUndo := fun _ => none

def updateTx (owner : PublicKey) : Transaction Int :=
  { Transaction.setNull Int with
    type := .updateToken
    extra := some [.tokenDescriptorOperation
      { operationType := .updateToken, fields := 6, amountCommitment := 0
        tokenId := ⟨7⟩, descriptor := ownedDescriptor owner }]
    tokenProofs := [.ownership ⟨⟨1⟩, ⟨1⟩⟩] }

def transferTx : Transaction Int :=
  updateTx ⟨2⟩

def mintFive : TokenDescriptorOperation Int :=
  { operationType := .mintToken, fields := 11, amountCommitment := 5
    tokenId := ⟨7⟩, amount := 5 }

def formerOwnerMintTx : Transaction Int :=
  { Transaction.setNull Int with
    type := .mintToken
    vout := [
      { amount := 0
        target := .zyphora
          { stealthAddress := ⟨3⟩, amountCommitment := 5, blindedTokenId := 1
            encryptedAmount := 0, mixAttr := 0, version := 0 } }]
    extra := some [.tokenDescriptorOperation mintFive]
    tokenProofs := [
      .tokenOperation { flags := 1, compositionProof := ⟨⟨0⟩, ⟨0⟩, ⟨0⟩⟩ }, .ownership ⟨⟨1⟩, ⟨1⟩⟩] }

theorem repeatKeyOracles_binding : SchnorrBinding repeatKeyOracles := by
  intro msg key key' sig h h'
  have hbits : sig.y.bits = key.bits := eq_of_beq h
  have hbits' : sig.y.bits = key'.bits := eq_of_beq h'
  cases key
  cases key'
  exact congrArg PublicKey.mk (hbits.symm.trans hbits')

theorem ownersKept_updateAndMint :
    OwnersKept (plainCodec Int) ownedDb [updateTx ⟨1⟩, formerOwnerMintTx] := by
  intro before tx after hsplit op hop _ stored owner hload hnamed
  match before with
  | [] => cases hnamed
  | [_] =>
    cases hsplit
    cases mem_singleton.mp hop
    cases hload
    cases hnamed
    rfl
  | _ :: _ :: _ =>
    have hlen := congrArg length hsplit
    simp at hlen

theorem authorised_iff_ownersKept_updateAndMint :
    Authorised repeatKeyOracles (plainCodec Int) ownedDb [updateTx ⟨1⟩, formerOwnerMintTx] ∧
      OwnersKept (plainCodec Int) ownedDb [updateTx ⟨1⟩, formerOwnerMintTx] :=
  have hok : exists final, handleBlockTokens repeatKeyOracles (plainCodec Int) ownedDb
      .hf22PrivacyTokens [updateTx ⟨1⟩, formerOwnerMintTx] = .ok final := ⟨_, rfl⟩
  have hboth := authorised_iff_ownersKept hok.choose_spec
  have hauth := hboth.1 ownersKept_updateAndMint
  ⟨hauth, hboth.2 repeatKeyOracles_binding (by decide) hauth⟩

/-- A block in which the former owner mints after a transfer is accepted. -/
theorem formerOwner_mint_accepted :
    (exists final, handleBlockTokens repeatKeyOracles (plainCodec Int) ownedDb
      .hf22PrivacyTokens [transferTx, formerOwnerMintTx] = .ok final) ∧
    ¬ Authorised repeatKeyOracles (plainCodec Int) ownedDb [transferTx, formerOwnerMintTx] := by
  refine ⟨⟨_, rfl⟩, ?_⟩
  intro hauth
  rcases hauth [transferTx] formerOwnerMintTx [] rfl mintFive
    (mem_singleton.mpr rfl) (Or.inl rfl) with
    ⟨pending, state, sig, hrun, hst, hsig, hver⟩
  have howner : (run (applyPending (plainCodec Int) ownedDb) empty
      (blockOperations [transferTx]) >>= fun pending =>
        stateIn (plainCodec Int) ownedDb pending ⟨7⟩).map
          (fun state => state.descriptor.owner) = .ok ⟨2⟩ := rfl
  rw [hrun] at howner
  change (stateIn (plainCodec Int) ownedDb pending
    (getOrCalculateTokenId (plainCodec Int) mintFive)).map _ = _ at howner
  rw [hst] at howner
  have htwo : state.descriptor.owner = ⟨2⟩ := Except.ok.inj howner
  have hone : sig = ⟨⟨1⟩, ⟨1⟩⟩ := mem_singleton.mp hsig
  rw [htwo, hone] at hver
  exact absurd hver (by decide)

end Beldex.Token
