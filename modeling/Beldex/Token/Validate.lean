import Beldex.Token.State
import Mathlib.Algebra.Group.Basic

/-!
# Validation of token operations

A transaction with a token operation is checked on its own against the stored
token states, and the operations of a whole block are then applied in order to
pending copies of these states.  The two passes see different owners when a
block changes the owner of a token.  Every operation pays a surcharge, and a
registration locks a native output as collateral.
-/

namespace Beldex.Token

open Basic Crypto Foundation Foundation.Fallible

section

/-! ## Oracles -/

/-- The curve operations and verifiers that token validation calls. -/
structure TokenOracles (P : Type) where
  nullPoint : P
  tid2rct : TokenId -> P
  isInMainSubgroup : P -> Bool
  getTransactionPrefixHash : Transaction P -> Hash
  getHf21TokenProofMessage : Transaction P -> List (List (Ctkey P)) -> Hash
  verifySchnorrSig : Hash -> PublicKey -> SchnorrSig -> Bool
  verifyLinearCompositionProof : Hash -> P -> LinearCompositionProof -> Bool
  verifyDoubleSchnorrSig : Hash -> P -> PublicKey -> DoubleSchnorrSig -> Bool
  verifyBgeProof : Hash -> List P -> P -> BgeProof -> Bool
  verifyVectorUgAggregationProof : Hash -> List P -> List P -> VectorUgAggregationProof P -> Bool
  verBulletproofPlus : BulletproofPlus -> List P -> Bool
  verZySig : Hash -> ZySig P -> List (Ctkey P) -> List P -> Bool

/-- Verifiers that accept every proof. -/
def passingOracles {P : Type} (nullPoint tokenPoint : P) : TokenOracles P where
  nullPoint := nullPoint
  tid2rct := fun _ => tokenPoint
  isInMainSubgroup := fun _ => true
  getTransactionPrefixHash := fun _ => nullHash
  getHf21TokenProofMessage := fun _ _ => nullHash
  verifySchnorrSig := fun _ _ _ => true
  verifyLinearCompositionProof := fun _ _ _ => true
  verifyDoubleSchnorrSig := fun _ _ _ _ => true
  verifyBgeProof := fun _ _ _ _ => true
  verifyVectorUgAggregationProof := fun _ _ _ _ => true
  verBulletproofPlus := fun _ _ => true
  verZySig := fun _ _ _ _ => true

variable {P Blob : Type}

/-! ## One operation on its own -/

def knownFieldsMask : UInt8 :=
  tokenFieldAmountCommitment ||| tokenFieldTokenId ||| tokenFieldDescriptor |||
    tokenFieldAmount ||| tokenFieldTokenIdSalt

variable (op : TokenDescriptorOperation P)

def validateOperationFields : Except String Unit :=
  match op.operationType with
  | .registerToken => do
      rejectIf (!op.fieldIsSet tokenFieldDescriptor)
        "register_token operation requires descriptor field"
      rejectIf (op.fieldIsSet tokenFieldTokenId)
        "register_token must not carry an explicit token_id; it is derived from the descriptor"
  | .mintToken | .burnToken =>
    rejectIf (!op.fieldIsSet tokenFieldAmount || op.amount == 0)
      "token mint/burn operation requires non-zero amount"
  | .updateToken =>
    rejectIf (!op.fieldIsSet tokenFieldDescriptor)
      "update_token operation requires descriptor field"
  | .undefined => .error "unsupported token descriptor operation type"

def validateTokenDescriptorOperation [DecidableEq P] (O : TokenOracles P)
    (codec : TokenCodec P Blob) (op : TokenDescriptorOperation P) : Except String Unit := do
  rejectIf (op.version != 1) "unsupported token descriptor operation version"
  rejectIf (op.operationType == .undefined) "token descriptor operation type is undefined"
  rejectIf (op.fields &&& ~~~knownFieldsMask != 0)
    "token descriptor operation has unknown fields set"
  rejectIf (op.fieldIsSet tokenFieldTokenId && op.tokenId == nullTid)
    "token descriptor operation has null token_id with token_id field set"
  rejectIf (op.fieldIsSet tokenFieldAmountCommitment && op.amountCommitment == O.nullPoint)
    "token descriptor operation has null amount_commitment with amount_commitment field set"
  validateOperationFields op
  rejectIf (getOrCalculateTokenId codec op == nullTid)
    "unable to derive non-null token_id from operation"

/-! ## The amount commitment -/

def tokenOperationProofs (tx : Transaction P) : List TokenOperationProof :=
  tx.tokenProofs.filterMap fun proof =>
    match proof with
    | .tokenOperation p => some p
    | _ => none

def ownershipProofs (tx : Transaction P) : List SchnorrSig :=
  tx.tokenProofs.filterMap fun proof =>
    match proof with
    | .ownership sig => some sig
    | _ => none

def theTokenOperationProof (tx : Transaction P) : Except String TokenOperationProof :=
  match tokenOperationProofs tx with
  | [] => .error "missing token_operation_proof"
  | [aop] => .ok aop
  | _ => .error "multiple token_operation_proof entries"

/-- The declared amount, the commitment of the operation and the outputs agree. -/
def verifyTokenAmountCommitment [AddCommGroup P] [DecidableEq P] (O : TokenOracles P)
    (tx : Transaction P) (op : TokenDescriptorOperation P) (tokenId : TokenId)
    (declaredAmount : UInt64) : Except String Unit := do
  rejectIf (!op.fieldIsSet tokenFieldAmountCommitment)
    "token operation missing amount_commitment"
  let aop <- theTokenOperationProof tx
  rejectIf (!aop.hasCompositionProof) "token_operation_proof missing composition_proof"
  let a := op.amountCommitment - declaredAmount.toNat • O.tid2rct tokenId
  rejectIf (!O.verifyLinearCompositionProof (O.getTransactionPrefixHash tx) a aop.compositionProof)
    "token amount-commitment composition_proof verification failed"
  if op.operationType = .burnToken ∧ tx.type = .burnToken then
    .ok ()
  else do
    rejectIf tx.zyOutputs.isEmpty
      "token operation has no zyphora outputs to back the declared amount"
    rejectIf ((tx.zyOutputs.map TxOutZyphora.amountCommitment).sum != op.amountCommitment)
      "zyphora output commitments do not sum to the declared amount commitment"

/-! ## One transaction against the stored states -/

def isTokenTxType (type : TxType) : Bool :=
  type == .registerPrivacyToken || type == .mintToken || type == .updateToken || type == .burnToken

def typeMatches (type : TxType) : Bool :=
  match op.operationType with
  | .registerToken => type == .registerPrivacyToken
  | .mintToken => type == .mintToken
  | .updateToken => type == .updateToken
  | .burnToken => type == .burnToken
  | .undefined => false

structure TxTokenWork where
  states : Table TokenId TokenConsensusState
  txTokenId : TokenId

def isDeployWithSupply : Bool :=
  op.operationType == .registerToken && op.fieldIsSet tokenFieldDescriptor &&
    decide (0 < op.descriptor.currentSupply)

def declaredAmount : UInt64 :=
  if op.operationType = .registerToken then op.descriptor.currentSupply else op.amount

def checkAmountCommitment [AddCommGroup P] [DecidableEq P] (O : TokenOracles P) (tx : Transaction P)
    (op : TokenDescriptorOperation P) (tokenId : TokenId) : Except String Unit :=
  if op.operationType = .registerToken ∨ op.operationType = .mintToken ∨
      op.operationType = .burnToken then
    verifyTokenAmountCommitment O tx op tokenId (declaredAmount op)
  else
    .ok ()

def checkOwnership (O : TokenOracles P) (tx : Transaction P)
    (op : TokenDescriptorOperation P) (state : TokenConsensusState) : Except String Unit :=
  if op.operationType = .mintToken ∨ op.operationType = .updateToken then do
    rejectIf (!state.existing) "mint_token/update_token attempted for unknown token"
    rejectIf (!(ownershipProofs tx).any fun sig =>
        O.verifySchnorrSig (O.getTransactionPrefixHash tx) state.descriptor.owner sig)
      "missing or invalid token ownership proof for emission/update"
  else
    .ok ()

/-- The state of a token in a table of copies, loaded when it is not there yet. -/
def stateIn (codec : TokenCodec P Blob) (db : TokenDb Blob)
    (states : Table TokenId TokenConsensusState) (tokenId : TokenId) :
    Except String TokenConsensusState :=
  match states.find? tokenId with
  | some state => .ok state
  | none => loadTokenState codec db tokenId

def validateTxTokenOperation [AddCommGroup P] [DecidableEq P] (O : TokenOracles P)
    (codec : TokenCodec P Blob) (db : TokenDb Blob) (tx : Transaction P)
    (work : TxTokenWork) (entry : TokenDescriptorOperation P × Nat) :
    Except String TxTokenWork := do
  let (op, index) := entry
  rejectIf (!isTokenTxType tx.type)
    "token descriptor operation is only allowed in register_privacy_token, mint_token, update_token or burn_token transactions"
  rejectIf (!typeMatches op tx.type)
    "tx.type does not match the token descriptor operation_type (cross-typed token operation rejected)"
  rejectIf (decide (0 < index))
    "a token transaction must carry exactly one token descriptor operation"
  rejectIf (op.operationType == .burnToken && tx.zyInputs.isEmpty)
    "burn_token transaction must spend at least one privacy-token (ZY) input"
  within "invalid token descriptor operation: "
    (validateTokenDescriptorOperation O codec op)
  rejectIf (isDeployWithSupply op && decide (tx.zyOutputs.length < minTokenMintOutputs))
    ("deploy tx must have at least " ++ toString minTokenMintOutputs ++
      " tx_out_zyphora outputs (got " ++ toString tx.zyOutputs.length ++
      "); wallet must auto-generate self-sends to reach this minimum")
  let tokenId := getOrCalculateTokenId codec op
  rejectIf (work.txTokenId != nullTid && work.txTokenId != tokenId)
    "token descriptor operations in a single transaction must reference exactly one token_id"
  let state <- stateIn codec db work.states tokenId
  checkAmountCommitment O tx op tokenId
  checkOwnership O tx op state
  let next <- within "token state transition rejected: "
    (applyTokenOperationToState tokenId op state)
  .ok { states := work.states.set tokenId next, txTokenId := tokenId }

def validateTxTokenOperationsAgainstDb [AddCommGroup P] [DecidableEq P]
    (O : TokenOracles P) (codec : TokenCodec P Blob) (db : TokenDb Blob)
    (tx : Transaction P) (hf : Hf) : Except String Unit :=
  if hf < featurePrivacyTokens then
    rejectIf (!tx.tokenOperations.isEmpty)
      "token descriptor operations are not allowed before the privacy-token hard fork"
  else do
    let _ <- run (validateTxTokenOperation O codec db tx)
      { states := Table.empty, txTokenId := nullTid } tx.tokenOperations.zipIdx
    rejectIf ((tx.type == .registerPrivacyToken || tx.type == .mintToken ||
        tx.type == .updateToken) && tx.tokenOperations.isEmpty)
      "deploy/mint/update transaction must include at least one token descriptor operation"

structure ValidatedOperation [AddCommGroup P] [DecidableEq P] (O : TokenOracles P)
    (codec : TokenCodec P Blob) (db : TokenDb Blob) (tx : Transaction P)
    (op : TokenDescriptorOperation P) (state next : TokenConsensusState) : Prop where
  type_matches : typeMatches op tx.type = true
  burn_spends : op.operationType = .burnToken -> tx.zyInputs ≠ []
  valid : validateTokenDescriptorOperation O codec op = .ok ()
  loaded : loadTokenState codec db (getOrCalculateTokenId codec op) = .ok state
  amount : checkAmountCommitment O tx op (getOrCalculateTokenId codec op) = .ok ()
  ownership : checkOwnership O tx op state = .ok ()
  applied : applyTokenOperationToState (getOrCalculateTokenId codec op) op state = .ok next

variable {O : TokenOracles P} {codec : TokenCodec P Blob} {db : TokenDb Blob} {tx : Transaction P}

variable {op : TokenDescriptorOperation P}

theorem validateTxTokenOperation_eq_ok [AddCommGroup P] [DecidableEq P] {work work' : TxTokenWork}
    {index : Nat}
    (h : validateTxTokenOperation O codec db tx work (op, index) = .ok work') :
    index = 0 ∧ (work.states = Table.empty ->
        exists state next, ValidatedOperation O codec db tx op state next) := by
  unfold validateTxTokenOperation at h
  simp only [rejectIf_bind_ok, within_bind_ok, Bool.not_eq_false',
    decide_eq_false_iff_not, not_lt, Nat.le_zero] at h
  rcases h with ⟨_, htype, hindex, hburn, _, hvalid, _, _, hbind⟩
  rcases bind_ok.mp hbind with ⟨state, hst, hbind⟩
  rcases bind_ok.mp hbind with ⟨_, hamt, hbind⟩
  rcases bind_ok.mp hbind with ⟨_, howner, hbind⟩
  rcases within_bind_ok.mp hbind with ⟨next, happly, _⟩
  refine ⟨hindex, ?_⟩
  intro hempty
  refine ⟨state, next, htype, ?_, hvalid, ?_, hamt, howner, happly⟩
  · intro hop hnil
    simp [hop, hnil] at hburn
  · rw [hempty] at hst
    exact hst

theorem validateTxTokenOperationsAgainstDb_cases [AddCommGroup P] [DecidableEq P] {hf : Hf}
    (h : validateTxTokenOperationsAgainstDb O codec db tx hf = .ok ()) :
    tx.tokenOperations = [] ∨ exists op state next,
        tx.tokenOperations = [op] ∧ ValidatedOperation O codec db tx op state next := by
  unfold validateTxTokenOperationsAgainstDb at h
  split at h
  · exact Or.inl (by simpa using rejectIf_ok.mp h)
  · rcases bind_ok.mp h with ⟨work, hrun, _⟩
    cases hops : tx.tokenOperations with
    | nil => exact Or.inl rfl
    | cons op rest =>
      rw [hops, List.zipIdx_cons] at hrun
      rcases run_cons_ok.mp hrun with ⟨work1, hfirst, hrest⟩
      rcases (validateTxTokenOperation_eq_ok hfirst).2 rfl with ⟨state, next, hop⟩
      cases rest with
      | nil => exact Or.inr ⟨op, state, next, rfl, hop⟩
      | cons op2 rest =>
        rw [List.zipIdx_cons] at hrest
        rcases run_cons_ok.mp hrest with ⟨work2, hsecond, _⟩
        have hindex := (validateTxTokenOperation_eq_ok hsecond).1
        omega

/-- An accepted amount is bound to the commitment of the operation, and unless it
is burned to the outputs too. -/
theorem ValidatedOperation.amountCommitment_checked [AddCommGroup P] [DecidableEq P]
    {state next : TokenConsensusState}
    (h : ValidatedOperation O codec db tx op state next)
    (hkind : op.operationType = .registerToken ∨ op.operationType = .mintToken ∨
      op.operationType = .burnToken) :
    (exists proof, O.verifyLinearCompositionProof (O.getTransactionPrefixHash tx)
      (op.amountCommitment - (declaredAmount op).toNat • O.tid2rct (getOrCalculateTokenId codec op))
      proof = true) ∧ (op.operationType ≠ .burnToken ->
      (tx.zyOutputs.map TxOutZyphora.amountCommitment).sum = op.amountCommitment) := by
  have hamt := h.amount
  unfold checkAmountCommitment at hamt
  rw [if_pos hkind] at hamt
  rcases rejectIf_bind_ok.mp hamt with ⟨_, hbind⟩
  rcases bind_ok.mp hbind with ⟨aop, _, hbind⟩
  rcases rejectIf_bind_ok.mp hbind with ⟨_, hbind⟩
  rcases rejectIf_bind_ok.mp hbind with ⟨hproof, hbind⟩
  rw [Bool.not_eq_false'] at hproof
  refine ⟨⟨aop.compositionProof, hproof⟩, ?_⟩
  intro hburn
  rw [if_neg fun hboth => hburn hboth.1] at hbind
  simp only [rejectIf_bind_ok, rejectIf_ok, bne_eq_false_iff_eq] at hbind
  exact hbind.2

/-! ## The operations of a block -/

def applyPending (codec : TokenCodec P Blob) (db : TokenDb Blob)
    (pending : Table TokenId TokenConsensusState) (op : TokenDescriptorOperation P) :
    Except String (Table TokenId TokenConsensusState) := do
  let tokenId := getOrCalculateTokenId codec op
  let state <- stateIn codec db pending tokenId
  let next <- applyTokenOperationToState tokenId op state
  .ok (pending.set tokenId next)

def pendingTokenOperation [DecidableEq P] (O : TokenOracles P)
    (codec : TokenCodec P Blob) (db : TokenDb Blob) (tx : Transaction P)
    (pending : Table TokenId TokenConsensusState) (op : TokenDescriptorOperation P) :
    Except String (Table TokenId TokenConsensusState) := do
  validateTokenDescriptorOperation O codec op
  rejectIf (!isTokenTxType tx.type)
    "only register_privacy_token, mint_token, update_token, burn_token are allowed"
  applyPending codec db pending op

def handleBlockTokenTx [AddCommGroup P] [DecidableEq P] (O : TokenOracles P)
    (codec : TokenCodec P Blob) (db : TokenDb Blob) (hf : Hf)
    (pending : Table TokenId TokenConsensusState) (tx : Transaction P) :
    Except String (Table TokenId TokenConsensusState) := do
  validateTxTokenOperationsAgainstDb O codec db tx hf
  if featurePrivacyTokens <= hf then
    run (pendingTokenOperation O codec db tx) pending tx.tokenOperations
  else
    .ok pending

def handleBlockTokens [AddCommGroup P] [DecidableEq P] (O : TokenOracles P)
    (codec : TokenCodec P Blob) (db : TokenDb Blob) (hf : Hf)
    (txs : List (Transaction P)) : Except String (Table TokenId TokenConsensusState) :=
  run (handleBlockTokenTx O codec db hf) Table.empty txs

end

/-! ## Fees and collateral -/

variable {P : Type}

/-! ## Surcharges -/

def coin : UInt64 := 1000000000

structure OperationFee where
  burnAmount : UInt64 := 0
  governanceAmount : UInt64 := 0
  exactBurn : Bool := false
  enabled : Bool := false

def OperationFee.paid (fee : OperationFee) (burned txnFee : UInt64) : Bool :=
  fee.enabled && decide (burned <= txnFee) &&
    (if fee.exactBurn then burned == fee.burnAmount else decide (fee.burnAmount <= burned)) &&
    decide (fee.governanceAmount <= txnFee - burned)

def feeForOperation (hfVersion : Hf) (opType : TokenDescriptorOperationType)
    (nettype : NetworkType) : OperationFee :=
  let testnet := nettype == .testnet || nettype == .devnet
  if hfVersion < featurePrivacyTokens then {}
  else
    match opType with
    | .registerToken =>
      let share := if testnet then 50 * coin else 500 * coin
      { burnAmount := share, governanceAmount := share, exactBurn := true, enabled := true }
    | .mintToken =>
      { burnAmount := if testnet then 5 * coin else 50 * coin, enabled := true }
    | .updateToken =>
      { burnAmount := if testnet then 1 * coin else 10 * coin, enabled := true }
    | .burnToken => { enabled := true }
    | .undefined => {}

variable (tx : Transaction P)

def getBurnedAmountFromTxExtra : UInt64 :=
  let burns := (tx.extra.getD []).filterMap fun field =>
    match field with
    | .burn amount => some amount
    | _ => none
  burns.headD 0

def expectedOperation (type : TxType) : TokenDescriptorOperationType :=
  match type with
  | .registerPrivacyToken => .registerToken
  | .mintToken => .mintToken
  | .updateToken => .updateToken
  | .burnToken => .burnToken
  | _ => .undefined

def feeOperation? : Option (TokenDescriptorOperation P) :=
  match tx.tokenOperations with
  | [op] => if op.operationType = expectedOperation tx.type then some op else none
  | _ => none

def validateTokenTransactionFees (hfVersion : Hf) (nettype : NetworkType) : Except String Unit := do
  rejectIf (expectedOperation tx.type == .undefined)
    "Token fee validation requires a token transaction"
  rejectIf (feeOperation? tx).isNone
    "Token fees require exactly one operation matching the transaction type"
  let policy := feeForOperation hfVersion (expectedOperation tx.type) nettype
  rejectIf (!policy.enabled) "Token operation is not enabled at this hardfork"
  let burned := getBurnedAmountFromTxExtra tx
  let fee := tx.rctSignatures.txnFee
  rejectIf (!policy.paid burned fee)
    ("Token transaction requires " ++ (if policy.exactBurn then "exactly " else "at least ") ++
      toString policy.burnAmount ++ " burned and at least " ++
      toString policy.governanceAmount ++ " remaining for governance; declared burn " ++
      toString burned ++ ", transaction fee " ++ toString fee)

/-! ## Collateral -/

def registrationCollateralAmount (nettype : NetworkType) : UInt64 :=
  if nettype = .testnet then 100 * coin else 10000 * coin

def registrationCollateralLockBlocks : UInt64 := 2880 * 30 * 6

def registrationCollateralLockToleranceBlocks : UInt64 := 60

def maxBlockNumber : UInt64 := 500000000

def getCollateralLockFromTxExtra : Option CollateralLock :=
  let locks := (tx.extra.getD []).filterMap fun field =>
    match field with
    | .collateralLock lock => some lock
    | _ => none
  locks.head?

def isToKey (out : TxOut P) : Bool :=
  match out.target with
  | .toKey _ => true
  | _ => false

def getUnlockTime (outIndex : Nat) : UInt64 :=
  if TxVersion.v3PerOutputUnlockTimes.toNat <= tx.version.toNat then
    tx.outputUnlockTimes.getD outIndex tx.unlockTime
  else
    tx.unlockTime

/-- The output that a registration declares is locked and holds the collateral. -/
def checkRegistrationCollateral [DecidableEq P] (commit : UInt64 -> Key -> P)
    (chainHeight : UInt64) (nettype : NetworkType) (tx : Transaction P) : Except String Unit := do
  let minUnlockHeight := chainHeight + registrationCollateralLockBlocks -
    registrationCollateralLockToleranceBlocks
  let collLock <- orReject (getCollateralLockFromTxExtra tx)
    "Token registration missing tx_extra_collateral_lock"
  let minimum := registrationCollateralAmount nettype
  rejectIf (decide (collLock.amount < minimum))
    ("Token registration collateral " ++ toString collLock.amount ++ " is below minimum " ++
      toString minimum)
  let index := collLock.outputIndex.toNat
  let out <- orReject tx.vout[index]?
    ("Token registration collateral output_index " ++ toString index ++
      " is out of range (vout size " ++ toString tx.vout.length ++ ")")
  rejectIf (!isToKey out) "Token registration collateral output must be a native output"
  let unlockTime := getUnlockTime tx index
  rejectIf (!(decide (unlockTime < maxBlockNumber) && decide (minUnlockHeight <= unlockTime)))
    ("Token registration collateral output must be locked by block height, until at least " ++
      toString minUnlockHeight ++ " (declared unlock time " ++ toString unlockTime ++ ")")
  -- The commitments of the signature are those of the native outputs alone.
  let rctIndex := ((tx.vout.take index).filter isToKey).length
  rejectIf ((tx.rctSignatures.outPk[rctIndex]?.map Ctkey.mask) !=
      some (commit collLock.amount collLock.mask))
    ("Token registration requires a locked collateral output of at least " ++
      toString minimum ++ " whose commitment matches the declared amount, locked for " ++
      toString registrationCollateralLockBlocks ++ " blocks")

end Beldex.Token
