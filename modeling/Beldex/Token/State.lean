import Beldex.Basic.Transaction
import Beldex.Foundation.CappedAccount
import Beldex.Foundation.Fallible
import Beldex.Foundation.Table

/-!
# The token state machine

Every privacy token has one consensus state, which the four token operations
register, mint, burn and update move along.  A block changes the stored states
once, after all its operations have been applied to working copies, and leaves one
undo record for its height, which is read back when the block is popped.
Serialization is a pair of functions of which only the round trip is assumed.
-/

namespace Beldex.Token

open Basic Crypto Foundation Foundation.Fallible

section

/-! ## Descriptors -/

def tokenDescriptorVersion : UInt8 := 1

def tokenTickerMaxLength : Nat := 14

def tokenFullNameMaxLength : Nat := 64

def tokenMetaInfoMaxLength : Nat := 4096

def tokenMaxDecimalPoint : UInt8 := 18

def asciiDigit (c : UInt8) : Bool :=
  decide (0x30 <= c) && decide (c <= 0x39)

def asciiAlpha (c : UInt8) : Bool :=
  (decide (0x41 <= c) && decide (c <= 0x5a)) || (decide (0x61 <= c) && decide (c <= 0x7a))

def asciiAlnum (c : UInt8) : Bool :=
  asciiDigit c || asciiAlpha c

def tokenTickerOk (ticker : List UInt8) : Bool :=
  !ticker.isEmpty && decide (ticker.length <= tokenTickerMaxLength) && ticker.all asciiAlnum

/-- Full names may also hold a blank, an underscore, a hyphen and a full stop. -/
def tokenFullNameOk (fullName : List UInt8) : Bool :=
  !fullName.isEmpty && decide (fullName.length <= tokenFullNameMaxLength) && fullName.all fun c =>
      asciiAlnum c || c == 0x20 || c == 0x5f || c == 0x2d || c == 0x2e

def validateTokenDescriptorForRegistration (descriptor : TokenDescriptorBase) :
    Except String Unit := do
  rejectIf (descriptor.version != tokenDescriptorVersion)
    "unsupported token descriptor version"
  rejectIf (!tokenTickerOk descriptor.ticker)
    ("ticker is invalid; expected 1-" ++ toString tokenTickerMaxLength ++
      " ASCII alphanumeric characters")
  rejectIf (!tokenFullNameOk descriptor.fullName)
    ("full_name is invalid; expected 1-" ++ toString tokenFullNameMaxLength ++
      " ASCII alphanumeric, space, '_', '-' or '.' characters")
  rejectIf (decide (tokenMaxDecimalPoint < descriptor.decimalPoint))
    ("decimal_point must be <= " ++ toString tokenMaxDecimalPoint)
  rejectIf (descriptor.totalMaxSupply == 0)
    "total_max_supply must be greater than 0"
  rejectIf (decide (descriptor.totalMaxSupply < descriptor.currentSupply))
    "current_supply cannot exceed total_max_supply"
  rejectIf (decide (tokenMetaInfoMaxLength < descriptor.metaInfo.length))
    ("meta_info cannot exceed " ++ toString tokenMetaInfoMaxLength ++ " characters")

theorem validateTokenDescriptor_setSupply {d : TokenDescriptorBase} {n : UInt64}
    (h : validateTokenDescriptorForRegistration d = .ok ()) (hn : n <= d.totalMaxSupply) :
    validateTokenDescriptorForRegistration { d with currentSupply := n } = .ok () := by
  unfold validateTokenDescriptorForRegistration at *
  simp only [rejectIf_bind_ok, rejectIf_ok] at h ⊢
  rcases h with ⟨hver, hticker, hname, hpoint, hmax, _, hmeta⟩
  have hcap : decide (d.totalMaxSupply < n) = false := by
    simpa using hn
  exact ⟨hver, hticker, hname, hpoint, hmax, hcap, hmeta⟩

theorem currentSupply_le_of_validateTokenDescriptor {d : TokenDescriptorBase}
    (h : validateTokenDescriptorForRegistration d = .ok ()) :
    d.currentSupply <= d.totalMaxSupply := by
  unfold validateTokenDescriptorForRegistration at h
  simp only [rejectIf_bind_ok, rejectIf_ok] at h
  simpa using h.2.2.2.2.2.1

/-! ## The consensus state -/

structure TokenConsensusState where
  existing : Bool := false
  descriptor : TokenDescriptorBase := {}
  currentSupply : UInt64 := 0
  totalMaxSupply : UInt64 := 0
  opCount : UInt64 := 0
  lastOpHash : Hash := nullHash

variable {P : Type}

def applyRegisterToken (op : TokenDescriptorOperation P)
    (state : TokenConsensusState) : Except String TokenConsensusState := do
  rejectIf state.existing "register_token for existing token"
  rejectIf (!op.fieldIsSet tokenFieldDescriptor) "register_token missing descriptor"
  rejectIf (op.fieldIsSet tokenFieldTokenId)
    "register_token must not carry an explicit token_id; it is derived from the descriptor"
  let d := op.descriptor
  rejectIf d.ticker.isEmpty "token ticker must not be empty"
  rejectIf d.fullName.isEmpty "token full_name must not be empty"
  rejectIf (d.owner == nullPkey) "token owner must not be null"
  rejectIf (decide (d.totalMaxSupply < d.currentSupply))
    "current_supply exceeds total_max_supply"
  within "register_token descriptor rejected: " (validateTokenDescriptorForRegistration d)
  .ok { state with
    existing := true
    descriptor := d
    currentSupply := d.currentSupply
    totalMaxSupply := d.totalMaxSupply }

def applyMintToken (op : TokenDescriptorOperation P)
    (state : TokenConsensusState) : Except String TokenConsensusState := do
  rejectIf (!state.existing) "mint_token for unknown token"
  rejectIf (!op.fieldIsSet tokenFieldAmount) "mint_token missing amount"
  rejectIf (decide (0xffffffffffffffff - op.amount < state.currentSupply))
    "mint_token supply overflow"
  let newSupply := state.currentSupply + op.amount
  rejectIf (decide (state.totalMaxSupply < newSupply)) "mint_token exceeds max supply"
  .ok { state with
    currentSupply := newSupply
    descriptor := { state.descriptor with currentSupply := newSupply } }

def applyBurnToken (op : TokenDescriptorOperation P)
    (state : TokenConsensusState) : Except String TokenConsensusState := do
  rejectIf (!state.existing) "burn_token for unknown token"
  rejectIf (!op.fieldIsSet tokenFieldAmount) "burn_token missing amount"
  rejectIf (decide (state.currentSupply < op.amount)) "burn_token exceeds current supply"
  let newSupply := state.currentSupply - op.amount
  .ok { state with
    currentSupply := newSupply
    descriptor := { state.descriptor with currentSupply := newSupply } }

def applyUpdateToken (op : TokenDescriptorOperation P)
    (state : TokenConsensusState) : Except String TokenConsensusState := do
  rejectIf (!state.existing) "update_token for unknown token"
  rejectIf (!op.fieldIsSet tokenFieldDescriptor) "update_token missing descriptor"
  let d := op.descriptor
  rejectIf (d.owner == nullPkey) "updated token owner must not be null"
  rejectIf (d.totalMaxSupply != state.totalMaxSupply)
    "update_token cannot modify total_max_supply"
  rejectIf (d.currentSupply != state.currentSupply)
    "update_token cannot modify current_supply"
  rejectIf (d.ticker != state.descriptor.ticker) "update_token cannot modify ticker"
  rejectIf (d.fullName != state.descriptor.fullName)
    "update_token cannot modify full_name"
  rejectIf (d.decimalPoint != state.descriptor.decimalPoint)
    "update_token cannot modify decimal_point"
  rejectIf (d.version != state.descriptor.version)
    "update_token cannot modify descriptor version"
  within "update_token descriptor rejected: " (validateTokenDescriptorForRegistration d)
  .ok { state with descriptor := d }

def applyTokenOperationToState (tokenId : TokenId) (op : TokenDescriptorOperation P)
    (state : TokenConsensusState) : Except String TokenConsensusState := do
  rejectIf (op.fieldIsSet tokenFieldTokenId && op.tokenId != tokenId)
    "token_id mismatch between key and operation"
  rejectIf (op.fieldIsSet tokenFieldAmount && op.amount == 0)
    "amount field must be non-zero when set"
  match op.operationType with
  | .registerToken => applyRegisterToken op state
  | .mintToken => applyMintToken op state
  | .burnToken => applyBurnToken op state
  | .updateToken => applyUpdateToken op state
  | .undefined => .error "unsupported token operation"

/-! ## What an accepted operation does -/

def TokenConsensusState.registered (s : TokenConsensusState)
    (d : TokenDescriptorBase) : TokenConsensusState :=
  { s with
    existing := true
    descriptor := d
    currentSupply := d.currentSupply
    totalMaxSupply := d.totalMaxSupply }

def TokenConsensusState.setSupply (s : TokenConsensusState) (n : UInt64) : TokenConsensusState :=
  { s with
    currentSupply := n
    descriptor := { s.descriptor with currentSupply := n } }

structure UpdateOf (s : TokenConsensusState) (d : TokenDescriptorBase) : Prop where
  owner_ne : d.owner ≠ nullPkey
  totalMaxSupply_eq : d.totalMaxSupply = s.totalMaxSupply
  currentSupply_eq : d.currentSupply = s.currentSupply
  ticker_eq : d.ticker = s.descriptor.ticker
  fullName_eq : d.fullName = s.descriptor.fullName
  decimalPoint_eq : d.decimalPoint = s.descriptor.decimalPoint
  version_eq : d.version = s.descriptor.version
  valid : validateTokenDescriptorForRegistration d = .ok ()

inductive TokenStep (op : TokenDescriptorOperation P) (s : TokenConsensusState) :
    TokenConsensusState -> Prop where
  | register :
      op.operationType = .registerToken -> s.existing = false -> op.descriptor.owner ≠ nullPkey ->
      validateTokenDescriptorForRegistration op.descriptor = .ok () ->
      TokenStep op s (s.registered op.descriptor)
  | mint :
      op.operationType = .mintToken -> s.existing = true -> op.amount ≠ 0 ->
      s.currentSupply.toNat + op.amount.toNat <= s.totalMaxSupply.toNat ->
      TokenStep op s (s.setSupply (s.currentSupply + op.amount))
  | burn :
      op.operationType = .burnToken -> s.existing = true -> op.amount ≠ 0 ->
      op.amount.toNat <= s.currentSupply.toNat ->
      TokenStep op s (s.setSupply (s.currentSupply - op.amount))
  | update :
      op.operationType = .updateToken -> s.existing = true -> UpdateOf s op.descriptor ->
      TokenStep op s { s with descriptor := op.descriptor }

variable {op : TokenDescriptorOperation P} {s' s : TokenConsensusState}

theorem applyRegisterToken_step (hop : op.operationType = .registerToken)
    (h : applyRegisterToken op s = .ok s') : TokenStep op s s' := by
  unfold applyRegisterToken at h
  simp only [rejectIf_bind_ok, within_bind_ok] at h
  rcases h with ⟨hnew, _, _, _, _, howner, _, _, hvalid, hs⟩
  cases hs
  exact TokenStep.register hop hnew (by simpa using howner) hvalid

theorem applyMintToken_step (hop : op.operationType = .mintToken)
    (hamt : (op.fieldIsSet tokenFieldAmount && op.amount == 0) = false)
    (h : applyMintToken op s = .ok s') : TokenStep op s s' := by
  unfold applyMintToken at h
  simp only [rejectIf_bind_ok, Bool.not_eq_false'] at h
  rcases h with ⟨hold, hset, hfits, hcap, hs⟩
  cases hs
  have hne : op.amount ≠ 0 := by
    simpa [hset] using hamt
  refine TokenStep.mint hop hold hne ?_
  have hle : s.currentSupply <= 0xffffffffffffffff - op.amount := by
    simpa using hfits
  have hle' : s.currentSupply + op.amount <= s.totalMaxSupply := by
    simpa using hcap
  have hmax : (0xffffffffffffffff - op.amount : UInt64).toNat =
      0xffffffffffffffff - op.amount.toNat :=
    UInt64.toNat_sub_of_le _ _ (by
      rw [UInt64.le_iff_toNat_le]
      exact Nat.le_of_lt_succ op.amount.toNat_lt)
  rw [UInt64.le_iff_toNat_le, hmax] at hle
  rw [UInt64.le_iff_toNat_le, UInt64.toNat_add] at hle'
  have hlt := op.amount.toNat_lt
  omega

theorem applyBurnToken_step (hop : op.operationType = .burnToken)
    (hamt : (op.fieldIsSet tokenFieldAmount && op.amount == 0) = false)
    (h : applyBurnToken op s = .ok s') : TokenStep op s s' := by
  unfold applyBurnToken at h
  simp only [rejectIf_bind_ok, Bool.not_eq_false'] at h
  rcases h with ⟨hold, hset, hcovered, hs⟩
  cases hs
  have hne : op.amount ≠ 0 := by
    simpa [hset] using hamt
  have hle : op.amount <= s.currentSupply := by
    simpa using hcovered
  exact TokenStep.burn hop hold hne (UInt64.le_iff_toNat_le.mp hle)

theorem applyUpdateToken_step (hop : op.operationType = .updateToken)
    (h : applyUpdateToken op s = .ok s') : TokenStep op s s' := by
  unfold applyUpdateToken at h
  simp only [rejectIf_bind_ok, within_bind_ok, bne_eq_false_iff_eq,
    beq_eq_false_iff_ne, Bool.not_eq_false'] at h
  rcases h with
    ⟨hold, _, howner, hmax, hcur, hticker, hname, hpoint, hver, _, hvalid, hs⟩
  cases hs
  exact TokenStep.update hop hold
    { owner_ne := howner
      totalMaxSupply_eq := hmax
      currentSupply_eq := hcur
      ticker_eq := hticker
      fullName_eq := hname
      decimalPoint_eq := hpoint
      version_eq := hver
      valid := hvalid }

theorem applyTokenOperationToState_step {tokenId : TokenId}
    (h : applyTokenOperationToState tokenId op s = .ok s') : TokenStep op s s' := by
  unfold applyTokenOperationToState at h
  simp only [rejectIf_bind_ok] at h
  rcases h with ⟨_, hamt, hmatch⟩
  cases hop : op.operationType with
  | undefined =>
    rw [hop] at hmatch
    cases hmatch
  | registerToken =>
    rw [hop] at hmatch
    exact applyRegisterToken_step hop hmatch
  | mintToken =>
    rw [hop] at hmatch
    exact applyMintToken_step hop hamt hmatch
  | updateToken =>
    rw [hop] at hmatch
    exact applyUpdateToken_step hop hmatch
  | burnToken =>
    rw [hop] at hmatch
    exact applyBurnToken_step hop hamt hmatch

theorem TokenStep.existing_eq_true (h : TokenStep op s s') : s'.existing = true := by
  cases h with
  | register => rfl
  | mint _ hold => exact hold
  | burn _ hold => exact hold
  | update _ hold => exact hold

end

/-! ## Serialization -/

structure TokenUndoEntry where
  tokenId : TokenId
  prevState : TokenConsensusState

/-- Serialization to blobs, with the round trips the code relies on, and the
hash functions that read descriptors and operations. -/
structure TokenCodec (P Blob : Type) where
  dumpState : TokenConsensusState -> Blob
  parseState : Blob -> Except String TokenConsensusState
  parse_dumpState : forall s, parseState (dumpState s) = .ok s
  dumpUndo : List TokenUndoEntry -> Blob
  parseUndo : Blob -> Except String (List TokenUndoEntry)
  parse_dumpUndo : forall u, parseUndo (dumpUndo u) = .ok u
  operationHash : TokenDescriptorOperation P -> Hash
  descriptorTokenId : TokenDescriptorBase -> Option UInt32 -> TokenId

def plainCodec (P : Type) : TokenCodec P (TokenConsensusState ⊕ List TokenUndoEntry) where
  dumpState := Sum.inl
  parseState := fun blob =>
    match blob with
    | .inl s => .ok s
    | .inr _ => .error "not a token state"
  parse_dumpState := fun _ => rfl
  dumpUndo := Sum.inr
  parseUndo := fun blob =>
    match blob with
    | .inr u => .ok u
    | .inl _ => .error "not an undo record"
  parse_dumpUndo := fun _ => rfl
  operationHash := fun _ => nullHash
  descriptorTokenId := fun _ _ => ⟨7⟩

variable {P Blob : Type} (codec : TokenCodec P Blob)

/-- The token that an operation is about; the null identifier when there is none. -/
def getOrCalculateTokenId (tdo : TokenDescriptorOperation P) : TokenId :=
  if tdo.fieldIsSet tokenFieldTokenId && tdo.tokenId != nullTid then
    tdo.tokenId
  else if !tdo.fieldIsSet tokenFieldDescriptor then
    nullTid
  else
    codec.descriptorTokenId tdo.descriptor
      (if tdo.fieldIsSet tokenFieldTokenIdSalt then some tdo.tokenIdSalt else none)

/-! ## The database tables -/

structure TokenDb (Blob : Type) where
  tokenHistories : TokenId -> Option Blob
  tokenUndo : Nat -> Option Blob

@[ext] theorem TokenDb.ext {a b : TokenDb Blob}
    (hrows : forall id, a.tokenHistories id = b.tokenHistories id)
    (hundo : forall height, a.tokenUndo height = b.tokenUndo height) : a = b := by
  cases a with
  | mk rows undo =>
    cases b with
    | mk rows' undo' =>
      congr
      · exact funext hrows
      · exact funext hundo

def TokenDb.empty : TokenDb Blob where
  tokenHistories := fun _ => none
  tokenUndo := fun _ => none

variable (db : TokenDb Blob)

def TokenDb.setTokenHistory (tokenId : TokenId) (data : Blob) : TokenDb Blob :=
  { db with tokenHistories := Function.update db.tokenHistories tokenId (some data) }

def TokenDb.removeTokenHistory (tokenId : TokenId) : TokenDb Blob :=
  { db with tokenHistories := Function.update db.tokenHistories tokenId none }

variable (height : Nat)

def TokenDb.setTokenUndo (data : Blob) : TokenDb Blob :=
  { db with tokenUndo := Function.update db.tokenUndo height (some data) }

def TokenDb.delTokenUndo : TokenDb Blob :=
  { db with tokenUndo := Function.update db.tokenUndo height none }

def loadTokenState (tokenId : TokenId) : Except String TokenConsensusState :=
  match db.tokenHistories tokenId with
  | none => .ok {}
  | some blob =>
    within "failed to parse stored token state: " (codec.parseState blob)

/-! ## Applying a block -/

structure BlockWork where
  states : Table TokenId TokenConsensusState
  undo : List TokenUndoEntry

def BlockWork.touch (work : BlockWork) (tokenId : TokenId) :
    Except String (TokenConsensusState × List TokenUndoEntry) :=
  match work.states.find? tokenId with
  | some state => .ok (state, work.undo)
  | none => do
      let state <- within "failed to load token state: " (loadTokenState codec db tokenId)
      .ok (state, work.undo ++ [{ tokenId := tokenId, prevState := state }])

def applyBlockOperation (work : BlockWork) (tdo : TokenDescriptorOperation P) :
    Except String BlockWork := do
  let tokenId := getOrCalculateTokenId codec tdo
  rejectIf (tokenId == nullTid) "failed to derive token id while applying block token ops"
  let (state, undo) <- work.touch codec db tokenId
  let next <- within "token state transition rejected: "
    (applyTokenOperationToState tokenId tdo state)
  let recorded : TokenConsensusState :=
    { next with
      opCount := next.opCount + 1
      lastOpHash := codec.operationHash tdo }
  .ok { states := work.states.set tokenId recorded, undo := undo }

def blockOperations (txs : List (Transaction P)) : List (TokenDescriptorOperation P) :=
  txs.flatMap Transaction.tokenOperations

def BlockWork.persist (work : BlockWork) (db : TokenDb Blob) (height : Nat) : TokenDb Blob :=
  let stored : TokenDb Blob :=
    { db with
      tokenHistories := work.states.writeAll codec.dumpState db.tokenHistories }
  if work.undo.isEmpty then stored
  else stored.setTokenUndo height (codec.dumpUndo work.undo)

def applyTokensFromBlock (txs : List (Transaction P)) : Except String (TokenDb Blob) := do
  let work <- run (applyBlockOperation codec db)
    { states := Table.empty, undo := [] } (blockOperations txs)
  .ok (work.persist codec db height)

/-! ## Rewinding a block -/

def restoreEntry (entry : TokenUndoEntry) : TokenDb Blob :=
  if entry.prevState.existing then
    db.setTokenHistory entry.tokenId (codec.dumpState entry.prevState)
  else
    db.removeTokenHistory entry.tokenId

def rewindTokensForHeight : Except String (TokenDb Blob) :=
  match db.tokenUndo height with
  | none => .ok db
  | some blob => do
      let undo <- within "failed to parse token undo record while rewinding: "
        (codec.parseUndo blob)
      .ok ((undo.foldl (restoreEntry codec) db).delTokenUndo height)

end Beldex.Token
