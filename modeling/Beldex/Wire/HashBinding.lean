import Beldex.Wire.PrunedHash

/-!
# What the hash of a transaction binds

With a hash function without collisions the hash of a transaction fixes its prefix
and its base part, and everything behind the base part if that is not null.  Two
places of a blob are not bound: the sections behind a base part that is null, whose
hash is left out, and the flag of the third version, of which every byte but zero
counts as set.
-/

namespace Beldex
namespace Wire

open Basic (RctType TxType TxVersion)
open Crypto Foundation Codec Option PrefixContent

namespace Transaction

def HasUnboundProofs (tx : Transaction) : Prop :=
  tx.rctSignatures.type = .null ∧ tx.vin ≠ [] ∧
    (tx.hasZyphoraInputs = true ∨ tx.announcesTokenProofs = true)

def HasSetFlag (tx : Transaction) : Prop :=
  tx.version = .v3PerOutputUnlockTimes ∧ tx.type = .stateChange

/-! ## What is bound -/

section

variable {D : Type} {h : HashFunction D} {tx tx' : Transaction}
  {head body tail head' body' tail' : List UInt8}

section

variable (hparsed : tx.Parsed head body)
include hparsed

theorem Parsed.hashedBase_eq :
    tx.hashedBase (head ++ body) = if tx.isTransfer = true then
        if tx.vin = [] then none else tx.baseArchive.write tx.rctSignatures.content
      else
        (rctsigBase tx.vin.length tx.vout.length).write tx.rctSignatures.content := by
  cases htransf : tx.isTransfer with
  | true => rw [hparsed.hashedBase_transfer htransf, if_pos rfl]
  | false =>
    unfold hashedBase
    rw [htransf, if_neg Bool.false_ne_true, if_neg Bool.false_ne_true]

theorem Parsed.prefix_eq (hparsed' : tx'.Parsed head body') :
    tx'.toTransactionPrefix = tx.toTransactionPrefix := by
  have hcont := prefixArchive.write_inj hparsed.written hparsed'.written
  rw [hparsed.determined, hparsed'.determined, hcont]

theorem Parsed.base_eq (hparsed' : tx'.Parsed head body')
    {base : List UInt8} (hbase : tx.hashedBase (head ++ body) = some base)
    (hbase' : tx'.hashedBase (head ++ body') = some base) :
    tx'.rctSignatures.content = tx.rctSignatures.content := by
  have hfront := hparsed.prefix_eq hparsed'
  rw [hparsed.hashedBase_eq] at hbase
  rw [hparsed'.hashedBase_eq] at hbase'
  unfold baseArchive nativeOutputs at hbase hbase'
  rw [hfront] at hbase'
  split at hbase
  next htransf =>
    rw [if_pos htransf] at hbase'
    split at hbase
    · cases hbase
    · next hvin =>
        rw [if_neg hvin] at hbase'
        exact write_inj _ hbase' hbase
  next htransf =>
    rw [if_neg htransf] at hbase'
    exact write_inj _ hbase' hbase

end

theorem Parsed.body_of_null (hparsed : tx.Parsed head (body ++ tail)) (hvin : tx.vin ≠ [])
    (hproofs : tx.proofsArchive.write tx.proofsContent = some tail)
    (htype : tx.rctSignatures.type = .null) (hbound : ¬ tx.HasUnboundProofs) : tail = [] := by
  have hzySig : tx.hasZyphoraInputs = false := by
    rw [<- Bool.not_eq_true]
    exact fun hzy => hbound ⟨htype, hvin, Or.inl hzy⟩
  have htoks : tx.hasTokenProofs = false := by
    rw [hparsed.announced, <- Bool.not_eq_true]
    exact fun hannounced => hbound ⟨htype, hvin, Or.inr hannounced⟩
  have hprun : tx.hasPrunable = false := by
    unfold hasPrunable
    rw [htype, Bool.and_eq_false_iff]
    exact Or.inr rfl
  unfold proofsArchive proofsContent at hproofs
  rw [hzySig, htoks, hprun] at hproofs
  cases hproofs
  rfl

/-- Two transactions with the same hash, one of which has no sections that the hash leaves
out, spell the same bytes. -/
theorem Parsed.eq_of_hash (hfree : h.CollisionFree) (hparsed : tx.Parsed head body)
    (hparsed' : tx'.Parsed head' body') {d : D} (hd : tx.calculateTransactionHash h = some d)
    (hd' : tx'.calculateTransactionHash h = some d) (hbound : ¬ tx.HasUnboundProofs) :
    head' = head ∧ body' = body := by
  rcases hparsed.exists_reserialisedProofs with ⟨tail, htail⟩
  rcases hparsed'.exists_reserialisedProofs with ⟨tail', htail'⟩
  rw [hparsed.transactionHash h htail, map_eq_some_iff] at hd
  rw [hparsed'.transactionHash h htail', map_eq_some_iff] at hd'
  rcases hd with ⟨base, hbase, hd⟩
  rcases hd' with ⟨base', hbase', hd'⟩
  rcases hfree.hashes _ _ _ _ _ _ (hd'.trans hd.symm) with ⟨hhead, hbases, hthird⟩
  have hhead := hfree.blob _ _ hhead
  have hbases := hfree.blob _ _ hbases
  subst hhead
  subst hbases
  refine ⟨rfl, ?_⟩
  have hfront := hparsed.prefix_eq hparsed'
  have hcont := hparsed.base_eq hparsed' hbase hbase'
  have htype : tx'.rctSignatures.type = tx.rctSignatures.type :=
    congrArg RctBaseContent.type hcont
  have hvins : tx'.vin = tx.vin := congrArg TransactionPrefix.vin hfront
  cases hparsed.body with
  | bare hvin _ _ _ _ =>
    cases hparsed'.body with
    | bare _ _ _ _ _ => rfl
    | full hvin' _ _ _ => exact absurd (hvins.trans hvin) hvin'
  | @full middle tail₁ hvin hmiddle hproofs _ =>
    cases hparsed'.body with
    | bare hvin' _ _ _ _ => exact absurd (hvins.symm.trans hvin') hvin
    | @full middle' tail₂ hvin' hmiddle' hproofs' _ =>
      have hmiddles : middle' = middle := by
        unfold baseArchive nativeOutputs at hmiddle hmiddle'
        rw [hfront, hcont, hmiddle] at hmiddle'
        exact (some.inj hmiddle').symm
      have htails : tail₂ = tail₁ := by
        by_cases hnull : tx.rctSignatures.type = .null
        · have hbound' : ¬ tx'.HasUnboundProofs := by
            unfold HasUnboundProofs hasZyphoraInputs announcesTokenProofs hasZyphoraOutputs
              at hbound ⊢
            rw [hfront, htype]
            exact hbound
          rw [hparsed.body_of_null hvin hproofs hnull hbound,
            hparsed'.body_of_null hvin' hproofs' (htype.trans hnull) hbound']
        · rw [htype, if_neg hnull, if_neg hnull] at hthird
          rw [reserialisedProofs_eq hparsed.pruned hproofs] at htail
          rw [reserialisedProofs_eq hparsed'.pruned hproofs'] at htail'
          cases htail
          cases htail'
          exact hfree.blob _ _ hthird
      rw [hmiddles, htails]

end

/-! ## The flag of the third version -/

def otherFlag (flag : UInt8) : UInt8 :=
  if flag = 1 then 2 else 1

theorem otherFlag_ne (flag : UInt8) : otherFlag flag ≠ flag := by
  unfold otherFlag
  split
  next hone =>
    rw [hone]
    decide
  · next hone => exact fun hflag => hone hflag.symm

theorem otherFlag_ne_zero (flag : UInt8) : otherFlag flag ≠ 0 := by
  unfold otherFlag
  split
  · decide
  · decide

variable {content : PrefixContent} {target : Transaction}

theorem exists_reflagged {head : List UInt8} (hhead : prefixArchive.write content = some head)
    (hver : content.version = .v3PerOutputUnlockTimes)
    (htype : (content.into target.toTransactionPrefix).type = .stateChange) :
    exists content' head', prefixArchive.write content' = some head' ∧ content' ≠ content ∧
      content'.version = content.version ∧ content'.vin = content.vin ∧
      target.afterPrefix content' head'.length = target.afterPrefix content head.length := by
  rcases prefixArchive_present hhead with ⟨_, hpres, hnone⟩
  rw [hver] at hpres hnone
  rcases isSome_iff_exists.mp hpres with ⟨flag, hflag⟩
  have hnone : content.type = none := isNone_iff_eq_none.mp (isSome_eq_false_iff.mp hnone)
  rcases prefixArchive_write_flag hhead hflag (otherFlag flag) with ⟨head', hhead', hlen⟩
  refine ⟨_, head', hhead', ?_, rfl, rfl, ?_⟩
  · intro hsame
    have hflags := congrArg isStateChange hsame
    rw [hflag] at hflags
    exact otherFlag_ne flag (some.inj hflags)
  · have htypes : typeInto { content with isStateChange := some (otherFlag flag) }
        target.type = .stateChange := by
      unfold typeInto
      rw [hnone]
      exact if_neg (otherFlag_ne_zero flag)
    have hinto : into { content with isStateChange := some (otherFlag flag) }
        target.toTransactionPrefix = content.into target.toTransactionPrefix := by
      have htype : content.typeInto target.type = .stateChange := htype
      unfold into
      rw [htypes, htype]
    unfold afterPrefix withPrefix
    rw [hinto, hlen]

variable {blob : List UInt8} {tx : Transaction}

theorem Spells.exists_reflagged (h : Spells target tx blob)
    (hset : tx.HasSetFlag) : exists blob', blob' ≠ blob ∧ Spells target tx blob' := by
  cases h with
  | @bare content _ hhead hver hvin =>
    rcases Transaction.exists_reflagged hhead hset.1 hset.2 with
      ⟨content', head', hhead', hne, hversion', hvin', hafter⟩
    refine ⟨head', ?_, ?_⟩
    · rintro rfl
      exact hne (prefixArchive.write_inj hhead' hhead)
    · rw [<- hafter]
      exact .bare hhead' (hversion' ▸ hver) (hvin'.trans hvin)
  | @full content base proofs head middle tail hhead hver hvin hbase hproofs =>
    rcases Transaction.exists_reflagged hhead hset.1 hset.2 with
      ⟨content', head', hhead', hne, hversion', hvin', hafter⟩
    have hlen : head'.length = head.length := congrArg Transaction.prefixSize hafter
    refine ⟨head' ++ middle ++ tail, ?_, ?_⟩
    · intro hblob
      rw [List.append_assoc, List.append_assoc] at hblob
      exact hne (prefixArchive.append_inj hhead' hhead hblob).1
    · rw [<- hafter] at hbase hproofs ⊢
      rw [<- hlen] at hproofs ⊢
      exact .full hhead' (hversion' ▸ hver) (hvin' ▸ hvin) hbase hproofs

/-! ## Sections behind a base part that is null -/

theorem exists_other_vector {α : Type} {c : Codec α} {a : α} {bytes : List UInt8}
    (h : (vectorOf c).write [a] = some bytes) (l : List α) :
    exists l' bytes', l' ≠ l ∧ (vectorOf c).write l' = some bytes' := by
  by_cases hl : l = []
  · exact ⟨[a], bytes, fun ha => List.cons_ne_nil a [] (ha.trans hl), h⟩
  · exact ⟨[], [0], fun hnil => hl hnil.symm, rfl⟩

def zeroZySig : ZySig where
  clsagSig := { sG := [zeroKey], sX := [zeroKey], c1 := zeroKey, d := zeroKey, e := zeroKey }
  pseudoOutAmountCommitment := zeroKey
  pseudoOutBlindedTokenId := zeroKey

theorem exists_other_proofs {proofs : ProofsContent} {tail : List UInt8}
    (h : tx.proofsArchive.write proofs = some tail)
    (hsections : tx.hasZyphoraInputs = true ∨ tx.hasTokenProofs = true) :
    exists proofs' tail', tx.proofsArchive.write proofs' = some tail' ∧
      tx.afterProofs proofs' ≠ tx.afterProofs proofs := by
  rcases proofsArchive_present h with ⟨_, hzySig, htoks⟩
  rcases proofs with ⟨prunable, zySig, tokens⟩
  unfold proofsArchive at h ⊢
  rw [iso_write] at h
  rcases pair_write_eq_some.mp h with ⟨x, xs, hx, hxs, _⟩
  rcases pair_write_eq_some.mp hxs with ⟨y, z, hy, hz, _⟩
  rcases hsections with hgate | hgate
  · rw [hgate] at hzySig hy ⊢
    rcases isSome_iff_exists.mp hzySig with ⟨l, rfl⟩
    have hsample : ((vectorOf signatureV).write [zeroZySig]).isSome = true := by decide +kernel
    rcases isSome_iff_exists.mp hsample with ⟨bytes, hbytes⟩
    rcases exists_other_vector hbytes l with ⟨l', y', hne, hy'⟩
    refine ⟨⟨prunable, some l', tokens⟩, x ++ (y' ++ z), ?_, ?_⟩
    · rw [iso_write]
      exact pair_write_eq_some.mpr ⟨x, _, hx, pair_write_eq_some.mpr ⟨y', z, hy', hz, rfl⟩, rfl⟩
    · exact fun hsame => hne (congrArg Transaction.zySig hsame)
  · rw [hgate] at htoks hz ⊢
    rcases isSome_iff_exists.mp htoks with ⟨l, rfl⟩
    have hsample : ((vectorOf tokenProofV).write [emptyTokenProof]).isSome = true := by
      decide +kernel
    rcases isSome_iff_exists.mp hsample with ⟨bytes, hbytes⟩
    rcases exists_other_vector hbytes l with ⟨l', z', hne, hz'⟩
    refine ⟨⟨prunable, zySig, some l'⟩, x ++ (y ++ z'), ?_, ?_⟩
    · rw [iso_write]
      exact pair_write_eq_some.mpr ⟨x, _, hx, pair_write_eq_some.mpr ⟨y, z', hy, hz', rfl⟩, rfl⟩
    · exact fun hsame => hne (congrArg Transaction.tokenProofs hsame)

theorem Spells.exists_other_proofs (h : Spells setNull tx blob) (hunbnd : tx.HasUnboundProofs) :
    exists tx' blob', Spells setNull tx' blob' ∧ tx' ≠ tx ∧ SameBase tx tx' := by
  rcases hunbnd with ⟨_, hvins, hsections⟩
  cases h with
  | bare _ _ hvin => exact absurd hvin hvins
  | @full content base proofs head middle tail hhead hver hvin hbase hproofs =>
    have hsections' : ((setNull.afterPrefix content head.length).afterBase base
          (head.length + middle.length)).hasZyphoraInputs = true ∨
        ((setNull.afterPrefix content head.length).afterBase base
          (head.length + middle.length)).hasTokenProofs = true := by
      rw [hasTokenProofs_eq]
      exact hsections
    rcases Transaction.exists_other_proofs hproofs hsections' with
      ⟨proofs', tail', hproofs', hne⟩
    exact ⟨_, _, .full hhead hver hvin hbase hproofs', hne, ⟨rfl, rfl⟩⟩

theorem SameBase.hash_eq {D : Type} (h : HashFunction D) {tx tx' : Transaction}
    {head body head' body' : List UInt8} (hsame : SameBase tx tx') (hparsed : tx.Parsed head body)
    (hparsed' : tx'.Parsed head' body') (hnull : tx.rctSignatures.type = .null) :
    tx'.calculateTransactionHash h = tx.calculateTransactionHash h := by
  rcases hparsed.exists_reserialisedProofs with ⟨tail, htail⟩
  rcases hparsed'.exists_reserialisedProofs with ⟨tail', htail'⟩
  have hhead : head' = head := by
    have hwritten := hparsed'.written
    rw [hsame.sharedPrefix, hparsed.written] at hwritten
    exact (some.inj hwritten).symm
  have hnull' : tx'.rctSignatures.type = .null := by
    rw [hsame.sharedBase]
    exact hnull
  rw [hparsed.transactionHash h htail, hparsed'.transactionHash h htail', hparsed.hashedBase_eq,
    hparsed'.hashedBase_eq, if_pos hnull, if_pos hnull', hhead]
  unfold baseArchive nativeOutputs
  rw [hsame.sharedPrefix, hsame.sharedBase]

/-! ## The theorem -/

theorem expand_of_null (hnull : tx.rctSignatures.type = .null)
    (baseOnly : Bool) : tx.expandTransaction1 baseOnly = true := by
  unfold expandTransaction1
  dsimp only
  rw [hnull]
  exact if_pos (Bool.or_true _)

theorem eq_of_normalised {head : List UInt8} (hhead : prefixArchive.write content = some head)
    (hcont : tx.toTransactionPrefix.content = content.normalised) (hset : ¬ tx.HasSetFlag) :
    content.normalised = content := by
  unfold normalised
  cases hflag : content.isStateChange with
  | none => rw [map_none, <- hflag]
  | some flag =>
    have hpres := (prefixArchive_present hhead).2.1
    rw [hflag, isSome_some] at hpres
    have hver : content.version = tx.version := (congrArg version hcont).symm
    have hv3 : tx.version = .v3PerOutputUnlockTimes := by
      rw [<- hver]
      exact beq_iff_eq.mp hpres.symm
    have htype : ¬ tx.type = .stateChange := fun htype => hset ⟨hv3, htype⟩
    have hflags : tx.toTransactionPrefix.content.isStateChange =
        content.normalised.isStateChange := by rw [hcont]
    unfold TransactionPrefix.content normalised at hflags
    dsimp only at hflags
    rw [hflag, hv3, if_neg htype, map_some] at hflags
    have hzero : flag = 0 := by
      by_contra hne
      rw [if_neg hne] at hflags
      exact absurd hflags (by decide)
    rw [map_some, hzero, if_pos rfl, <- hzero, <- hflag]

theorem Spells.unique {tx tx' : Transaction} (h : Spells target tx blob)
    (h' : Spells target tx' blob) : tx' = tx := by
  have hread := h.read []
  rw [h'.read []] at hread
  cases hread
  rfl

theorem Spells.txToBlob (h : Spells setNull tx blob) (hset : ¬ tx.HasSetFlag) :
    tx.txToBlob = some blob := by
  rcases h.parsed with ⟨content, head₀, head, body, hhead, _, hcont, rfl, _, hparsed⟩
  have hwritten := hparsed.written
  rw [hcont, eq_of_normalised hhead hcont hset, hhead] at hwritten
  cases hwritten
  unfold Transaction.txToBlob
  rw [hparsed.write]
  rfl

/-- With a hash function without collisions, the blob of a transaction is the only one that
is accepted with its hash exactly if there are no sections behind a base part that is null
and no flag of the third version is set; and it is what the transaction is serialised to
exactly if no such flag is set. -/
theorem transactionHash_binds_iff {D : Type} {h : HashFunction D} (hfree : h.CollisionFree)
    {blob : List UInt8} {tx : Transaction} {d : D}
    (hparse : setNull.parseAndValidateTxFromBlob blob = some tx)
    (hver : TxVersion.v2Ringct.toNat <= tx.version.toNat)
    (hhash : tx.calculateTransactionHash h = some d) :
    ((forall blob' tx', setNull.parseAndValidateTxFromBlob blob' = some tx' ->
        TxVersion.v2Ringct.toNat <= tx'.version.toNat ->
        tx'.calculateTransactionHash h = some d -> blob' = blob) <->
      ¬ tx.HasUnboundProofs ∧ ¬ tx.HasSetFlag) ∧
    ((forall blob', setNull.parseAndValidateTxFromBlob blob' = some tx ->
        tx.txToBlob = some blob') <-> ¬ tx.HasSetFlag) := by
  have hspells := spells_of_parse hparse (ne_v1_of_le hver)
  have hexpand := (parse_eq_some hparse).2
  rcases hspells.parsed with ⟨_, _, head, body, _, _, _, _, _, hparsed⟩
  refine ⟨⟨?_, ?_⟩, ?_, ?_⟩
  · intro hall
    refine ⟨?_, ?_⟩
    · intro hunbnd
      rcases hspells.exists_other_proofs hunbnd with ⟨tx', blob', hspells', hne, hsame⟩
      rcases hspells'.parsed with ⟨_, _, head', body', _, _, _, _, _, hparsed'⟩
      have hnull' : tx'.rctSignatures.type = .null := by
        rw [hsame.sharedBase]
        exact hunbnd.1
      have hversion' : TxVersion.v2Ringct.toNat <= tx'.version.toNat := by
        rw [hsame.sharedPrefix]
        exact hver
      have hhash' : tx'.calculateTransactionHash h = some d :=
        (hsame.hash_eq h hparsed hparsed' hunbnd.1).trans hhash
      have hblob := hall blob' tx' (parse_of_spells hspells' (expand_of_null hnull' false))
        hversion' hhash'
      subst hblob
      exact hne (hspells.unique hspells')
    · intro hset
      rcases hspells.exists_reflagged hset with ⟨blob', hne, hspells'⟩
      exact hne (hall blob' tx (parse_of_spells hspells' hexpand) hver hhash)
  · rintro ⟨hbound, hset⟩ blob' tx' hparse' hversion' hhash'
    have hspells' := spells_of_parse hparse' (ne_v1_of_le hversion')
    rcases hspells'.parsed with ⟨_, _, head', body', _, _, _, _, _, hparsed'⟩
    rcases hparsed.eq_of_hash hfree hparsed' hhash hhash' hbound with ⟨rfl, rfl⟩
    have hset' : ¬ tx'.HasSetFlag := by
      unfold HasSetFlag at hset ⊢
      rw [hparsed.prefix_eq hparsed']
      exact hset
    have hblob := hspells.txToBlob hset
    have hblob' := hspells'.txToBlob hset'
    unfold Transaction.txToBlob at hblob hblob'
    rw [hparsed.write] at hblob
    rw [hparsed'.write] at hblob'
    exact some.inj (hblob'.symm.trans hblob)
  · intro hall hset
    rcases hspells.exists_reflagged hset with ⟨blob', hne, hspells'⟩
    have hblob := hall blob hparse
    rw [hall blob' (parse_of_spells hspells' hexpand)] at hblob
    exact hne (some.inj hblob)
  · intro hset blob' hparse'
    exact (spells_of_parse hparse' (ne_v1_of_le hver)).txToBlob hset

/-- The blob of the coinbase transaction is the only one with its hash. -/
theorem transactionHash_binds_iff_minerTransaction :
    spellingHash.CollisionFree ∧
    setNull.parseAndValidateTxFromBlob minerBlob = some minerTransaction ∧
    (forall blob' tx', setNull.parseAndValidateTxFromBlob blob' = some tx' ->
      TxVersion.v2Ringct.toNat <= tx'.version.toNat -> tx'.calculateTransactionHash spellingHash =
        minerTransaction.calculateTransactionHash spellingHash -> blob' = minerBlob) := by
  have hparse : setNull.parseAndValidateTxFromBlob minerBlob = some minerTransaction := by
    decide +kernel
  have hsome : (minerTransaction.calculateTransactionHash spellingHash).isSome = true := by
    decide +kernel
  rcases isSome_iff_exists.mp hsome with ⟨d, hhash⟩
  have hbinds := transactionHash_binds_iff spellingHash_collisionFree hparse (by decide) hhash
  have hbound : ¬ minerTransaction.HasUnboundProofs := by
    rintro ⟨_, _, hgate⟩
    revert hgate
    decide
  have hset : ¬ minerTransaction.HasSetFlag := by
    rintro ⟨hver, _⟩
    revert hver
    decide
  rw [hhash]
  exact ⟨spellingHash_collisionFree, hparse, hbinds.1.mpr ⟨hbound, hset⟩⟩

/-- A coinbase transaction with a confidential output and some proofs for it. -/
def confidentialCoinbase (tokenProofs : List TokenProofV) : Transaction :=
  { setNull with
    version := .v4TxTypes
    vin := [.gen 7]
    vout :=
      [{ amount := 0
         target := .zyphora
           { stealthAddress := ⟨7⟩, amountCommitment := ⟨8⟩, blindedTokenId := ⟨9⟩
             encryptedAmount := 10, mixAttr := 0, version := 1 } }]
    outputUnlockTimes := [0]
    tokenProofs := tokenProofs
    prefixSize := 111
    unprunableSize := 112 }

def confidentialBlob (tokenProofs : List TokenProofV) : List UInt8 :=
  (confidentialCoinbase tokenProofs).txToBlob.getD []

/-- The proofs of a coinbase transaction can be exchanged without changing its hash. -/
theorem confidentialCoinbase_unbound :
    setNull.parseAndValidateTxFromBlob (confidentialBlob []) = some (confidentialCoinbase []) ∧
    setNull.parseAndValidateTxFromBlob (confidentialBlob [emptyTokenProof]) =
      some (confidentialCoinbase [emptyTokenProof]) ∧
    (confidentialCoinbase [emptyTokenProof]).calculateTransactionHash spellingHash =
      (confidentialCoinbase []).calculateTransactionHash spellingHash ∧
    ((confidentialCoinbase []).calculateTransactionHash spellingHash).isSome = true ∧
    confidentialBlob [emptyTokenProof] ≠ confidentialBlob [] :=
  ⟨by decide +kernel, by decide +kernel, by decide +kernel, by decide +kernel, by decide +kernel⟩

end Transaction
end Wire
end Beldex
