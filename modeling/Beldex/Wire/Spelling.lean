import Beldex.Wire.Transaction

/-!
# Spellings of a transaction

A blob of a transaction from the second version on is the prefix and, if there
are inputs, the base part and the sections that follow it.  This module says
once what the reader makes of such a blob and what the writer produces, in terms
of the contents that the parts carry, so that the archive is not unfolded again.
-/

namespace Beldex.Wire

open Basic (RctType TxType TxVersion)
open Foundation Codec List Option PrefixContent

namespace Transaction

/-! ## The steps of the reader -/

def afterPrefix (target : Transaction) (content : PrefixContent) (size : Nat) : Transaction :=
  { target.withPrefix content with prefixSize := size }

def afterBase (tx : Transaction) (content : RctBaseContent) (size : Nat) : Transaction :=
  { tx.withBase content with unprunableSize := size }

def afterProofs (tx : Transaction) (content : ProofsContent) : Transaction :=
  { content.into tx with pruned := false }

/-- Reading the blob into the first object gives the second one. -/
inductive Spells (target : Transaction) : Transaction -> List UInt8 -> Prop where
  | bare {content : PrefixContent} {head : List UInt8}
      (hhead : prefixArchive.write content = some head) (hver : content.version ≠ .v1)
      (hvin : content.vin = []) :
      Spells target { target.afterPrefix content head.length with pruned := false } head
  | full {content : PrefixContent} {base : RctBaseContent} {proofs : ProofsContent}
      {head middle tail : List UInt8}
      (hhead : prefixArchive.write content = some head) (hver : content.version ≠ .v1)
      (hvin : content.vin ≠ [])
      (hbase : (target.afterPrefix content head.length).baseArchive.write base = some middle)
      (hproofs : ((target.afterPrefix content head.length).afterBase base
          (head.length + middle.length)).proofsArchive.write proofs = some tail) :
      Spells target
        (((target.afterPrefix content head.length).afterBase base
          (head.length + middle.length)).afterProofs proofs)
        (head ++ middle ++ tail)

variable {target : Transaction}

variable {tx : Transaction}

theorem Spells.version_ne {blob : List UInt8} (h : Spells target tx blob) :
    tx.version ≠ .v1 := by
  cases h with
  | bare _ hver _ => exact hver
  | full _ hver _ _ _ => exact hver

theorem length_append_sub (head rest : List UInt8) :
    (head ++ rest).length - rest.length = head.length := by
  rw [length_append, Nat.add_sub_cancel]

theorem length_append_append_sub (head middle rest : List UInt8) :
    (head ++ (middle ++ rest)).length - rest.length = head.length + middle.length := by
  rw [<- append_assoc, length_append_sub, length_append]

theorem read_append_front {content : PrefixContent} {head : List UInt8}
    (hhead : prefixArchive.write content = some head) (hver : content.version ≠ .v1)
    (input : List UInt8) :
    target.read (head ++ input) = if content.vin.isEmpty then
        some ({ target.afterPrefix content head.length with pruned := false }, input)
      else
        ((target.afterPrefix content head.length).baseArchive.read input).bind fun p =>
          (((target.afterPrefix content head.length).afterBase p.1
            ((head ++ input).length - p.2.length)).proofsArchive.read p.2).bind fun q =>
              some (((target.afterPrefix content head.length).afterBase p.1
                ((head ++ input).length - p.2.length)).afterProofs q.1, q.2) := by
  unfold Transaction.read
  rw [prefixArchive.read_append hhead input]
  dsimp only [bind_eq_bind, bind_some]
  rw [length_append_sub]
  have hv : ¬ (withPrefix target content).version = .v1 := hver
  rw [if_neg hv]
  cases hvin : content.vin.isEmpty with
  | true =>
    have hempty : (withPrefix target content).vin.isEmpty = true := hvin
    rw [if_pos hempty]
    rfl
  | false =>
    have hempty : ¬ (withPrefix target content).vin.isEmpty = true := by
      change ¬ content.vin.isEmpty = true
      rw [hvin]
      exact Bool.false_ne_true
    rw [if_neg hempty]
    rfl

theorem Spells.read {blob : List UInt8} (h : Spells target tx blob)
    (rest : List UInt8) : target.read (blob ++ rest) = some (tx, rest) := by
  cases h with
  | bare hhead hver hvin =>
    rw [read_append_front hhead hver, hvin]
    rfl
  | @full content base proofs head middle tail hhead hver hvin hbase hproofs =>
    have hempty : ¬ content.vin.isEmpty = true := by
      rw [List.isEmpty_iff]
      exact hvin
    rw [append_assoc, append_assoc, read_append_front hhead hver, if_neg hempty,
      read_append _ hbase, bind_some, length_append_append_sub, read_append _ hproofs]
    rfl

variable {input rest : List UInt8}

theorem exists_prefix_of_read (h : target.read input = some (tx, rest)) :
    exists content body, prefixArchive.read input = some (content, body) := by
  unfold Transaction.read at h
  cases hread : prefixArchive.read input with
  | none =>
    rw [hread] at h
    cases h
  | some p => exact ⟨p.1, p.2, rfl⟩

theorem version_readSignatures {tx tx' : Transaction}
    (h : tx.readSignatures input = some (tx', rest)) : tx'.version = tx.version := by
  unfold readSignatures at h
  split at h
  · cases h
    rfl
  · rw [map_eq_some_iff] at h
    rcases h with ⟨p, _, heq⟩
    cases heq
    rfl

theorem version_of_read {content : PrefixContent} {head body : List UInt8}
    (hhead : prefixArchive.write content = some head)
    (h : target.read (head ++ body) = some (tx, rest)) (hver : content.version = .v1) :
    tx.version = .v1 := by
  unfold Transaction.read at h
  rw [prefixArchive.read_append hhead body] at h
  dsimp only [bind_eq_bind, bind_some] at h
  have hv : (withPrefix target content).version = .v1 := hver
  rw [if_pos hv, bind_eq_some_iff] at h
  rcases h with ⟨⟨tx', rest'⟩, hread, heq⟩
  cases heq
  exact (version_readSignatures hread).trans hv

theorem spells_of_read (h : target.read input = some (tx, rest))
    (hver : tx.version ≠ .v1) : exists blob, Spells target tx blob ∧ input = blob ++ rest := by
  rcases exists_prefix_of_read h with ⟨content, body, hfront⟩
  rcases prefixArchive.exists_write hfront with ⟨head, hhead, rfl⟩
  have hv : content.version ≠ .v1 := fun hv => hver (version_of_read hhead h hv)
  rw [read_append_front hhead hv] at h
  split at h
  next hempty =>
    cases h
    exact ⟨head, .bare hhead hv (List.isEmpty_iff.mp hempty), rfl⟩
  next hempty =>
    rw [bind_eq_some_iff] at h
    rcases h with ⟨⟨base, afterBase⟩, hbase, h⟩
    rw [bind_eq_some_iff] at h
    rcases h with ⟨⟨proofs, rest'⟩, hproofs, heq⟩
    rcases exists_write _ hbase with ⟨middle, hmiddle, rfl⟩
    rw [length_append_append_sub] at hproofs heq
    cases heq
    rcases exists_write _ hproofs with ⟨tail, htail, rfl⟩
    have hvin : content.vin ≠ [] := by
      rw [List.isEmpty_iff] at hempty
      exact hempty
    refine ⟨head ++ middle ++ tail, .full hhead hv hvin hmiddle htail, ?_⟩
    rw [append_assoc, append_assoc]

end Transaction

/-! ## The prefix back from the object -/

/-- The flag of the third version as the writer spells it. -/
def PrefixContent.normalised (content : PrefixContent) : PrefixContent :=
  { content with isStateChange := content.isStateChange.map fun flag => if flag = 0 then 0 else 1 }

variable {content : PrefixContent} {head : List UInt8}

theorem prefixArchive_present (h : prefixArchive.write content = some head) :
    content.outputUnlockTimes.isSome = hasUnlockTimes content.version ∧
      content.isStateChange.isSome = (content.version == .v3PerOutputUnlockTimes) ∧
      content.type.isSome = hasTxType content.version := by
  rcases content with ⟨version, times, flag, unlockTime, vin, vout, extra, type⟩
  have h := (guard_write_eq_some.mp h).2
  rw [iso_write] at h
  rcases andThen_write_eq_some.mp h with ⟨_, _, _, h, _⟩
  rcases pair_write_eq_some.mp h with ⟨_, _, htimes, h, _⟩
  rcases pair_write_eq_some.mp h with ⟨_, _, hflag, h, _⟩
  rcases pair_write_eq_some.mp h with ⟨_, _, _, h, _⟩
  rcases pair_write_eq_some.mp h with ⟨_, _, _, h, _⟩
  rcases pair_write_eq_some.mp h with ⟨_, _, _, h, _⟩
  rcases pair_write_eq_some.mp h with ⟨_, _, _, htype, _⟩
  exact ⟨isSome_of_optional htimes, isSome_of_optional hflag, isSome_of_optional htype⟩

section

variable (h : prefixArchive.write content = some head)
include h

theorem PrefixContent.content_into
    (target : TransactionPrefix) : (content.into target).content = content.normalised := by
  rcases prefixArchive_present h with ⟨htimes, hflag, htype⟩
  rcases content with ⟨version, times, flag, unlockTime, vin, vout, extra, type⟩
  unfold TransactionPrefix.content into normalised
  rw [onlyIf_getD htimes]
  unfold typeInto
  cases type with
  | some type =>
    rw [isSome_some] at htype
    cases flag with
    | some flag =>
      rw [beq_iff_eq.mp hflag.symm] at htype
      cases htype
    | none =>
      rw [<- hflag, <- htype]
      rfl
  | none =>
    rw [isSome_none] at htype
    rw [<- htype, <- hflag]
    cases flag with
    | none => rfl
    | some flag =>
      by_cases hzero : flag = 0
      · simp [hzero]
      · simp [hzero]

theorem prefixArchive_write_flag {flag : UInt8}
    (hflag : content.isStateChange = some flag) (flag' : UInt8) :
    exists head', prefixArchive.write { content with isStateChange := some flag' } = some head' ∧
      head'.length = head.length := by
  have hv3 := (prefixArchive_present h).2.1
  rcases content with ⟨version, times, isStateChange, unlockTime, vin, vout, extra, type⟩
  subst hflag
  rcases guard_write_eq_some.mp h with ⟨hcorrect, hfields⟩
  rw [iso_write] at hfields
  rcases andThen_write_eq_some.mp hfields with ⟨x, x', hver, hafter, hx⟩
  rcases pair_write_eq_some.mp hafter with ⟨y, y', htimes, hafter', hy⟩
  rcases pair_write_eq_some.mp hafter' with ⟨byte, z, hbyte, hrest, hz⟩
  rw [<- hv3] at hbyte
  cases hbyte
  rw [hx, hy, hz]
  refine ⟨x ++ (y ++ ([flag'] ++ z)), ?_, by simp⟩
  refine guard_write_eq_some.mpr ⟨hcorrect, ?_⟩
  rw [iso_write]
  refine andThen_write_eq_some.mpr ⟨x, _, hver, ?_, rfl⟩
  refine pair_write_eq_some.mpr ⟨y, _, htimes, ?_, rfl⟩
  refine pair_write_eq_some.mpr ⟨[flag'], z, ?_, hrest, rfl⟩
  rw [<- hv3]
  rfl

theorem prefixArchive_write_normalised :
    exists head', prefixArchive.write content.normalised = some head' ∧
      head'.length = head.length := by
  cases hflag : content.isStateChange with
  | none =>
    have hsame : content.normalised = content := by
      unfold normalised
      rw [hflag, map_none, <- hflag]
    rw [hsame]
    exact ⟨head, h, rfl⟩
  | some flag =>
    have hnormal : content.normalised =
        { content with isStateChange := some (if flag = 0 then 0 else 1) } := by
      unfold normalised
      rw [hflag, map_some]
    rw [hnormal]
    exact prefixArchive_write_flag h hflag _

end

theorem PrefixContent.normalised_into (content : PrefixContent) (target : TransactionPrefix) :
    content.normalised.into target = content.into target ∧
      content.normalised.into (content.into target) = content.into target := by
  have htimes : content.outputUnlockTimes.getD (content.outputUnlockTimes.getD
      target.outputUnlockTimes) = content.outputUnlockTimes.getD target.outputUnlockTimes := by
    cases content.outputUnlockTimes with
    | none => rfl
    | some times => rfl
  have htype : forall type, content.normalised.typeInto type = content.typeInto type := by
    intro type
    unfold typeInto normalised
    cases content.type with
    | some type => rfl
    | none =>
      cases content.isStateChange with
      | none => rfl
      | some flag =>
        by_cases hzero : flag = 0
        · simp [hzero]
        · simp [hzero]
  have hsettled : content.typeInto (content.typeInto target.type) =
      content.typeInto target.type := by
    unfold typeInto
    cases content.type with
    | some type => rfl
    | none =>
      cases content.isStateChange with
      | none => rfl
      | some flag => rfl
  unfold into
  rw [htype, htype, hsettled]
  refine ⟨rfl, ?_⟩
  change TransactionPrefix.mk _ _ _ _ _ _ (content.outputUnlockTimes.getD
    (content.outputUnlockTimes.getD target.outputUnlockTimes)) = _
  rw [htimes]
  rfl

/-! ## The writer -/

namespace Transaction

def withUnprunableSize (tx : Transaction) (size : Nat) : Transaction :=
  { tx with unprunableSize := size }

variable {head : List UInt8} {tx : Transaction}

theorem write_of_front (hhead : prefixArchive.write tx.toTransactionPrefix.content = some head)
    (hver : tx.version ≠ .v1) :
    tx.write = if tx.vin.isEmpty then
        some (head, tx.afterPrefix tx.toTransactionPrefix.content head.length)
      else
        (tx.baseArchive.write tx.rctSignatures.content).bind fun base =>
          (((tx.afterPrefix tx.toTransactionPrefix.content head.length).withUnprunableSize
            (head.length + base.length)).proofsArchive.write
              (tx.afterPrefix tx.toTransactionPrefix.content head.length).proofsContent).bind
            fun proofs => some (head ++ base ++ proofs,
              (tx.afterPrefix tx.toTransactionPrefix.content head.length).withUnprunableSize
                (head.length + base.length)) := by
  unfold Transaction.write
  rw [hhead]
  dsimp only [bind_eq_bind, bind_some]
  have hv : ¬ (withPrefix tx tx.toTransactionPrefix.content).version = .v1 := hver
  rw [if_neg hv]
  rfl

variable {blob : List UInt8}

theorem exists_prefix_of_write {tx tx' : Transaction} (h : tx.write = some (blob, tx')) :
    exists head, prefixArchive.write tx.toTransactionPrefix.content = some head := by
  unfold Transaction.write at h
  cases hwrite : prefixArchive.write tx.toTransactionPrefix.content with
  | none =>
    rw [hwrite] at h
    cases h
  | some head => exact ⟨head, rfl⟩

/-! ## Blobs that are accepted -/

theorem ne_v1_of_le {version : TxVersion} (h : TxVersion.v2Ringct.toNat <= version.toNat) :
    version ≠ .v1 := by
  rintro rfl
  exact absurd h (by decide)

variable {target : Transaction}

theorem parse_eq_some (h : target.parseAndValidateTxFromBlob blob = some tx) :
    target.read blob = some (tx, []) ∧ tx.expandTransaction1 false = true := by
  unfold parseAndValidateTxFromBlob at h
  split at h
  next tx' hread =>
    split at h
    · next hexpand =>
        cases h
        exact ⟨hread, hexpand⟩
    · cases h
  · cases h

theorem parse_of_spells (h : Spells target tx blob) (hexpand : tx.expandTransaction1 false = true) :
    target.parseAndValidateTxFromBlob blob = some tx := by
  have hread := h.read []
  rw [append_nil] at hread
  unfold parseAndValidateTxFromBlob
  rw [hread]
  exact if_pos hexpand

theorem spells_of_parse (h : target.parseAndValidateTxFromBlob blob = some tx)
    (hver : tx.version ≠ .v1) : Spells target tx blob := by
  rcases spells_of_read (parse_eq_some h).1 hver with ⟨blob', hspells, hblob⟩
  rw [append_nil] at hblob
  rw [hblob]
  exact hspells

/-! ## What was parsed is written back -/

/-- The bytes behind the prefix of a transaction that a new object was read from. -/
inductive Body (tx : Transaction) : List UInt8 -> Prop where
  | bare (hvin : tx.vin = []) (hrct : tx.rctSignatures = RctSig.setNull) (hzySig : tx.zySig = [])
      (htokenProofs : tx.tokenProofs = []) (hsize : tx.unprunableSize = 0) : Body tx []
  | full {middle tail : List UInt8} (hvin : tx.vin ≠ [])
      (hbase : tx.baseArchive.write tx.rctSignatures.content = some middle)
      (hproofs : tx.proofsArchive.write tx.proofsContent = some tail)
      (hsize : tx.unprunableSize = tx.prefixSize + middle.length) : Body tx (middle ++ tail)

def announcesTokenProofs (tx : Transaction) : Bool :=
  tx.hasZyphoraOutputs || tx.type == .updateToken || tx.type == .burnToken

theorem hasTokenProofs_eq (tx : Transaction) :
    tx.hasTokenProofs = (!tx.tokenProofs.isEmpty || tx.announcesTokenProofs) := by
  unfold hasTokenProofs announcesTokenProofs
  rw [Bool.or_assoc, Bool.or_assoc, Bool.or_assoc]

section Proofs

variable {tx : Transaction} {proofs : ProofsContent} {tail : List UInt8}

theorem proofsArchive_present (h : tx.proofsArchive.write proofs = some tail) :
    proofs.prunable.isSome = tx.hasPrunable ∧ proofs.zySig.isSome = tx.hasZyphoraInputs ∧
      proofs.tokenProofs.isSome = tx.hasTokenProofs := by
  unfold proofsArchive at h
  rw [iso_write] at h
  rcases pair_write_eq_some.mp h with ⟨_, _, hprun, h, _⟩
  rcases pair_write_eq_some.mp h with ⟨_, _, hzySig, htokenProofs, _⟩
  exact ⟨isSome_of_optional hprun, isSome_of_optional hzySig, isSome_of_optional htokenProofs⟩

/-- Token proofs that were read into an object without any do not change the question
whether there are some. -/
theorem hasTokenProofs_afterProofs (hempty : tx.tokenProofs = [])
    (h : tx.proofsArchive.write proofs = some tail) :
    (tx.afterProofs proofs).hasTokenProofs = tx.hasTokenProofs := by
  have hpres := (proofsArchive_present h).2.2
  rw [hasTokenProofs_eq, hempty] at hpres
  rw [hasTokenProofs_eq, hasTokenProofs_eq, hempty]
  change (!(proofs.tokenProofs.getD tx.tokenProofs).isEmpty || tx.announcesTokenProofs) = _
  rw [hempty]
  cases htoks : proofs.tokenProofs with
  | none => rfl
  | some tokens =>
    rw [htoks] at hpres
    have hannounced : tx.announcesTokenProofs = true := by
      rw [isSome_some] at hpres
      simpa using hpres.symm
    rw [hannounced, Bool.or_true, Bool.or_true]

theorem proofsArchive_afterProofs (hpruned : tx.pruned = false) (hempty : tx.tokenProofs = [])
    (h : tx.proofsArchive.write proofs = some tail) :
    (tx.afterProofs proofs).proofsArchive = tx.proofsArchive := by
  have hprun : (tx.afterProofs proofs).hasPrunable = tx.hasPrunable := by
    unfold hasPrunable
    rw [hpruned]
    rfl
  unfold proofsArchive
  rw [hprun, hasTokenProofs_afterProofs hempty h]
  rfl

theorem prunable_into (h : tx.proofsArchive.write proofs = some tail) :
    onlyIf tx.hasPrunable ((proofs.into tx).rctSignatures.p.content tx.rctSignatures.type) =
      proofs.prunable := by
  unfold proofsArchive at h
  rw [iso_write] at h
  rcases pair_write_eq_some.mp h with ⟨bytes, _, hwrite, _, _⟩
  have hprun := isSome_of_optional hwrite
  rw [<- hprun] at hwrite ⊢
  rcases proofs with ⟨_ | prunable, zySig, tokenProofs⟩
  · rfl
  · have hwrite : (rctsigPrunable _ _ _ _).write prunable = some bytes := hwrite
    exact congrArg some (RctPrunableContent.content_into hwrite tx.rctSignatures.p)

theorem proofsContent_afterProofs (hpruned : tx.pruned = false) (hempty : tx.tokenProofs = [])
    (h : tx.proofsArchive.write proofs = some tail) :
    (tx.afterProofs proofs).proofsContent = proofs := by
  rcases proofsArchive_present h with ⟨_, hzySig, htokenProofs⟩
  have hgate : (tx.afterProofs proofs).hasPrunable = tx.hasPrunable := by
    unfold hasPrunable
    rw [hpruned]
    rfl
  unfold proofsContent
  rw [hgate, hasTokenProofs_afterProofs hempty h]
  change ProofsContent.mk
    (onlyIf tx.hasPrunable ((proofs.into tx).rctSignatures.p.content tx.rctSignatures.type))
    (onlyIf tx.hasZyphoraInputs (proofs.zySig.getD tx.zySig))
    (onlyIf tx.hasTokenProofs (proofs.tokenProofs.getD tx.tokenProofs)) = proofs
  rw [onlyIf_getD hzySig, onlyIf_getD htokenProofs, prunable_into h]

end Proofs

/-- A transaction that was read into a new object, with the bytes that it spells. -/
structure Parsed (tx : Transaction) (head body : List UInt8) : Prop where
  version : tx.version ≠ .v1
  written : prefixArchive.write tx.toTransactionPrefix.content = some head
  settled : tx.toTransactionPrefix.content.into tx.toTransactionPrefix = tx.toTransactionPrefix
  determined :
    tx.toTransactionPrefix = tx.toTransactionPrefix.content.into setNull.toTransactionPrefix
  announced : tx.hasTokenProofs = tx.announcesTokenProofs
  prefixSize : tx.prefixSize = head.length
  pruned : tx.pruned = false
  body : tx.Body body

theorem Spells.body (h : Spells setNull tx blob) :
    exists content head body, prefixArchive.write content = some head ∧
      tx.toTransactionPrefix = content.into setNull.toTransactionPrefix ∧
      blob = head ++ body ∧ tx.prefixSize = head.length ∧ tx.pruned = false ∧
      tx.hasTokenProofs = tx.announcesTokenProofs ∧ tx.Body body := by
  cases h with
  | bare hhead hver hvin =>
    exact ⟨_, blob, [], hhead, rfl, (append_nil blob).symm, rfl, rfl,
      hasTokenProofs_eq _, .bare hvin rfl rfl rfl rfl⟩
  | @full content base proofs head middle tail hhead hver hvin hbase hproofs =>
    refine ⟨content, head, middle ++ tail, hhead, rfl, append_assoc head middle tail, rfl,
      rfl, (hasTokenProofs_afterProofs rfl hproofs).trans (hasTokenProofs_eq _), ?_⟩
    refine .full hvin ?_ ?_ rfl
    · exact (congrArg _ (RctBaseContent.content_into hbase _)).trans hbase
    · rw [proofsArchive_afterProofs rfl rfl hproofs, proofsContent_afterProofs rfl rfl hproofs]
      exact hproofs

/-- The blob of a transaction differs from what the transaction spells at most in the
flag of the third version. -/
theorem Spells.parsed (h : Spells setNull tx blob) :
    exists content head head' body, prefixArchive.write content = some head ∧
      tx.toTransactionPrefix = content.into setNull.toTransactionPrefix ∧
      tx.toTransactionPrefix.content = content.normalised ∧ blob = head ++ body ∧
      head'.length = head.length ∧ tx.Parsed head' body := by
  rcases h.body with
    ⟨content, head, body, hhead, hfront, hblob, hsize, hpruned, hannounced, hbody⟩
  rcases prefixArchive_write_normalised hhead with ⟨head', hhead', hlen⟩
  have hcont : tx.toTransactionPrefix.content = content.normalised := by
    rw [hfront]
    exact content_into hhead _
  refine ⟨content, head, head', body, hhead, hfront, hcont, hblob, hlen, ?_⟩
  refine
    { version := h.version_ne
      written := by rw [hcont, hhead']
      settled := ?_
      determined := ?_
      announced := hannounced
      prefixSize := hsize.trans hlen.symm
      pruned := hpruned
      body := hbody }
  · rw [hcont, hfront]
    exact (normalised_into content _).2
  · rw [hcont, hfront]
    exact (normalised_into content _).1.symm

theorem Parsed.afterPrefix_eq {body : List UInt8} (h : tx.Parsed head body) :
    tx.afterPrefix tx.toTransactionPrefix.content head.length = tx := by
  unfold afterPrefix withPrefix
  rw [h.settled, <- h.prefixSize]

theorem Parsed.write {body : List UInt8} (h : tx.Parsed head body) :
    tx.write = some (head ++ body, tx) := by
  rw [write_of_front h.written h.version, h.afterPrefix_eq]
  cases h.body with
  | bare hvin hrct hzySig htokenProofs hsize =>
    rw [hvin, append_nil]
    rfl
  | full hvin hbase hproofs hsize =>
    have hempty : ¬ tx.vin.isEmpty = true := by
      rw [List.isEmpty_iff]
      exact hvin
    have hsame : tx.withUnprunableSize tx.unprunableSize = tx := rfl
    rw [if_neg hempty, hbase, bind_some, <- h.prefixSize, <- hsize, hsame, hproofs,
      bind_some, append_assoc]

end Transaction

end Beldex.Wire
