import Beldex.Wire.Spelling

/-!
# Hashes with and without the prunable part

The hash of a transaction is taken over three hashes: that of the prefix, that of
the base part of the ring signature and that of everything behind it.  A node that
keeps the first two parts and the hash of the rest computes the hash of the
transaction from these.  The hash of the rest is the same from the blob and from
the object.  The hash of the transaction is the same if the base part can be
serialised for all outputs, which it cannot if some of them are confidential, and
if a transaction of a transfer type has inputs.
-/

namespace Beldex
namespace Wire

open Basic (RctType TxType TxVersion)
open Crypto Foundation Codec List

/-- The fast hash of a blob and of an array of three hashes, and the hash of zeros. -/
structure HashFunction (D : Type) where
  cnFastHash : List UInt8 -> D
  hashOfHashes : D -> D -> D -> D
  nullHash : D

structure HashFunction.CollisionFree {D : Type} (h : HashFunction D) : Prop where
  blob : forall x y, h.cnFastHash x = h.cnFastHash y -> x = y
  hashes : forall a b c a' b' c', h.hashOfHashes a b c = h.hashOfHashes a' b' c' ->
    a = a' ∧ b = b' ∧ c = c'

inductive Digest where
  | blob (bytes : List UInt8)
  | hashes (first second third : Digest)
  | null
deriving DecidableEq

def spellingHash : HashFunction Digest where
  cnFastHash := .blob
  hashOfHashes := .hashes
  nullHash := .null

theorem spellingHash_collisionFree : spellingHash.CollisionFree where
  blob := fun _ _ h => Digest.blob.inj h
  hashes := fun _ _ _ _ _ _ h => Digest.hashes.inj h

namespace Transaction

section

variable {D : Type} (h : HashFunction D) (tx : Transaction)

def getTransactionPrefixHash : Option D :=
  (prefixArchive.write tx.toTransactionPrefix.content).map h.cnFastHash

def reserialisedProofs : Option (List UInt8) := do
  let prunable <- (rctsigPrunable tx.rctSignatures.type tx.nativeInputs tx.nativeOutputs
    tx.ringSize).write (tx.rctSignatures.p.content tx.rctSignatures.type)
  let zySig <- (optional tx.hasZyphoraInputs (vectorOf signatureV)).write
    (onlyIf tx.hasZyphoraInputs tx.zySig)
  let tokenProofs <- (optional tx.hasTokenProofs (vectorOf tokenProofV)).write
    (onlyIf tx.hasTokenProofs tx.tokenProofs)
  some (prunable ++ zySig ++ tokenProofs)

def calculateTransactionPrunableHash (blob : Option (List UInt8)) : Option D :=
  if tx.version = .v1 then
    none
  else
    match blob with
    | some blob =>
      if tx.unprunableSize ≠ 0 then
        if tx.unprunableSize <= blob.length then
          some (h.cnFastHash (blob.drop tx.unprunableSize))
        else
          none
      else
        tx.reserialisedProofs.map h.cnFastHash
    | none => tx.reserialisedProofs.map h.cnFastHash

/-- The hash of a transaction without its prunable part; the base part is taken with all
outputs. -/
def getPrunedTransactionHash (prunedDataHash : D) : Option D :=
  if tx.version.toNat < TxVersion.v2Ringct.toNat then
    none
  else do
    let prefixHash <- tx.getTransactionPrefixHash h
    let base <- (rctsigBase tx.vin.length tx.vout.length).write tx.rctSignatures.content
    let prunable := if tx.rctSignatures.type = .null then h.nullHash else prunedDataHash
    some (h.hashOfHashes prefixHash (h.cnFastHash base) prunable)

/-- The bytes of the base part that are hashed: a slice of the blob, or the base part
serialised with all outputs. -/
def hashedBase (blob : List UInt8) : Option (List UInt8) :=
  if tx.isTransfer then
    if tx.prefixSize <= tx.unprunableSize ∧ tx.unprunableSize <= blob.length then
      some ((blob.drop tx.prefixSize).take (tx.unprunableSize - tx.prefixSize))
    else
      none
  else
    (rctsigBase tx.vin.length tx.vout.length).write tx.rctSignatures.content

def calculateTransactionHash : Option D :=
  if tx.version = .v1 then
    tx.txToBlob.map h.cnFastHash
  else do
    let prefixHash <- tx.getTransactionPrefixHash h
    let written <- tx.write
    let blob := written.1
    let tx := written.2
    if blob.isEmpty then
      none
    else
      let base <- tx.hashedBase blob
      let prunable <-
        if tx.rctSignatures.type = .null then some h.nullHash
        else tx.calculateTransactionPrunableHash h (some blob)
      some (h.hashOfHashes prefixHash (h.cnFastHash base) prunable)

end

/-! ## The sections behind the base part -/

variable {tx : Transaction}

theorem reserialisedProofs_eq {tail : List UInt8} (hpruned : tx.pruned = false)
    (h : tx.proofsArchive.write tx.proofsContent = some tail) :
    tx.reserialisedProofs = some tail := by
  unfold proofsArchive proofsContent at h
  rw [iso_write] at h
  rcases pair_write_eq_some.mp h with ⟨prunable, _, hprun, hrest, hx⟩
  rcases pair_write_eq_some.mp hrest with ⟨zySig, tokenProofs, hzySig, htokenProofs, hy⟩
  have hwrite : (rctsigPrunable tx.rctSignatures.type tx.nativeInputs tx.nativeOutputs
      tx.ringSize).write (tx.rctSignatures.p.content tx.rctSignatures.type) = some prunable := by
    unfold hasPrunable at hprun
    rw [hpruned, Bool.not_false, Bool.true_and] at hprun
    by_cases htype : tx.rctSignatures.type = .null
    · rw [htype] at hprun ⊢
      cases hprun
      rfl
    · rw [bne_iff_ne.mpr htype] at hprun
      exact hprun
  unfold reserialisedProofs
  rw [hwrite, hzySig, htokenProofs, hx, hy, <- append_assoc]
  rfl

variable {head body : List UInt8}

theorem Parsed.exists_reserialisedProofs (h : tx.Parsed head body) :
    exists tail, tx.reserialisedProofs = some tail := by
  cases h.body with
  | bare hvin hrct hzySig htokenProofs hsize =>
    have hnone : tx.hasZyphoraInputs = false := by
      unfold hasZyphoraInputs
      rw [hvin]
      rfl
    unfold reserialisedProofs
    rw [hrct, hnone, htokenProofs]
    cases tx.hasTokenProofs with
    | _ => exact ⟨_, rfl⟩
  | full hvin hbase hproofs hsize => exact ⟨_, reserialisedProofs_eq h.pruned hproofs⟩

/-! ## The three hashes -/

theorem prefixArchive_ne_nil {content : PrefixContent} {head : List UInt8}
    (h : prefixArchive.write content = some head) : head ≠ [] := by
  rintro rfl
  have hread := prefixArchive.read_append h []
  have hnone : prefixArchive.read [] = none := rfl
  rw [append_nil, hnone] at hread
  cases hread

section Hashes

variable {D : Type} (h : HashFunction D) {tx : Transaction} {head body tail : List UInt8}
  (hparsed : tx.Parsed head body) (htail : tx.reserialisedProofs = some tail)

include hparsed htail in
theorem Parsed.prunableHash_some {head' : List UInt8} (hlen : head'.length = head.length) :
    tx.calculateTransactionPrunableHash h (some (head' ++ body)) = some (h.cnFastHash tail) := by
  unfold calculateTransactionPrunableHash
  rw [if_neg hparsed.version]
  dsimp only
  cases hparsed.body with
  | bare hvin hrct hzySig htokenProofs hsize =>
    rw [if_neg (not_not_intro hsize), htail]
    rfl
  | @full middle tail' hvin hbase hproofs hsize =>
    have htails := reserialisedProofs_eq hparsed.pruned hproofs
    rw [htail] at htails
    cases htails
    rw [hparsed.prefixSize, <- hlen] at hsize
    have hpos : tx.unprunableSize ≠ 0 := by
      have hhead := length_pos_iff.mpr (prefixArchive_ne_nil hparsed.written)
      omega
    have hsplit : head' ++ (middle ++ tail) = (head' ++ middle) ++ tail :=
      (append_assoc head' middle tail).symm
    have hsize' : tx.unprunableSize = (head' ++ middle).length := by
      rw [hsize, length_append]
    have hle : (head' ++ middle).length <= ((head' ++ middle) ++ tail).length :=
      (sublist_append_left _ _).length_le
    rw [if_pos hpos, hsplit, hsize', if_pos hle, drop_left]

include hparsed htail in
theorem Parsed.prunableHash_none :
    tx.calculateTransactionPrunableHash h none = some (h.cnFastHash tail) := by
  unfold calculateTransactionPrunableHash
  rw [if_neg hparsed.version, htail]
  rfl

include hparsed htail in
theorem Parsed.transactionHash :
    tx.calculateTransactionHash h =
      (tx.hashedBase (head ++ body)).map fun base =>
        h.hashOfHashes (h.cnFastHash head) (h.cnFastHash base)
          (if tx.rctSignatures.type = .null then h.nullHash else h.cnFastHash tail) := by
  have hne : ¬ (head ++ body).isEmpty = true := by
    rw [List.isEmpty_iff, append_eq_nil_iff]
    exact fun hnil => prefixArchive_ne_nil hparsed.written hnil.1
  unfold calculateTransactionHash getTransactionPrefixHash
  rw [if_neg hparsed.version, hparsed.written, hparsed.write]
  dsimp only [Option.map_some, Option.bind_eq_bind, Option.bind_some]
  rw [if_neg hne, hparsed.prunableHash_some h htail rfl]
  cases tx.hashedBase (head ++ body) with
  | none => rfl
  | some base =>
    rw [Option.bind_some, Option.map_some]
    by_cases htype : tx.rctSignatures.type = .null
    · rw [if_pos htype, if_pos htype]
    · rw [if_neg htype, if_neg htype]
      rfl

include hparsed in
theorem Parsed.hashedBase_transfer (htransf : tx.isTransfer = true) :
    tx.hashedBase (head ++ body) =
      if tx.vin = [] then none else tx.baseArchive.write tx.rctSignatures.content := by
  unfold hashedBase
  rw [if_pos htransf]
  cases hparsed.body with
  | bare hvin hrct hzySig htokenProofs hsize =>
    have hhead := length_pos_iff.mpr (prefixArchive_ne_nil hparsed.written)
    have hbad : ¬ (tx.prefixSize <= tx.unprunableSize ∧
        tx.unprunableSize <= (head ++ []).length) := by
      rw [hparsed.prefixSize, hsize]
      omega
    rw [if_neg hbad, if_pos hvin]
  | @full middle tail hvin hbase hproofs hsize =>
    have hgood : tx.prefixSize <= tx.unprunableSize ∧
        tx.unprunableSize <= (head ++ (middle ++ tail)).length := by
      rw [hsize, hparsed.prefixSize, length_append, length_append]
      omega
    have hmiddle : tx.unprunableSize - tx.prefixSize = middle.length := by omega
    rw [if_pos hgood, if_neg hvin, hbase, hmiddle, hparsed.prefixSize, drop_left, take_left]

end Hashes

/-! ## The base part for all outputs -/

theorem rctsigBase_null (inputs outputs inputs' outputs' : Nat) {content : RctBaseContent}
    (h : content.type = .null) :
    (rctsigBase inputs outputs).write content = (rctsigBase inputs' outputs').write content := by
  rcases content with ⟨type, fields⟩
  subst h
  cases fields with
  | none => rfl
  | some fields => rfl

theorem length_outPk_of_rctsigBase {inputs outputs : Nat} {base : RctSigBase} {bytes : List UInt8}
    (htype : base.type ≠ .null) (h : (rctsigBase inputs outputs).write base.content = some bytes) :
    base.outPk.length = outputs := by
  rw [rctsigBase, iso_write] at h
  rcases andThen_write_eq_some.mp h with ⟨_, y, _, hfields, _⟩
  unfold RctSigBase.content at hfields
  rw [bne_iff_ne.mpr htype, onlyIf_true] at hfields
  have hfields : (rctBaseFields base.type inputs outputs).write _ = some y := hfields
  rw [rctBaseFields, iso_write] at hfields
  rcases pair_write_eq_some.mp hfields with ⟨_, _, _, hfields, _⟩
  rcases pair_write_eq_some.mp hfields with ⟨_, _, _, hfields, _⟩
  rcases pair_write_eq_some.mp hfields with ⟨_, _, _, hfields, _⟩
  rcases pair_write_eq_some.mp hfields with ⟨_, _, _, houtPk, _⟩
  exact length_of_array houtPk

theorem nativeOutputs_eq_iff (tx : Transaction) :
    tx.nativeOutputs = tx.vout.length <-> tx.hasZyphoraOutputs = false := by
  unfold nativeOutputs hasZyphoraOutputs
  rw [length_filter_eq_length_iff, any_eq_false]
  simp

/-- The base part of the blob can be serialised for all outputs exactly if it is null or no
output is confidential, and then it is the same. -/
theorem base_allOutputs {middle : List UInt8}
    (hbase : tx.baseArchive.write tx.rctSignatures.content = some middle) :
    (rctsigBase tx.vin.length tx.vout.length).write tx.rctSignatures.content =
      if tx.rctSignatures.type ≠ .null ∧ tx.hasZyphoraOutputs = true then none
      else some middle := by
  unfold baseArchive at hbase
  by_cases htype : tx.rctSignatures.type = .null
  · rw [if_neg (fun hbad => hbad.1 htype), <- hbase]
    exact rctsigBase_null _ _ _ _ htype
  · cases hzyphora : tx.hasZyphoraOutputs with
    | false =>
      rw [if_neg (fun hbad => Bool.false_ne_true hbad.2), <- hbase,
        (nativeOutputs_eq_iff tx).mpr hzyphora]
    | true =>
      rw [if_pos ⟨htype, rfl⟩, Option.eq_none_iff_forall_ne_some]
      intro bytes hbytes
      have hnative := length_outPk_of_rctsigBase htype hbase
      rw [length_outPk_of_rctsigBase htype hbytes] at hnative
      rw [(nativeOutputs_eq_iff tx).mp hnative.symm] at hzyphora
      cases hzyphora

/-! ## The pruned transaction -/

structure SameBase (tx p : Transaction) : Prop where
  sharedPrefix : p.toTransactionPrefix = tx.toTransactionPrefix
  sharedBase : p.rctSignatures.toRctSigBase = tx.rctSignatures.toRctSigBase

theorem Spells.serializeBase {target tx : Transaction} {blob : List UInt8}
    (h : Spells target tx blob) :
    exists p rest, target.serializeBase blob = some (p, rest) ∧ SameBase tx p := by
  cases h with
  | @bare content _ hhead hver hvin =>
    have hread := prefixArchive.read_append hhead []
    rw [append_nil] at hread
    have hvin' : (target.withPrefix content).vin = [] := hvin
    unfold Transaction.serializeBase
    rw [hread]
    dsimp only [Option.bind_eq_bind, Option.bind_some]
    rw [hvin', isEmpty_nil, Bool.or_true, if_pos rfl]
    exact ⟨_, _, rfl, ⟨rfl, rfl⟩⟩
  | @full content base proofs head middle tail hhead hver hvin hbase hproofs =>
    have hgo : ¬ ((target.withPrefix content).version == .v1 ||
        (target.withPrefix content).vin.isEmpty) = true := by
      rw [Bool.or_eq_true, beq_iff_eq, List.isEmpty_iff]
      exact fun hor => hor.elim hver hvin
    unfold Transaction.serializeBase
    rw [append_assoc, prefixArchive.read_append hhead]
    dsimp only [Option.bind_eq_bind, Option.bind_some]
    rw [if_neg hgo]
    have hread : (target.withPrefix content).baseArchive.read (middle ++ tail) =
        some (base, tail) := read_append _ hbase tail
    rw [hread]
    exact ⟨_, _, rfl, ⟨rfl, rfl⟩⟩

theorem SameBase.expand {tx p : Transaction} (hsame : SameBase tx p)
    (h : tx.expandTransaction1 false = true) : p.expandTransaction1 true = true := by
  have hcoinbase : p.isCoinbase = tx.isCoinbase := by
    unfold isCoinbase
    rw [hsame.sharedPrefix]
  have hnative : p.nativeOutputs = tx.nativeOutputs := by
    unfold nativeOutputs
    rw [hsame.sharedPrefix]
  unfold expandTransaction1 at h ⊢
  dsimp only at h ⊢
  rw [hcoinbase, hnative, hsame.sharedPrefix, hsame.sharedBase]
  split at h
  · next hskip => rw [if_pos hskip]
  next hskip =>
    rw [if_neg hskip, Bool.true_or, Bool.and_true]
    exact (Bool.and_eq_true_iff.mp h).1

variable {D : Type}

theorem SameBase.prunedHash {tx p : Transaction} (hsame : SameBase tx p) (h : HashFunction D)
    (d : D) : p.getPrunedTransactionHash h d = tx.getPrunedTransactionHash h d := by
  unfold getPrunedTransactionHash getTransactionPrefixHash
  rw [hsame.sharedPrefix, hsame.sharedBase]

theorem Parsed.prunedHash (hparsed : tx.Parsed head body)
    (hver : TxVersion.v2Ringct.toNat <= tx.version.toNat)
    (h : HashFunction D) (d : D) :
    tx.getPrunedTransactionHash h d =
      ((rctsigBase tx.vin.length tx.vout.length).write tx.rctSignatures.content).map fun base =>
        h.hashOfHashes (h.cnFastHash head) (h.cnFastHash base)
          (if tx.rctSignatures.type = .null then h.nullHash else d) := by
  unfold getPrunedTransactionHash getTransactionPrefixHash
  rw [if_neg (Nat.not_lt_of_le hver), hparsed.written]
  cases (rctsigBase tx.vin.length tx.vout.length).write tx.rctSignatures.content with
  | none => rfl
  | some base => rfl

theorem base_bare (hrct : tx.rctSignatures = RctSig.setNull) (inputs outputs : Nat) :
    (rctsigBase inputs outputs).write tx.rctSignatures.content = some [0] := by
  rw [hrct]
  rfl

theorem Parsed.allOutputs_eq_none_iff (hparsed : tx.Parsed head body) :
    (rctsigBase tx.vin.length tx.vout.length).write tx.rctSignatures.content = none <->
      tx.rctSignatures.type ≠ .null ∧ tx.hasZyphoraOutputs = true := by
  cases hparsed.body with
  | bare hvin hrct hzySig htokenProofs hsize =>
    have htype : tx.rctSignatures.type = .null := by
      rw [hrct]
      rfl
    rw [base_bare hrct]
    simp [htype]
  | full hvin hbase hproofs hsize =>
    rw [base_allOutputs hbase]
    simp

theorem Parsed.hashedBase_of_allOutputs {head body base : List UInt8}
    (hparsed : tx.Parsed head body)
    (hall : (rctsigBase tx.vin.length tx.vout.length).write tx.rctSignatures.content = some base) :
    tx.hashedBase (head ++ body) =
      if tx.vin = [] ∧ tx.isTransfer = true then none else some base := by
  cases htransf : tx.isTransfer with
  | false =>
    unfold hashedBase
    rw [htransf, if_neg Bool.false_ne_true, hall]
    simp
  | true =>
    rw [hparsed.hashedBase_transfer htransf]
    cases hparsed.body with
    | bare hvin hrct hzySig htokenProofs hsize => rw [if_pos hvin, if_pos ⟨hvin, rfl⟩]
    | full hvin hbase hproofs hsize =>
      rw [base_allOutputs hbase] at hall
      rw [if_neg hvin, if_neg (fun hempty => hvin hempty.1), hbase]
      split at hall
      · cases hall
      · exact hall

/-- For every transaction that is parsed from a blob, the hash of its prunable part is the
same from the blob and from the object.  The hash that a pruned node computes is that of
the transaction exactly if the base part is null or no output is confidential, and inputs
are there unless the type is none of a transfer. -/
theorem prunedHash_iff (h : HashFunction D) {blob : List UInt8} {tx : Transaction}
    (hparse : setNull.parseAndValidateTxFromBlob blob = some tx)
    (hver : TxVersion.v2Ringct.toNat <= tx.version.toNat) :
    exists d, tx.calculateTransactionPrunableHash h (some blob) = some d ∧
      tx.calculateTransactionPrunableHash h none = some d ∧
      ((exists p hash, setNull.parseAndValidateTxBaseFromBlob blob = some p ∧
          p.getPrunedTransactionHash h d = some hash ∧
          tx.calculateTransactionHash h = some hash) <->
        ¬ (tx.rctSignatures.type ≠ .null ∧ tx.hasZyphoraOutputs = true) ∧
        ¬ (tx.vin = [] ∧ tx.isTransfer = true)) := by
  have hspells := spells_of_parse hparse (ne_v1_of_le hver)
  rcases hspells.parsed with ⟨content, head', head, body, _, _, _, rfl, hlen, hparsed⟩
  rcases hparsed.exists_reserialisedProofs with ⟨tail, htail⟩
  refine ⟨h.cnFastHash tail, hparsed.prunableHash_some h htail hlen.symm,
    hparsed.prunableHash_none h htail, ?_⟩
  rcases hspells.serializeBase with ⟨p, rest, hp, hsame⟩
  have hbase : setNull.parseAndValidateTxBaseFromBlob (head' ++ body) = some p := by
    unfold parseAndValidateTxBaseFromBlob
    rw [hp]
    exact if_pos (hsame.expand (parse_eq_some hparse).2)
  rw [hbase, <- hparsed.allOutputs_eq_none_iff]
  constructor
  · rintro ⟨p', hash, hp', hpruned, hhash⟩
    cases hp'
    rw [hsame.prunedHash, hparsed.prunedHash hver, Option.map_eq_some_iff] at hpruned
    rw [hparsed.transactionHash h htail, Option.map_eq_some_iff] at hhash
    rcases hpruned with ⟨base, hall, _⟩
    rcases hhash with ⟨base', hhashed, _⟩
    rw [hparsed.hashedBase_of_allOutputs hall] at hhashed
    refine ⟨?_, ?_⟩
    · rw [hall]
      exact Option.some_ne_none base
    · intro hempty
      rw [if_pos hempty] at hhashed
      cases hhashed
  · rintro ⟨hall, hempty⟩
    rcases Option.ne_none_iff_exists'.mp hall with ⟨base, hall⟩
    refine ⟨p, h.hashOfHashes (h.cnFastHash head) (h.cnFastHash base)
      (if tx.rctSignatures.type = .null then h.nullHash else h.cnFastHash tail), rfl, ?_, ?_⟩
    · rw [hsame.prunedHash, hparsed.prunedHash hver, hall]
      rfl
    · rw [hparsed.transactionHash h htail, hparsed.hashedBase_of_allOutputs hall, if_neg hempty]
      rfl

def minerTransaction : Transaction :=
  { setNull with
    version := .v4TxTypes
    vin := [.gen 7]
    vout := [{ amount := 8, target := .toKey ⟨9⟩ }]
    outputUnlockTimes := [10]
    prefixSize := 44
    unprunableSize := 45 }

def minerBlob : List UInt8 :=
  minerTransaction.txToBlob.getD []

def emptyTokenProof : TokenProofV :=
  .tokenOperation ⟨0, none, rfl⟩

def mintTransaction : Transaction :=
  { setNull with
    version := .v4TxTypes
    type := .mintToken
    vin := [.toKey { amount := 0, keyOffsets := [1], kImage := ⟨5⟩ }]
    vout :=
      [{ amount := 0, target := .toKey ⟨6⟩ },
       { amount := 0
         target := .zyphora
           { stealthAddress := ⟨7⟩, amountCommitment := ⟨8⟩, blindedTokenId := ⟨9⟩
             encryptedAmount := 10, mixAttr := 0, version := 1 } }]
    outputUnlockTimes := [0, 0]
    rctSignatures :=
      { type := .bulletproofPlus
        pseudoOuts := []
        ecdhInfo := [⟨zeroKey, ⟨11⟩⟩]
        outPk := [⟨12⟩]
        txnFee := 13
        p :=
          { RctSig.setNull.p with
            bulletproofsPlus :=
              [{ a := ⟨1⟩, a1 := ⟨1⟩, b := ⟨1⟩, r1 := ⟨1⟩, s1 := ⟨1⟩, d1 := ⟨1⟩
                 l := replicate 6 ⟨1⟩, r := replicate 6 ⟨1⟩ }]
            clsags := [{ s := [⟨2⟩], c1 := ⟨3⟩, d := ⟨4⟩ }]
            pseudoOuts := [⟨14⟩] } }
    tokenProofs := [emptyTokenProof]
    prefixSize := 180
    unprunableSize := 222 }

/-- One native output, with the range proof and the ring signature of a transfer. -/
def transferTransaction : Transaction :=
  { mintTransaction with
    type := .standard
    vout := [{ amount := 0, target := .toKey ⟨6⟩ }]
    outputUnlockTimes := [0]
    tokenProofs := []
    prefixSize := 78
    unprunableSize := 120 }

def transferBlob : List UInt8 :=
  transferTransaction.txToBlob.getD []

theorem prunedHash_iff_transferTransaction :
    exists d, transferTransaction.calculateTransactionPrunableHash spellingHash
        (some transferBlob) = some d ∧
      transferTransaction.calculateTransactionPrunableHash spellingHash none = some d ∧
      exists p hash, setNull.parseAndValidateTxBaseFromBlob transferBlob = some p ∧
        p.getPrunedTransactionHash spellingHash d = some hash ∧
        transferTransaction.calculateTransactionHash spellingHash = some hash := by
  have hparse : setNull.parseAndValidateTxFromBlob transferBlob = some transferTransaction := by
    decide +kernel
  rcases prunedHash_iff spellingHash hparse (by decide) with ⟨d, hblob, hobject, hiff⟩
  exact ⟨d, hblob, hobject, hiff.mpr ⟨by decide, by decide⟩⟩

def mintBlob : List UInt8 :=
  mintTransaction.txToBlob.getD []

def prunedMint : Transaction :=
  { mintTransaction with
    rctSignatures := { mintTransaction.rctSignatures with p := RctSig.setNull.p }
    tokenProofs := []
    pruned := true
    prefixSize := 0
    unprunableSize := 0 }

/-- The mint has a hash, and its pruned form has none. -/
theorem prunedMint_hash_throws :
    setNull.parseAndValidateTxFromBlob mintBlob = some mintTransaction ∧
    setNull.parseAndValidateTxBaseFromBlob mintBlob = some prunedMint ∧
    (mintTransaction.calculateTransactionHash spellingHash).isSome = true ∧
    forall d, prunedMint.getPrunedTransactionHash spellingHash d = none := by
  refine ⟨by decide +kernel, by decide +kernel, by decide +kernel, ?_⟩
  intro d
  rfl

end Transaction
end Wire
end Beldex
