import Beldex.Wire.HashBinding

/-!
# Reading what was written

A transaction is written and the blob is read into an object that may have held
another transaction before.  The reader takes the sections that its own object
asks for, and members that are not read stay.  This module says when the object
asks for the sections that were written, and exactly when it then ends up with
what was written and nothing else.
-/

namespace Beldex
namespace Wire

open Basic (RctType TxType TxVersion)
open Crypto Foundation Codec List

namespace Transaction

structure Serialised where
  toPrefix : TransactionPrefix
  rctSignatures : RctSig
  zySig : List ZySig
  tokenProofs : List TokenProofV
deriving DecidableEq

variable (tx : Transaction)

def serialised : Serialised where
  toPrefix := tx.toTransactionPrefix
  rctSignatures := tx.rctSignatures
  zySig := tx.zySig
  tokenProofs := tx.tokenProofs

/-- The object after the writer has been through the prefix; the sections behind the base
part are selected by it. -/
def writer : Transaction :=
  tx.withPrefix tx.toTransactionPrefix.content

/-- What the transaction hands over: its written content in a new object. -/
def received : Transaction :=
  if tx.vin = [] then
    setNull.withPrefix tx.toTransactionPrefix.content
  else
    tx.writer.proofsContent.into ((setNull.withPrefix tx.toTransactionPrefix.content).withBase
      tx.rctSignatures.content)

variable (target : Transaction)

/-- The object of the reader in front of the sections behind the base part. -/
def reader : Transaction :=
  (target.withPrefix tx.toTransactionPrefix.content).withBase tx.rctSignatures.content

def isTokenChange (type : TxType) : Bool :=
  type == .updateToken || type == .burnToken

/-- The object asks for the sections that were written.  Its flag for a pruned transaction and
its token proofs are from before; the type is the object's own up to the second version. -/
structure GatesAgree (tx target : Transaction) : Prop where
  pruned : tx.rctSignatures.type ≠ .null -> target.pruned = tx.pruned
  type : hasUnlockTimes tx.version = false -> isTokenChange target.type = isTokenChange tx.type
  tokenProofs :
    tx.hasZyphoraOutputs = false -> isTokenChange tx.writer.type = false ->
      target.tokenProofs.isEmpty = tx.tokenProofs.isEmpty

def readsBase : Bool :=
  !tx.vin.isEmpty && tx.rctSignatures.type != .null

def readsPrunable : Bool :=
  !tx.vin.isEmpty && tx.hasPrunable

/-- Every member that is not read is empty in the object. -/
@[mk_iff]
structure Overwrites (tx target : Transaction) : Prop where
  type : hasUnlockTimes tx.version = false -> target.type = .standard
  outputUnlockTimes : hasUnlockTimes tx.version = false -> target.outputUnlockTimes = []
  rctType : tx.vin = [] -> target.rctSignatures.type = .null
  txnFee : tx.readsBase = false -> target.rctSignatures.txnFee = 0
  pseudoOuts :
    (tx.readsBase && tx.rctSignatures.type == .simple) = false ->
      target.rctSignatures.pseudoOuts = []
  ecdhInfo : tx.readsBase = false -> target.rctSignatures.ecdhInfo = []
  masks :
    (tx.readsBase && hasShortAmounts tx.rctSignatures.type) = true ->
      forall t, t ∈ target.rctSignatures.ecdhInfo.take tx.rctSignatures.ecdhInfo.length ->
        t.mask = zeroKey
  outPk : tx.readsBase = false -> target.rctSignatures.outPk = []
  bulletproofsPlus :
    (tx.readsPrunable && isRctBulletproofPlus tx.rctSignatures.type) = false ->
      target.rctSignatures.p.bulletproofsPlus = []
  bulletproofs :
    (tx.readsPrunable && isRctBulletproof tx.rctSignatures.type) = false ->
      target.rctSignatures.p.bulletproofs = []
  rangeSigs :
    (tx.readsPrunable && isRctBorromean tx.rctSignatures.type) = false ->
      target.rctSignatures.p.rangeSigs = []
  clsags :
    (tx.readsPrunable && isRctClsag tx.rctSignatures.type) = false ->
      target.rctSignatures.p.clsags = []
  mgs :
    (tx.readsPrunable && isRctMg tx.rctSignatures.type) = false -> target.rctSignatures.p.mgs = []
  prunablePseudoOuts :
    (tx.readsPrunable && hasPrunablePseudoOuts tx.rctSignatures.type) = false ->
      target.rctSignatures.p.pseudoOuts = []
  zySig : (!tx.vin.isEmpty && tx.hasZyphoraInputs) = false -> target.zySig = []
  tokenProofs : (!tx.vin.isEmpty && tx.writer.hasTokenProofs) = false -> target.tokenProofs = []

/-! ## Members that stay -/

theorem onlyIf_getD_eq_iff {α : Type} (present : Bool) (a b c : α) :
    (onlyIf present a).getD b = (onlyIf present a).getD c <-> (present = false -> b = c) := by
  cases present with
  | false => simp
  | true => simp

theorem into_prefix_eq_iff (tx : TransactionPrefix) (target : TransactionPrefix) :
    tx.content.into target = tx.content.into setNull.toTransactionPrefix <->
      (hasUnlockTimes tx.version = false -> target.type = .standard) ∧
        (hasUnlockTimes tx.version = false -> target.outputUnlockTimes = []) := by
  unfold PrefixContent.into PrefixContent.typeInto TransactionPrefix.content
  cases tx.version <;>
    simp [hasUnlockTimes, hasTxType, TxVersion.toNat, onlyIf, setNull]

theorem resize_cons {α : Type} (a : α) (l : List α) (size : Nat) (fill : α) :
    resize (a :: l) (size + 1) fill = a :: resize l size fill := by
  simp [resize, take_append]
  omega

theorem resize_nil {α : Type} (size : Nat) (fill : α) :
    resize [] (size + 1) fill = fill :: resize [] size fill := by
  simp [resize, replicate_succ]

theorem zipWith_resize_eq_iff (amounts : List (BitVec 64)) (l : List EcdhTuple) :
    zipWith EcdhTuple.withShortAmount (resize l amounts.length zeroEcdhTuple) amounts =
        zipWith EcdhTuple.withShortAmount (resize [] amounts.length zeroEcdhTuple) amounts <->
      forall t, t ∈ l.take amounts.length -> t.mask = zeroKey := by
  induction amounts generalizing l with
  | nil => simp
  | cons amount amounts ih =>
    rw [length_cons, resize_nil]
    cases l with
    | nil =>
      rw [resize_nil]
      simp
    | cons tuple l =>
      rw [resize_cons, zipWith_cons_cons, zipWith_cons_cons, cons.injEq, ih, take_succ_cons]
      simp [EcdhTuple.withShortAmount, zeroEcdhTuple]

theorem into_base_eq_iff (base target : RctSigBase) :
    base.content.into target = base.content.into RctSig.setNull.toRctSigBase <->
      ((base.type != .null) = false -> target.txnFee = 0) ∧
      ((base.type != .null && base.type == .simple) = false -> target.pseudoOuts = []) ∧
      ((base.type != .null) = false -> target.ecdhInfo = []) ∧
      ((base.type != .null && hasShortAmounts base.type) = true ->
        forall t, t ∈ target.ecdhInfo.take base.ecdhInfo.length -> t.mask = zeroKey) ∧
      ((base.type != .null) = false -> target.outPk = []) := by
  unfold RctBaseContent.into RctSigBase.content
  cases hnull : base.type != .null with
  | false =>
    rw [onlyIf_false]
    simp [RctSig.setNull]
    tauto
  | true =>
    rw [onlyIf_true]
    simp only [RctSigBase.mk.injEq, true_and, and_true, Bool.true_and, Bool.true_eq_false,
      false_implies]
    rw [onlyIf_getD_eq_iff, show RctSig.setNull.pseudoOuts = [] from rfl]
    unfold RctBaseFields.ecdhInto
    cases hshort : hasShortAmounts base.type with
    | false => simp
    | true =>
      have hmasks := zipWith_resize_eq_iff (base.ecdhInfo.map EcdhTuple.shortAmount) target.ecdhInfo
      rw [length_map] at hmasks
      simp only [onlyIf_true, length_map, true_implies]
      exact and_congr_right fun _ => hmasks

theorem into_prunable_eq_iff (present : Bool) (type : RctType) (p target : RctSigPrunable) :
    (match onlyIf present (p.content type) with
      | some prunable => prunable.into target
      | none => target) = (match onlyIf present (p.content type) with
      | some prunable => prunable.into RctSig.setNull.p
      | none => RctSig.setNull.p) <->
      ((present && isRctBulletproofPlus type) = false -> target.bulletproofsPlus = []) ∧
      ((present && isRctBulletproof type) = false -> target.bulletproofs = []) ∧
      ((present && isRctBorromean type) = false -> target.rangeSigs = []) ∧
      ((present && isRctClsag type) = false -> target.clsags = []) ∧
      ((present && isRctMg type) = false -> target.mgs = []) ∧
      ((present && hasPrunablePseudoOuts type) = false -> target.pseudoOuts = []) := by
  cases present with
  | false =>
    rcases target with ⟨rangeSigs, bulletproofs, bulletproofsPlus, mgs, clsags, pseudoOuts⟩
    simp only [onlyIf_false, RctSig.setNull, RctSigPrunable.mk.injEq, Bool.false_and, true_implies]
    tauto
  | true =>
    rw [onlyIf_true]
    unfold RctPrunableContent.into RctSigPrunable.content
    simp only [RctSigPrunable.mk.injEq, onlyIf_getD_eq_iff, Bool.true_and, RctSig.setNull]
    tauto

theorem isTokenChange_typeInto (tx : TransactionPrefix) {type : TxType}
    (h : hasUnlockTimes tx.version = false -> isTokenChange type = isTokenChange tx.type) :
    isTokenChange (tx.content.typeInto type) = isTokenChange (tx.content.typeInto tx.type) := by
  unfold PrefixContent.typeInto TransactionPrefix.content
  cases hver : tx.version with
  | v0 | v1 | v2Ringct => exact h (by rw [hver]; rfl)
  | v3PerOutputUnlockTimes | v4TxTypes => rfl

theorem rctSig_eq_setNull_iff (rct : RctSig) :
    rct = RctSig.setNull <->
      rct.type = .null ∧ rct.txnFee = 0 ∧ rct.pseudoOuts = [] ∧ rct.ecdhInfo = [] ∧
        rct.outPk = [] ∧ rct.p = RctSig.setNull.p := by
  rcases rct with ⟨⟨type, pseudoOuts, ecdhInfo, outPk, txnFee⟩, p⟩
  unfold RctSig.setNull
  simp only [RctSig.mk.injEq, RctSigBase.mk.injEq]
  tauto

/-! ## A transaction without inputs -/

section

variable {tx : Transaction} (hvin : tx.vin = [])

include hvin

theorem received_of_bare : tx.received = setNull.withPrefix tx.toTransactionPrefix.content :=
  if_pos hvin

theorem readsBase_of_bare : tx.readsBase = false := by
  unfold readsBase
  rw [hvin]
  rfl

theorem readsPrunable_of_bare : tx.readsPrunable = false := by
  unfold readsPrunable
  rw [hvin]
  rfl

theorem serialised_bare_iff (target : Transaction) :
    (target.withPrefix tx.toTransactionPrefix.content).serialised = tx.received.serialised <->
      tx.Overwrites target := by
  have hfront : (target.withPrefix tx.toTransactionPrefix.content).toTransactionPrefix =
      (setNull.withPrefix tx.toTransactionPrefix.content).toTransactionPrefix <-> _ :=
    into_prefix_eq_iff tx.toTransactionPrefix target.toTransactionPrefix
  rw [received_of_bare hvin, overwrites_iff, readsBase_of_bare hvin, readsPrunable_of_bare hvin]
  unfold serialised
  rw [Serialised.mk.injEq, hfront]
  change _ ∧ target.rctSignatures = RctSig.setNull ∧ target.zySig = [] ∧
    target.tokenProofs = [] <-> _
  rw [rctSig_eq_setNull_iff]
  have hp : target.rctSignatures.p = RctSig.setNull.p <-> _ :=
    into_prunable_eq_iff false .null RctSig.setNull.p target.rctSignatures.p
  rw [hp, hvin]
  simp only [isEmpty_nil, Bool.not_true, Bool.false_and, true_implies, Bool.false_eq_true,
    false_implies, true_and, and_assoc]

end

/-! ## A transaction with inputs -/

section

variable {tx : Transaction} (hvin : tx.vin ≠ [])

include hvin

theorem received_of_full : tx.received = tx.writer.proofsContent.into
      ((setNull.withPrefix tx.toTransactionPrefix.content).withBase tx.rctSignatures.content) :=
  if_neg hvin

theorem readsBase_of_full : tx.readsBase = (tx.rctSignatures.type != .null) := by
  unfold readsBase
  rw [isEmpty_eq_false_iff.mpr hvin]
  rfl

/-- With what was written the object ends up as a new one exactly if nothing of the old one
is left. -/
theorem serialised_full_iff (target : Transaction) :
    (tx.writer.proofsContent.into (tx.reader target)).serialised = tx.received.serialised <->
      tx.Overwrites target := by
  have hfront := into_prefix_eq_iff tx.toTransactionPrefix target.toTransactionPrefix
  have hbase := into_base_eq_iff tx.rctSignatures.toRctSigBase target.rctSignatures.toRctSigBase
  have hp := into_prunable_eq_iff tx.hasPrunable tx.rctSignatures.type tx.rctSignatures.p
    target.rctSignatures.p
  have hzySig := onlyIf_getD_eq_iff tx.hasZyphoraInputs tx.zySig target.zySig []
  have htokenProofs := onlyIf_getD_eq_iff tx.writer.hasTokenProofs tx.tokenProofs
    target.tokenProofs []
  rw [received_of_full hvin, overwrites_iff, readsBase_of_full hvin, readsPrunable,
    isEmpty_eq_false_iff.mpr hvin, Bool.not_false, Bool.true_and, Bool.true_and, Bool.true_and]
  unfold serialised
  rw [Serialised.mk.injEq, RctSig.mk.injEq]
  refine (and_congr hfront (and_congr (and_congr hbase hp)
    (and_congr hzySig htokenProofs))).trans ?_
  simp only [hvin, false_implies, true_and, and_assoc]

end

/-! ## What the reader makes of the blob -/

theorem reader_type : (tx.reader target).rctSignatures.type = tx.rctSignatures.type := by
  change (tx.rctSignatures.content.into target.rctSignatures.toRctSigBase).type = _
  unfold RctBaseContent.into
  split
  · rfl
  · rfl

theorem reader_proofsArchive {tx target : Transaction} (h : tx.GatesAgree target) :
    (tx.reader target).proofsArchive = tx.writer.proofsArchive := by
  have hprunable : (tx.reader target).hasPrunable = tx.writer.hasPrunable := by
    unfold hasPrunable
    rw [reader_type]
    change (!target.pruned && tx.rctSignatures.type != .null) =
      (!tx.pruned && tx.rctSignatures.type != .null)
    by_cases hnull : tx.rctSignatures.type = .null
    · simp [hnull]
    · rw [h.pruned hnull]
  have hchange : isTokenChange (tx.reader target).type = isTokenChange tx.writer.type :=
    isTokenChange_typeInto tx.toTransactionPrefix h.type
  have htokenProofs : (tx.reader target).hasTokenProofs = tx.writer.hasTokenProofs := by
    have hgate : forall tx' : Transaction, tx'.hasTokenProofs =
        (!tx'.tokenProofs.isEmpty || (tx'.hasZyphoraOutputs || isTokenChange tx'.type)) := by
      intro tx'
      unfold hasTokenProofs isTokenChange
      rw [Bool.or_assoc, Bool.or_assoc]
    rw [hgate, hgate, hchange]
    change (!target.tokenProofs.isEmpty || (tx.hasZyphoraOutputs || _)) =
      (!tx.tokenProofs.isEmpty || (tx.hasZyphoraOutputs || _))
    cases hannounced : tx.hasZyphoraOutputs || isTokenChange tx.writer.type with
    | true => simp
    | false =>
      rw [Bool.or_eq_false_iff] at hannounced
      rw [h.tokenProofs hannounced.1 hannounced.2]
  unfold proofsArchive
  rw [hprunable, htokenProofs, reader_type]
  rfl

theorem expandTransaction1_congr {tx tx' : Transaction} (h : tx.serialised = tx'.serialised)
    (baseOnly : Bool) : tx.expandTransaction1 baseOnly = tx'.expandTransaction1 baseOnly := by
  have hfront : tx.toTransactionPrefix = tx'.toTransactionPrefix :=
    congrArg Serialised.toPrefix h
  have hrct : tx.rctSignatures = tx'.rctSignatures := congrArg Serialised.rctSignatures h
  unfold expandTransaction1 isCoinbase nativeOutputs
  rw [hfront, hrct]

theorem write_cases {tx tx' : Transaction} {blob : List UInt8} (hver : tx.version ≠ .v1)
    (h : tx.write = some (blob, tx')) :
    exists head, prefixArchive.write tx.toTransactionPrefix.content = some head ∧
      ((tx.vin = [] ∧ blob = head) ∨ (tx.vin ≠ [] ∧ exists middle tail,
          tx.baseArchive.write tx.rctSignatures.content = some middle ∧
            tx.writer.proofsArchive.write tx.writer.proofsContent = some tail ∧
              blob = head ++ middle ++ tail)) := by
  rcases exists_prefix_of_write h with ⟨head, hhead⟩
  refine ⟨head, hhead, ?_⟩
  rw [write_of_front hhead hver] at h
  split at h
  next hempty =>
    cases h
    exact Or.inl ⟨List.isEmpty_iff.mp hempty, rfl⟩
  next hempty =>
    rw [List.isEmpty_iff] at hempty
    rw [Option.bind_eq_some_iff] at h
    rcases h with ⟨middle, hmiddle, h⟩
    rw [Option.bind_eq_some_iff] at h
    rcases h with ⟨tail, htail, heq⟩
    cases heq
    exact Or.inr ⟨hempty, middle, tail, hmiddle, htail, rfl⟩

/-- An object that reads a blob with inputs takes the bytes behind the base part as the
sections that it asks for. -/
theorem spells_full {tx target r : Transaction} {head middle tail : List UInt8} (hvin : tx.vin ≠ [])
    (hhead : prefixArchive.write tx.toTransactionPrefix.content = some head)
    (hmiddle : tx.baseArchive.write tx.rctSignatures.content = some middle)
    (h : Spells target r (head ++ middle ++ tail)) :
    exists q, (tx.reader target).proofsArchive.write q = some tail ∧
      r.serialised = (q.into (tx.reader target)).serialised := by
  generalize hblob : head ++ middle ++ tail = blob at h
  rw [append_assoc] at hblob
  cases h with
  | @bare content _ hhead' hversion' hvin' =>
    rw [<- append_nil blob] at hblob
    rcases prefixArchive.append_inj hhead hhead' hblob with ⟨rfl, _, _⟩
    exact absurd hvin' hvin
  | @full content base proofs head' middle' tail' hhead' hversion' hvin' hbase' hproofs' =>
    rw [append_assoc] at hblob
    rcases prefixArchive.append_inj hhead hhead' hblob with ⟨rfl, rfl, hrest⟩
    rcases append_inj _ hmiddle hbase' hrest with ⟨rfl, rfl, rfl⟩
    exact ⟨proofs, hproofs', rfl⟩

theorem spells_bare {tx target r : Transaction} {head : List UInt8} (hvin : tx.vin = [])
    (hhead : prefixArchive.write tx.toTransactionPrefix.content = some head)
    (h : Spells target r head) :
    r.serialised = (target.withPrefix tx.toTransactionPrefix.content).serialised := by
  generalize hblob : head = blob at h
  rw [<- append_nil head] at hblob
  cases h with
  | @bare content _ hhead' hversion' hvin' =>
    rw [<- append_nil blob] at hblob
    rcases prefixArchive.append_inj hhead hhead' hblob with ⟨rfl, _, _⟩
    rfl
  | @full content base proofs head' middle' tail' hhead' hversion' hvin' hbase' hproofs' =>
    rw [append_assoc] at hblob
    rcases prefixArchive.append_inj hhead hhead' hblob with ⟨rfl, _, _⟩
    exact absurd hvin hvin'

theorem received_version : tx.received.version = tx.version := by
  unfold received
  split
  · rfl
  · rfl

def unannouncedProofs : Transaction :=
  { minerTransaction with tokenProofs := [emptyTokenProof] }

end Transaction
end Wire
end Beldex
