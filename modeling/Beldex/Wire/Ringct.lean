import Beldex.Wire.Proofs

/-!
# Ring confidential signatures on the wire

The base part and the prunable part of a signature.  Which members are written
depends on the type of the signature, and the lengths of arrays come from the
transaction around it: arrays are written without a length, and the writer
refuses arrays of another length.

A part is read into an object that may have held another signature before.  The
content of a part is what of it goes over the wire; the members without content
keep what they had.  Members that are never serialised (the message, the ring,
the destinations of outputs, key images and the commitments of range proofs) are
restored elsewhere and left out.
-/

namespace Beldex.Wire

open Basic (BulletproofPlus RctType)
open Crypto Foundation Codec

/-! ## Members -/

structure EcdhTuple where
  mask : Key
  amount : Key
deriving DecidableEq

def ecdhTuple : Codec EcdhTuple :=
  (keyBlock.pair keyBlock).iso (fun p => ⟨p.1, p.2⟩) (fun t => (t.mask, t.amount))
    (fun _ => rfl) (fun _ => rfl)

structure BoroSig where
  s0 : List.Vector Key 64
  s1 : List.Vector Key 64
  ee : Key
deriving DecidableEq

structure RangeSig where
  asig : BoroSig
  ci : List.Vector Key 64
deriving DecidableEq

def key64 : Codec (List.Vector Key 64) :=
  vector 64 keyBlock

def rangeSig : Codec RangeSig :=
  (key64.pair (key64.pair (keyBlock.pair key64))).iso
    (fun p => ⟨⟨p.1, p.2.1, p.2.2.1⟩, p.2.2.2⟩)
    (fun t => (t.asig.s0, t.asig.s1, t.asig.ee, t.ci)) (fun _ => rfl) (fun _ => rfl)

structure Bulletproof where
  A : Key
  S : Key
  T1 : Key
  T2 : Key
  taux : Key
  mu : Key
  L : List Key
  R : List Key
  a : Key
  b : Key
  t : Key
deriving DecidableEq

def bulletproof : Codec Bulletproof :=
  ((keyBlock.pair (keyBlock.pair (keyBlock.pair (keyBlock.pair (keyBlock.pair (keyBlock.pair
    (keyV.pair (keyV.pair (keyBlock.pair (keyBlock.pair keyBlock)))))))))).iso
    (fun p => (⟨p.1, p.2.1, p.2.2.1, p.2.2.2.1, p.2.2.2.2.1, p.2.2.2.2.2.1, p.2.2.2.2.2.2.1,
      p.2.2.2.2.2.2.2.1, p.2.2.2.2.2.2.2.2.1, p.2.2.2.2.2.2.2.2.2.1,
      p.2.2.2.2.2.2.2.2.2.2⟩ : Bulletproof))
    (fun x => (x.A, x.S, x.T1, x.T2, x.taux, x.mu, x.L, x.R, x.a, x.b, x.t)) (fun _ => rfl)
    (fun _ => rfl)).guard fun x => !x.L.isEmpty && x.L.length == x.R.length

structure MgSig where
  ss : List (List Key)
  cc : Key
deriving DecidableEq

def mgSig (ringSize elements : Nat) : Codec MgSig :=
  (((keyBlock.array elements).array ringSize).pair keyBlock).iso (fun p => ⟨p.1, p.2⟩)
    (fun t => (t.ss, t.cc)) (fun _ => rfl) (fun _ => rfl)

structure Clsag where
  s : List Key
  c1 : Key
  d : Key
deriving DecidableEq

def clsag (ringSize : Nat) : Codec Clsag :=
  ((keyBlock.array ringSize).pair (keyBlock.pair keyBlock)).iso (fun p => ⟨p.1, p.2.1, p.2.2⟩)
    (fun t => (t.s, t.c1, t.d)) (fun _ => rfl) (fun _ => rfl)

/-! ## Types of signatures -/

def rctTypeOfNat : Nat -> Option RctType
  | 0 => some .null
  | 1 => some .full
  | 2 => some .simple
  | 3 => some .bulletproof
  | 4 => some .bulletproof2
  | 5 => some .clsag
  | 6 => some .bulletproofPlus
  | _ => none

def rctTypeToNat : RctType -> Nat
  | .null => 0
  | .full => 1
  | .simple => 2
  | .bulletproof => 3
  | .bulletproof2 => 4
  | .clsag => 5
  | .bulletproofPlus => 6

def rctType : Codec RctType :=
  (varint 8 (by decide)).along
    { toFun := rctTypeOfNat
      invFun := fun type => some (rctTypeToNat type)
      inv := by
        intro n type
        simp only [Option.some.injEq]
        constructor
        · rintro rfl
          cases type <;> rfl
        · intro h
          unfold rctTypeOfNat at h
          split at h <;> cases h <;> rfl }

variable (type : RctType)

def isRctBulletproof : Bool :=
  type == .bulletproof || type == .bulletproof2 || type == .clsag

def isRctBorromean : Bool :=
  type == .simple || type == .full

def isRctBulletproofPlus : Bool :=
  type == .bulletproofPlus

def isRctClsag : Bool :=
  type == .clsag || type == .bulletproofPlus

def isRctMg : Bool :=
  type == .full || type == .simple || type == .bulletproof || type == .bulletproof2

def hasShortAmounts : Bool :=
  type == .bulletproof2 || type == .clsag || type == .bulletproofPlus

def hasPrunablePseudoOuts : Bool :=
  isRctBulletproof type || isRctBulletproofPlus type

/-! ## The base part -/

structure RctSigBase where
  type : RctType
  pseudoOuts : List Key
  ecdhInfo : List EcdhTuple
  outPk : List Key
  txnFee : UInt64
deriving DecidableEq

/-- What follows the type of a signature that is not null. -/
structure RctBaseFields where
  txnFee : UInt64
  pseudoOuts : Option (List Key)
  ecdhAmounts : Option (List (BitVec 64))
  ecdhInfo : Option (List EcdhTuple)
  outPk : List Key

structure RctBaseContent where
  type : RctType
  fields : Option RctBaseFields

def rctBaseFields (inputs outputs : Nat) : Codec RctBaseFields :=
  (varint64.pair ((optional (type == .simple) (keyBlock.array inputs)).pair
    ((optional (hasShortAmounts type) ((block 64).array outputs)).pair
      ((optional (!hasShortAmounts type) (ecdhTuple.array outputs)).pair
        (keyBlock.array outputs))))).iso
    (fun p => ⟨p.1, p.2.1, p.2.2.1, p.2.2.2.1, p.2.2.2.2⟩)
    (fun t => (t.txnFee, t.pseudoOuts, t.ecdhAmounts, t.ecdhInfo, t.outPk))
    (fun _ => rfl) (fun _ => rfl)

def rctsigBase (inputs outputs : Nat) : Codec RctBaseContent :=
  (rctType.andThen fun type =>
    optional (type != .null) (rctBaseFields type inputs outputs)).iso
    (fun p => ⟨p.1, p.2⟩) (fun t => (t.type, t.fields)) (fun _ => rfl) (fun _ => rfl)

def EcdhTuple.shortAmount (t : EcdhTuple) : BitVec 64 :=
  t.amount.bits.setWidth 64

/-- An amount of eight bytes is read into a tuple whose mask stays. -/
def EcdhTuple.withShortAmount (t : EcdhTuple) (amount : BitVec 64) : EcdhTuple :=
  { t with amount := ⟨amount.setWidth 256⟩ }

def resize {α : Type} (l : List α) (size : Nat) (fill : α) : List α :=
  (l ++ List.replicate size fill).take size

def zeroEcdhTuple : EcdhTuple := ⟨zeroKey, zeroKey⟩

def RctSigBase.content (base : RctSigBase) : RctBaseContent where
  type := base.type
  fields := onlyIf (base.type != .null)
    { txnFee := base.txnFee
      pseudoOuts := onlyIf (base.type == .simple) base.pseudoOuts
      ecdhAmounts :=
        onlyIf (hasShortAmounts base.type) (base.ecdhInfo.map EcdhTuple.shortAmount)
      ecdhInfo := onlyIf (!hasShortAmounts base.type) base.ecdhInfo
      outPk := base.outPk }

def RctBaseFields.ecdhInto (fields : RctBaseFields) (target : List EcdhTuple) : List EcdhTuple :=
  match fields.ecdhAmounts with
  | some amounts =>
    List.zipWith EcdhTuple.withShortAmount (resize target amounts.length zeroEcdhTuple) amounts
  | none => fields.ecdhInfo.getD target

def RctBaseContent.into (content : RctBaseContent) (target : RctSigBase) : RctSigBase :=
  match content.fields with
  | none => { target with type := content.type }
  | some fields =>
    { type := content.type
      pseudoOuts := fields.pseudoOuts.getD target.pseudoOuts
      ecdhInfo := fields.ecdhInto target.ecdhInfo
      outPk := fields.outPk
      txnFee := fields.txnFee }

@[simp]
theorem length_resize {α : Type} (l : List α) (size : Nat) (fill : α) :
    (resize l size fill).length = size := by
  simp [resize]

theorem map_shortAmount_zipWith {tuples : List EcdhTuple} {amounts : List (BitVec 64)}
    (h : tuples.length = amounts.length) :
    (List.zipWith EcdhTuple.withShortAmount tuples amounts).map EcdhTuple.shortAmount =
      amounts := by
  induction amounts generalizing tuples with
  | nil => simp
  | cons amount amounts ih =>
    cases tuples with
    | nil => cases h
    | cons tuple tuples =>
      rw [List.zipWith_cons_cons, List.map_cons, ih (Nat.succ.inj h)]
      simp [EcdhTuple.shortAmount, EcdhTuple.withShortAmount]

theorem RctBaseContent.content_into {inputs outputs : Nat} {content : RctBaseContent}
    {bytes : List UInt8} (h : (rctsigBase inputs outputs).write content = some bytes)
    (target : RctSigBase) : (content.into target).content = content := by
  rcases content with ⟨type, fields⟩
  rw [rctsigBase, iso_write] at h
  rcases andThen_write_eq_some.mp h with ⟨_, _, _, hfields, _⟩
  have hpres := isSome_of_optional hfields
  cases fields with
  | none =>
    unfold RctBaseContent.into RctSigBase.content
    rw [<- hpres]
    rfl
  | some fields =>
    rcases fields with ⟨txnFee, pseudoOuts, ecdhAmounts, ecdhInfo, outPk⟩
    have htype : (type != .null) = true := hpres.symm
    rw [htype] at hfields
    have hfields : (rctBaseFields type inputs outputs).write _ = some _ := hfields
    rw [rctBaseFields, iso_write] at hfields
    rcases pair_write_eq_some.mp hfields with ⟨_, _, _, hfields, _⟩
    rcases pair_write_eq_some.mp hfields with ⟨_, _, hpseudo, hfields, _⟩
    rcases pair_write_eq_some.mp hfields with ⟨_, _, hamts, hfields, _⟩
    rcases pair_write_eq_some.mp hfields with ⟨_, _, hinfo, _, _⟩
    have hamts := isSome_of_optional hamts
    have hinfo := isSome_of_optional hinfo
    unfold RctBaseContent.into RctSigBase.content RctBaseFields.ecdhInto
    rw [htype, onlyIf_getD (isSome_of_optional hpseudo)]
    -- Of the amounts and the tuples one is there.
    cases ecdhAmounts with
    | none =>
      have hshort : hasShortAmounts type = false := hamts.symm
      rw [hshort, Bool.not_false] at hinfo
      rw [hshort, Bool.not_false, onlyIf_getD hinfo]
      rfl
    | some amounts =>
      have hshort : hasShortAmounts type = true := hamts.symm
      rw [hshort, Bool.not_true, Option.isSome_eq_false_iff, Option.isNone_iff_eq_none] at hinfo
      subst hinfo
      rw [hshort, map_shortAmount_zipWith (length_resize _ _ _)]
      rfl

/-! ## The prunable part -/

/-- The amounts that a range proof can be for, from the lengths of its vectors. -/
def nBulletproofMaxAmountsBase (lSize rSize : Nat) : Nat :=
  if lSize < 6 then 0
  else if lSize ≠ rSize then 0
  else if 6 + 4 < lSize then 0
  else 1 <<< (lSize - 6)

def nBulletproofMaxAmounts : Nat -> List Nat -> Nat
  | n, [] => n
  | n, n2 :: rest =>
    if 2 ^ 32 - 1 - n <= n2 then 0
    else if n2 = 0 then 0
    else nBulletproofMaxAmounts (n + n2) rest

def Bulletproof.maxAmounts (proof : Bulletproof) : Nat :=
  nBulletproofMaxAmountsBase proof.L.length proof.R.length

def bulletproofPlusMaxAmounts (proof : BulletproofPlus) : Nat :=
  nBulletproofMaxAmountsBase proof.l.length proof.r.length

structure RctSigPrunable where
  rangeSigs : List RangeSig
  bulletproofs : List Bulletproof
  bulletproofsPlus : List BulletproofPlus
  mgs : List MgSig
  clsags : List Clsag
  pseudoOuts : List Key
deriving DecidableEq

structure RctPrunableContent where
  bulletproofsPlus : Option (List BulletproofPlus)
  bulletproofs : Option (List Bulletproof)
  rangeSigs : Option (List RangeSig)
  clsags : Option (List Clsag)
  mgs : Option (List MgSig)
  pseudoOuts : Option (List Key)

/-- Range proofs behind their count, not more than there are outputs and for at least
so many amounts. -/
def rangeProofs {α : Type} (count : Codec Nat) (c : Codec α) (maxAmounts : α -> Nat)
    (outputs : Nat) : Codec (List α) :=
  (counted count c).guard fun proofs =>
    decide (proofs.length <= outputs) &&
      decide (outputs <= nBulletproofMaxAmounts 0 (proofs.map maxAmounts))

/-- The count of bulletproofs has a fixed width in the oldest format. -/
def bulletproofCount : Codec Nat :=
  if type == .bulletproof2 || type == .clsag then varint 32 (by decide) else fixed 4

def rctsigPrunable (inputs outputs ringSize : Nat) : Codec RctPrunableContent :=
  ((optional (isRctBulletproofPlus type)
      (rangeProofs (varint 32 (by decide)) bulletproofPlus bulletproofPlusMaxAmounts outputs)).pair
    ((optional (isRctBulletproof type)
        (rangeProofs (bulletproofCount type) bulletproof Bulletproof.maxAmounts outputs)).pair
      ((optional (isRctBorromean type) (rangeSig.array outputs)).pair
        ((optional (isRctClsag type) ((clsag ringSize).array inputs)).pair
          ((optional (isRctMg type)
              (if type == .full then (mgSig ringSize (inputs + 1)).array 1
                else (mgSig ringSize 2).array inputs)).pair
            (optional (hasPrunablePseudoOuts type) (keyBlock.array inputs))))))).iso
    (fun p => ⟨p.1, p.2.1, p.2.2.1, p.2.2.2.1, p.2.2.2.2.1, p.2.2.2.2.2⟩)
    (fun t => (t.bulletproofsPlus, t.bulletproofs, t.rangeSigs, t.clsags, t.mgs, t.pseudoOuts))
    (fun _ => rfl) (fun _ => rfl)

def RctSigPrunable.content (p : RctSigPrunable) (type : RctType) : RctPrunableContent where
  bulletproofsPlus := onlyIf (isRctBulletproofPlus type) p.bulletproofsPlus
  bulletproofs := onlyIf (isRctBulletproof type) p.bulletproofs
  rangeSigs := onlyIf (isRctBorromean type) p.rangeSigs
  clsags := onlyIf (isRctClsag type) p.clsags
  mgs := onlyIf (isRctMg type) p.mgs
  pseudoOuts := onlyIf (hasPrunablePseudoOuts type) p.pseudoOuts

def RctPrunableContent.into (content : RctPrunableContent) (target : RctSigPrunable) :
    RctSigPrunable where
  rangeSigs := content.rangeSigs.getD target.rangeSigs
  bulletproofs := content.bulletproofs.getD target.bulletproofs
  bulletproofsPlus := content.bulletproofsPlus.getD target.bulletproofsPlus
  mgs := content.mgs.getD target.mgs
  clsags := content.clsags.getD target.clsags
  pseudoOuts := content.pseudoOuts.getD target.pseudoOuts

theorem RctPrunableContent.content_into {type : RctType} {inputs outputs ringSize : Nat}
    {content : RctPrunableContent} {bytes : List UInt8}
    (h : (rctsigPrunable type inputs outputs ringSize).write content = some bytes)
    (target : RctSigPrunable) : (content.into target).content type = content := by
  rw [rctsigPrunable, iso_write] at h
  rcases pair_write_eq_some.mp h with ⟨_, _, hplus, h, _⟩
  rcases pair_write_eq_some.mp h with ⟨_, _, hproofs, h, _⟩
  rcases pair_write_eq_some.mp h with ⟨_, _, hranges, h, _⟩
  rcases pair_write_eq_some.mp h with ⟨_, _, hclsags, h, _⟩
  rcases pair_write_eq_some.mp h with ⟨_, _, hmgs, hpseudo, _⟩
  unfold RctSigPrunable.content RctPrunableContent.into
  rw [onlyIf_getD (isSome_of_optional hplus), onlyIf_getD (isSome_of_optional hproofs),
    onlyIf_getD (isSome_of_optional hranges), onlyIf_getD (isSome_of_optional hclsags),
    onlyIf_getD (isSome_of_optional hmgs), onlyIf_getD (isSome_of_optional hpseudo)]

structure RctSig extends RctSigBase where
  p : RctSigPrunable
deriving DecidableEq

end Beldex.Wire
