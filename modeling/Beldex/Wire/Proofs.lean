import Beldex.Wire.Inputs

/-!
# Signatures and proofs of privacy tokens on the wire

Every object is checked after its members, on writing as on reading: scalars
have to be reduced and vectors that belong together have to have fitting
lengths.  Key images inside of ring signatures are not serialised; they are
restored from the inputs.
-/

namespace Beldex.Wire

open Basic (BgeProof BulletproofPlus DoubleSchnorrSig LinearCompositionProof SchnorrSig
  VectorUgAggregationProof ZyBalanceProof ZyOutsRangeProof)
open Crypto Foundation Codec

/-- The check for a reduced scalar; the limbs it compares with spell the order of the
group less one. -/
def scCheck (k : Key) : Bool :=
  decide (k.bits.toNat <= 2 ^ 252 + 27742317777372353535851937790883648492)

def keyV : Codec (List Key) :=
  vectorOf keyBlock

/-! ## Schnorr proofs -/

def schnorrSig : Codec SchnorrSig :=
  ((keyBlock.pair keyBlock).iso (fun p => (⟨p.1, p.2⟩ : SchnorrSig)) (fun t => (t.y, t.c))
    (fun _ => rfl) (fun _ => rfl)).guard fun t => scCheck t.y && scCheck t.c

def linearCompositionProof : Codec LinearCompositionProof :=
  ((keyBlock.pair (keyBlock.pair keyBlock)).iso
    (fun p => (⟨p.1, p.2.1, p.2.2⟩ : LinearCompositionProof)) (fun t => (t.y0, t.y1, t.c))
    (fun _ => rfl) (fun _ => rfl)).guard fun t => scCheck t.y0 && scCheck t.y1 && scCheck t.c

def doubleSchnorrSig : Codec DoubleSchnorrSig :=
  ((keyBlock.pair (keyBlock.pair keyBlock)).iso
    (fun p => (⟨p.1, p.2.1, p.2.2⟩ : DoubleSchnorrSig)) (fun t => (t.y0, t.y1, t.c))
    (fun _ => rfl) (fun _ => rfl)).guard fun t => scCheck t.y0 && scCheck t.y1 && scCheck t.c

/-! ## Membership and range proofs -/

def bgeProof : Codec BgeProof :=
  ((keyBlock.pair (keyBlock.pair (keyV.pair (keyV.pair (keyBlock.pair keyBlock))))).iso
    (fun p => (⟨p.1, p.2.1, p.2.2.1, p.2.2.2.1, p.2.2.2.2.1, p.2.2.2.2.2⟩ : BgeProof))
    (fun t => (t.a, t.b, t.pk, t.f, t.y, t.z)) (fun _ => rfl) (fun _ => rfl)).guard fun t =>
      !t.pk.isEmpty && t.f.length == t.pk.length * 3 && scCheck t.y && scCheck t.z &&
        t.f.all scCheck

def bulletproofPlus : Codec BulletproofPlus :=
  ((keyBlock.pair (keyBlock.pair (keyBlock.pair (keyBlock.pair (keyBlock.pair (keyBlock.pair
    (keyV.pair keyV))))))).iso
    (fun p => (⟨p.1, p.2.1, p.2.2.1, p.2.2.2.1, p.2.2.2.2.1, p.2.2.2.2.2.1, p.2.2.2.2.2.2.1,
      p.2.2.2.2.2.2.2⟩ : BulletproofPlus))
    (fun t => (t.a, t.a1, t.b, t.r1, t.s1, t.d1, t.l, t.r)) (fun _ => rfl)
    (fun _ => rfl)).guard fun t => !t.l.isEmpty && t.l.length == t.r.length

def vectorUgAggregationProof : Codec (VectorUgAggregationProof Key) :=
  ((keyV.pair (keyV.pair (keyV.pair keyBlock))).iso
    (fun p => (⟨p.1, p.2.1, p.2.2.1, p.2.2.2⟩ : VectorUgAggregationProof Key))
    (fun t => (t.amountCommitmentsForRpAggregation, t.y0s, t.y1s, t.c)) (fun _ => rfl)
    (fun _ => rfl)).guard fun t =>
      !t.amountCommitmentsForRpAggregation.isEmpty &&
        t.y0s.length == t.amountCommitmentsForRpAggregation.length &&
        t.y1s.length == t.amountCommitmentsForRpAggregation.length && scCheck t.c &&
        t.y0s.all scCheck && t.y1s.all scCheck

/-! ## Token proofs -/

def zyTokenSurjectionProof : Codec (List BgeProof) :=
  (vectorOf bgeProof).guard fun bgeProofs => !bgeProofs.isEmpty

def zyBalanceProof : Codec (ZyBalanceProof Key) :=
  (keyBlock.pair doubleSchnorrSig).iso (fun p => ⟨p.1, p.2⟩) (fun t => (t.p, t.dss))
    (fun _ => rfl) (fun _ => rfl)

/-- The proof of a token operation; without its flag the composition proof is not
serialised. -/
structure TokenOperationProof where
  flags : UInt8
  compositionProof : Option LinearCompositionProof
  announced : compositionProof.isSome = (flags &&& 1 != 0)
deriving DecidableEq

def tokenOperationProof : Codec TokenOperationProof :=
  (byte.andThen fun flags =>
    optional (flags &&& 1 != 0) linearCompositionProof).along
    { toFun := fun p =>
        if h : p.2.isSome = (p.1 &&& 1 != 0) then some ⟨p.1, p.2, h⟩ else none
      invFun := fun t => some (t.flags, t.compositionProof)
      inv := by
        rintro ⟨flags, proof⟩ ⟨flags', proof', h⟩
        simp only [Option.some.injEq, Prod.mk.injEq]
        constructor
        · rintro ⟨rfl, rfl⟩
          rw [dif_pos h]
        · intro heq
          split at heq
          · cases heq
            exact ⟨rfl, rfl⟩
          · cases heq }

def zyOutsRangeProof : Codec (ZyOutsRangeProof Key) :=
  (bulletproofPlus.pair vectorUgAggregationProof).iso (fun p => ⟨p.1, p.2⟩)
    (fun t => (t.bpp, t.aggregationProof)) (fun _ => rfl) (fun _ => rfl)

inductive TokenProofV where
  | surjection (bgeProofs : List BgeProof)
  | balance (proof : ZyBalanceProof Key)
  | tokenOperation (proof : TokenOperationProof)
  | ownership (sig : SchnorrSig)
  | outsRange (proof : ZyOutsRangeProof Key)
deriving DecidableEq

namespace TokenProofV

def variantTag : TokenProofV -> UInt8
  | .surjection _ => 0xb0
  | .balance _ => 0xb1
  | .tokenOperation _ => 0xb2
  | .ownership _ => 0xb3
  | .outsRange _ => 0xb5

def surjection? : TokenProofV -> Option (List BgeProof)
  | .surjection bgeProofs => some bgeProofs
  | _ => none

def balance? : TokenProofV -> Option (ZyBalanceProof Key)
  | .balance proof => some proof
  | _ => none

def tokenOperation? : TokenProofV -> Option TokenOperationProof
  | .tokenOperation proof => some proof
  | _ => none

def ownership? : TokenProofV -> Option SchnorrSig
  | .ownership sig => some sig
  | _ => none

def outsRange? : TokenProofV -> Option (ZyOutsRangeProof Key)
  | .outsRange proof => some proof
  | _ => none

def members (tag : UInt8) : Codec TokenProofV :=
  if tag = 0xb0 then
    zyTokenSurjectionProof.alternative .surjection surjection? fun _ b => by
      cases b <;> simp [surjection?, eq_comm]
  else if tag = 0xb1 then
    zyBalanceProof.alternative .balance balance? fun _ b => by cases b <;> simp [balance?, eq_comm]
  else if tag = 0xb2 then
    tokenOperationProof.alternative .tokenOperation tokenOperation? fun _ b => by
      cases b <;> simp [tokenOperation?, eq_comm]
  else if tag = 0xb3 then
    schnorrSig.alternative .ownership ownership? fun _ b => by
      cases b <;> simp [ownership?, eq_comm]
  else if tag = 0xb5 then
    zyOutsRangeProof.alternative .outsRange outsRange? fun _ b => by
      cases b <;> simp [outsRange?, eq_comm]
  else
    never

end TokenProofV

def tokenProofV : Codec TokenProofV :=
  tagged TokenProofV.variantTag TokenProofV.members

/-! ## Signatures of token inputs -/

structure ClsagGgx where
  sG : List Key
  sX : List Key
  c1 : Key
  d : Key
  e : Key
deriving DecidableEq

def clsagGgx : Codec ClsagGgx :=
  ((keyV.pair (keyV.pair (keyBlock.pair (keyBlock.pair keyBlock)))).iso
    (fun p => (⟨p.1, p.2.1, p.2.2.1, p.2.2.2.1, p.2.2.2.2⟩ : ClsagGgx))
    (fun t => (t.sG, t.sX, t.c1, t.d, t.e)) (fun _ => rfl) (fun _ => rfl)).guard fun t =>
      !t.sG.isEmpty && t.sG.length == t.sX.length

structure ZySig where
  clsagSig : ClsagGgx
  pseudoOutAmountCommitment : Key
  pseudoOutBlindedTokenId : Key
deriving DecidableEq

def zySig : Codec ZySig :=
  (clsagGgx.pair (keyBlock.pair keyBlock)).iso (fun p => ⟨p.1, p.2.1, p.2.2⟩)
    (fun t => (t.clsagSig, t.pseudoOutAmountCommitment, t.pseudoOutBlindedTokenId))
    (fun _ => rfl) (fun _ => rfl)

def signatureV : Codec ZySig :=
  tagged (fun _ => 0xb4) fun tag => if tag = 0xb4 then zySig else never

end Beldex.Wire
