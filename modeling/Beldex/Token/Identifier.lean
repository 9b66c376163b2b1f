import Beldex.Token.Ownership
import Beldex.Wire.Inputs

/-!
# The identifier of a token

A registration does not name its token.  The identifier is a point on the curve,
hashed from a domain, the serialised descriptor and the salt, if there is one.
-/

namespace Beldex.Token

open Basic Crypto Foundation Foundation.Fallible Codec Wire

variable {P Blob : Type}

def uint64Block : Codec UInt64 :=
  (block 64).iso UInt64.ofBitVec UInt64.toBitVec (fun _ => rfl) (fun _ => rfl)

def stringBlock : Codec (List UInt8) :=
  vectorOf byte

def tokenDescriptorBase : Codec TokenDescriptorBase :=
  (byte.pair (uint64Block.pair (uint64Block.pair (byte.pair (stringBlock.pair
    (stringBlock.pair (stringBlock.pair publicKeyBlock))))))).iso
      (fun p => ⟨p.1, p.2.1, p.2.2.1, p.2.2.2.1, p.2.2.2.2.1, p.2.2.2.2.2.1, p.2.2.2.2.2.2.1,
        p.2.2.2.2.2.2.2⟩)
      (fun d => (d.version, d.totalMaxSupply, d.currentSupply, d.decimalPoint, d.ticker, d.fullName,
        d.metaInfo, d.owner))
      (fun _ => rfl) (fun _ => rfl)

def domain : List UInt8 :=
  "Beldex token id v1".toList.map fun c => UInt8.ofNat c.toNat

def saltBytes : Option UInt32 -> List UInt8
  | none => []
  | some salt => Bytes.ofBits salt.toBitVec

def tokenIdSalt? (tdo : TokenDescriptorOperation P) : Option UInt32 :=
  if tdo.fieldIsSet tokenFieldTokenIdSalt then some tdo.tokenIdSalt else none

/-- The bytes that are hashed; there are none for a string that is longer than its size can
say. -/
def domainSeed (descriptor : TokenDescriptorBase) (salt : Option UInt32) : Option (List UInt8) :=
  (tokenDescriptorBase.write descriptor).map fun seed => domain ++ (seed ++ saltBytes salt)

theorem saltBytes_inj {s t : Option UInt32} (h : saltBytes s = saltBytes t) : s = t := by
  cases s with
  | none =>
    cases t with
    | none => rfl
    | some t => cases h
  | some s =>
    cases t with
    | none => cases h
    | some t => rw [UInt32.toBitVec_inj.mp ((Bytes.ofBits_inj rfl).mp h)]

theorem domainSeed_inj {d e : TokenDescriptorBase} {s t : Option UInt32} {bytes : List UInt8}
    (hd : domainSeed d s = some bytes) (he : domainSeed e t = some bytes) : d = e ∧ s = t := by
  rcases Option.map_eq_some_iff.mp hd with ⟨x, hx, rfl⟩
  rcases Option.map_eq_some_iff.mp he with ⟨y, hy, hxy⟩
  rcases tokenDescriptorBase.append_inj hy hx (List.append_cancel_left hxy) with ⟨hde, -, hsalt⟩
  exact ⟨hde.symm, (saltBytes_inj hsalt).symm⟩

/-- The bytes of an accepted registration determine its descriptor and its salt, and so does
the identifier where the hash does not collide. -/
theorem tokenId_binds_registration [DecidableEq P] (O : TokenOracles P)
    (codec : TokenCodec P Blob) (hashToPoint : List UInt8 -> TokenId)
    {a b : TokenDescriptorOperation P} {x y : List UInt8}
    (hcodec : forall d salt bytes, domainSeed d salt = some bytes ->
      codec.descriptorTokenId d salt = hashToPoint bytes)
    (ha : a.operationType = .registerToken) (hb : b.operationType = .registerToken)
    (hvalid : validateTokenDescriptorOperation O codec a = .ok ())
    (hvalid' : validateTokenDescriptorOperation O codec b = .ok ())
    (hx : domainSeed a.descriptor (tokenIdSalt? a) = some x)
    (hy : domainSeed b.descriptor (tokenIdSalt? b) = some y) :
    (x = y -> a.descriptor = b.descriptor ∧ tokenIdSalt? a = tokenIdSalt? b) ∧
    ((hashToPoint x = hashToPoint y -> x = y) ->
      getOrCalculateTokenId codec a = getOrCalculateTokenId codec b ->
        a.descriptor = b.descriptor ∧ tokenIdSalt? a = tokenIdSalt? b) := by
  have hbytes : x = y -> a.descriptor = b.descriptor ∧ tokenIdSalt? a = tokenIdSalt? b := by
    rintro rfl
    exact domainSeed_inj hx hy
  have hid : forall {op : TokenDescriptorOperation P} {bytes},
      op.operationType = .registerToken -> validateTokenDescriptorOperation O codec op = .ok () ->
      domainSeed op.descriptor (tokenIdSalt? op) = some bytes ->
        getOrCalculateTokenId codec op = hashToPoint bytes := by
    intro op bytes hop hvalid hseed
    unfold validateTokenDescriptorOperation validateOperationFields at hvalid
    simp only [hop, rejectIf_bind_ok] at hvalid
    rcases hvalid with ⟨-, -, -, -, -, hrest⟩
    rcases bind_ok.mp hrest with ⟨_, hfields, -⟩
    rw [rejectIf_bind_ok, rejectIf_ok] at hfields
    unfold getOrCalculateTokenId
    rw [hfields.1, hfields.2]
    exact hcodec _ _ _ hseed
  refine ⟨hbytes, fun hfree hsame => hbytes (hfree ?_)⟩
  rw [<- hid ha hvalid hx, <- hid hb hvalid' hy, hsame]

/-- A registration with a salt, or without one. -/
def saltedRegistration (fields : UInt8) : TokenDescriptorOperation Int :=
  { operationType := .registerToken, fields, amountCommitment := 1
    descriptor := ownedDescriptor ⟨1⟩, tokenIdSalt := 9 }

theorem tokenId_binds_registration_salted : exists x y,
    domainSeed (ownedDescriptor ⟨1⟩) none = some x ∧
      domainSeed (ownedDescriptor ⟨1⟩) (some 9) = some y ∧ x ≠ y := by
  refine ⟨_, _, rfl, rfl, fun hsame => ?_⟩
  have hsalts := ((tokenId_binds_registration repeatKeyOracles (plainCodec Int) (fun _ => ⟨7⟩)
    (a := saltedRegistration 4) (b := saltedRegistration 20)
    (fun _ _ _ _ => rfl) rfl rfl rfl rfl rfl rfl).1 hsame).2
  cases hsalts

end Beldex.Token
