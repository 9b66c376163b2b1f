import Beldex.Bns.Validate

/-!
# What a signature authorises

The owner of a name signs the values and owners of a request one after the
other, without saying which field a part belongs to or how long it is.  Two
requests can therefore have the same signed bytes.  This module says when they
do and nevertheless ask for the same change.
-/

namespace Beldex.Bns

open Basic Crypto Foundation Foundation.Fallible BnsExtra List

/-! ## What a request asks for -/

structure Settings where
  bchat : Option (List UInt8)
  wallet : Option (List UInt8)
  belnet : Option (List UInt8)
  ethAddr : Option (List UInt8)
  owner : Option GenericOwner
  backupOwner : Option GenericOwner
deriving DecidableEq

namespace BnsExtra

def value? (extra : BnsExtra) (bit : UInt8) (value : List UInt8) : Option (List UInt8) :=
  if extra.fieldIsSet bit then some value else none

def settings (extra : BnsExtra) : Settings where
  bchat := extra.value? ExtraField.encryptedBchatValue extra.encryptedBchatValue
  wallet := extra.value? ExtraField.encryptedWalletValue extra.encryptedWalletValue
  belnet := extra.value? ExtraField.encryptedBelnetValue extra.encryptedBelnetValue
  ethAddr := extra.value? ExtraField.encryptedEthAddrValue extra.encryptedEthAddrValue
  owner := extra.owner?
  backupOwner := extra.backupOwner?

/-- The term that a request sets: a renewal extends it, and an entry that buys as well
starts a new one. -/
def term (extra : BnsExtra) : Option MappingYears :=
  if extra.isBuying || extra.isRenewing then some extra.mappingYears else none

end BnsExtra

/-! ## The lengths of accepted values -/

def encryptedLengths : MappingType -> List Nat
  | .bchat => [73, 49]
  | .wallet => [113, 105]
  | .belnet => [72]
  | .ethAddr => [60]
  | _ => []

variable {type : MappingType} {value : List UInt8}

theorem checkLengths_eq_ok {max : Nat} (h : checkLengths type value max = .ok ()) :
    if type = .wallet then value.length = 73 + max ∨ value.length = 65 + max
    else value.length = max := by
  have hcheck := rejectIf_ok.mp h
  rw [Bool.not_eq_false'] at hcheck
  split
  next htype =>
    rw [if_pos htype, Bool.or_eq_true] at hcheck
    exact hcheck.imp beq_iff_eq.mp beq_iff_eq.mp
  next htype =>
    rw [if_neg htype] at hcheck
    exact beq_iff_eq.mp hcheck

theorem length_of_validateEncrypted (h : validateEncrypted type value = .ok ()) :
    value.length ∈ encryptedLengths type := by
  cases type with
  | bchat =>
    change (if value.length = 49 then checkLengths .bchat value 49
      else checkLengths .bchat value 73) = .ok () at h
    split at h
    · next hlen => exact mem_cons_of_mem _ (mem_singleton.mpr hlen)
    · exact mem_cons.mpr (Or.inl (checkLengths_eq_ok h))
  | wallet =>
    rcases checkLengths_eq_ok h with hlen | hlen
    · exact mem_cons.mpr (Or.inl hlen)
    · exact mem_cons_of_mem _ (mem_singleton.mpr hlen)
  | belnet2Years => cases h
  | belnet5Years => cases h
  | belnet10Years => cases h
  | _ => exact mem_singleton.mpr (checkLengths_eq_ok h)

/-- A value is absent with its field, and otherwise has a length of its type. -/
def Measured (extra : BnsExtra) (bit : UInt8) (type : MappingType) (value : List UInt8) : Prop :=
  if extra.fieldIsSet bit then value.length ∈ encryptedLengths type else value = []

variable {extra : BnsExtra} {bit : UInt8}

theorem measured_of_checks {field : String}
    (hgiven : checkNotRequested extra bit (!value.isEmpty) field = .ok ())
    (hvalue : checkValue extra bit type value = .ok ()) : Measured extra bit type value := by
  have hgiven := rejectIf_ok.mp hgiven
  unfold Measured
  unfold checkValue at hvalue
  split
  next hset =>
    rw [if_pos hset] at hvalue
    exact length_of_validateEncrypted hvalue
  · next hset => simpa [hset] using hgiven

structure WellMeasured (extra : BnsExtra) : Prop where
  bchat : Measured extra ExtraField.encryptedBchatValue .bchat extra.encryptedBchatValue
  wallet : Measured extra ExtraField.encryptedWalletValue .wallet extra.encryptedWalletValue
  belnet : Measured extra ExtraField.encryptedBelnetValue .belnet extra.encryptedBelnetValue
  ethAddr : Measured extra ExtraField.encryptedEthAddrValue .ethAddr extra.encryptedEthAddrValue

theorem wellMeasured_of_ok {env : NameEnvironment} {t : Tables} {hfVersion : Hf}
    {blockchainHeight : Nat} {tx : NameTx}
    (h : validateBnsTx env t hfVersion blockchainHeight tx = .ok extra) : WellMeasured extra := by
  rcases validateBnsTx_eq_ok env h with ⟨hgiven, hvals, _⟩
  rcases bind_ok.mp hgiven with ⟨_, hbchat, hgiven⟩
  rcases bind_ok.mp hgiven with ⟨_, hwallet, hgiven⟩
  rcases bind_ok.mp hgiven with ⟨_, hbelnet, hgiven⟩
  rcases bind_ok.mp hgiven with ⟨_, hethAddr, _⟩
  rcases bind_ok.mp hvals with ⟨_, hbchat', hvals⟩
  rcases bind_ok.mp hvals with ⟨_, hwallet', hvals⟩
  rcases bind_ok.mp hvals with ⟨_, hbelnet', hvals⟩
  rcases bind_ok.mp hvals with ⟨_, _, hethAddr'⟩
  exact
    { bchat := measured_of_checks hbchat hbchat'
      wallet := measured_of_checks hwallet hwallet'
      belnet := measured_of_checks hbelnet hbelnet'
      ethAddr := measured_of_checks hethAddr hethAddr' }

/-! ## Owners in the signed bytes -/

/-- What is signed of an owner: its kind and its keys, but not whether its address is a
subaddress. -/
def ownerBytes : Option GenericOwner -> List UInt8
  | some owner => owner.type.toByte :: owner.guts
  | none => []

theorem appendOwner_eq (buffer : List UInt8) (owner : Option GenericOwner) :
    appendOwner buffer owner = buffer ++ ownerBytes owner := by
  cases owner with
  | none => exact (append_nil buffer).symm
  | some owner => rfl

def GenericOwner.isSubaddress : GenericOwner -> Bool
  | .wallet _ isSubaddress => isSubaddress
  | .ed25519 _ => false

variable {u v : List UInt8}

theorem ownerBytes_some_append_inj {a b : GenericOwner}
    (h : ownerBytes (some a) ++ u = ownerBytes (some b) ++ v) :
    ownerBytes (some a) = ownerBytes (some b) ∧ u = v := by
  have hlen : (ownerBytes (some a)).length = (ownerBytes (some b)).length := by
    cases a <;> cases b <;> simp_all [ownerBytes, GenericOwner.guts, GenericOwner.type,
      GenericOwnerSigType.toByte]
  exact append_inj h hlen

theorem owner_eq_of_bytes {a b : GenericOwner} (h : ownerBytes (some a) = ownerBytes (some b))
    (hmark : a.isSubaddress = b.isSubaddress) : a = b := by
  have hwidth : 8 * (256 / 8) = 256 := rfl
  have hkinds : GenericOwnerSigType.monero.toByte ≠ GenericOwnerSigType.ed25519.toByte := by decide
  cases a with
  | wallet address mark =>
    cases b with
    | wallet address' mark' =>
      have hguts := (cons.inj h).2
      rcases append_inj hguts (by simp) with ⟨hspend, hview⟩
      have hspend := (Bytes.ofBits_inj hwidth).mp hspend
      have hview := (Bytes.ofBits_inj hwidth).mp hview
      rcases address with ⟨⟨spend⟩, ⟨view⟩⟩
      rcases address' with ⟨⟨spend'⟩, ⟨view'⟩⟩
      cases hspend
      cases hview
      cases hmark
      rfl
    | ed25519 key' => exact absurd (cons.inj h).1 hkinds
  | ed25519 key =>
    cases b with
    | wallet address' mark' => exact absurd (cons.inj h).1 hkinds.symm
    | ed25519 key' =>
      have hkey := (Bytes.ofBits_inj hwidth).mp (cons.inj h).2
      rcases key with ⟨bits⟩
      rcases key' with ⟨bits'⟩
      cases hkey
      rfl

theorem ownerBytes_append_inj {a b : Option GenericOwner} (hsome : a.isSome = b.isSome)
    (h : ownerBytes a ++ u = ownerBytes b ++ v) : ownerBytes a = ownerBytes b ∧ u = v := by
  cases a with
  | none =>
    cases b with
    | none => exact ⟨rfl, h⟩
    | some b => cases hsome
  | some a =>
    cases b with
    | none => cases hsome
    | some b => exact ownerBytes_some_append_inj h

theorem owner?_eq_of_bytes {a b : Option GenericOwner} (hsome : a.isSome = b.isSome)
    (h : ownerBytes a = ownerBytes b)
    (hmark : a.map GenericOwner.isSubaddress = b.map GenericOwner.isSubaddress) : a = b := by
  cases a with
  | none =>
    cases b with
    | none => rfl
    | some b => cases hsome
  | some a =>
    cases b with
    | none => cases hsome
    | some b => rw [owner_eq_of_bytes h (Option.some.inj hmark)]

theorem length_ownerBytes (owner : Option GenericOwner) :
    (ownerBytes owner).length % 32 = if owner.isSome then 1 else 0 := by
  cases owner with
  | none => rfl
  | some owner => cases owner <;> simp [ownerBytes, GenericOwner.guts]

/-! ## The signed bytes of an accepted entry -/

theorem Measured.length_le (h : Measured extra bit type value) : value.length <= bufferSize := by
  unfold Measured at h
  split at h
  · cases type <;> simp [encryptedLengths] at h <;> rw [bufferSize] <;> omega
  · rw [h]
    exact Nat.zero_le _

theorem WellMeasured.signedData_eq (h : WellMeasured extra) (prevTxid : Hash) :
    extra.signedData prevTxid =
      extra.encryptedBchatValue ++ (extra.encryptedWalletValue ++ (extra.encryptedBelnetValue ++
        (extra.encryptedEthAddrValue ++ (ownerBytes extra.owner? ++
          (ownerBytes extra.backupOwner? ++ Bytes.ofBits prevTxid.bits))))) := by
  unfold signedData txExtraSignature
  rw [if_neg (not_lt.mpr h.bchat.length_le), if_neg (not_lt.mpr h.wallet.length_le),
    if_neg (not_lt.mpr h.belnet.length_le), if_neg (not_lt.mpr h.ethAddr.length_le)]
  simp only [appendOwner_eq, append_assoc]

variable {r s : BnsExtra}

theorem Measured.length_eq (hfields : r.fields = s.fields) {n : Nat}
    (htype : encryptedLengths type = [n]) (hr : Measured r bit type u)
    (hs : Measured s bit type v) :
    u.length = v.length := by
  unfold Measured fieldIsSet at hr hs
  rw [hfields] at hr
  split at hr
  next hset =>
    rw [if_pos hset] at hs
    rw [htype, mem_singleton] at hr hs
    rw [hr, hs]
  next hset =>
    rw [if_neg hset] at hs
    rw [hr, hs]

theorem isSome_owner?_eq (extra : BnsExtra) :
    extra.owner?.isSome = extra.fieldIsSet ExtraField.owner := by
  unfold owner?
  cases extra.fieldIsSet ExtraField.owner <;> rfl

theorem isSome_backupOwner?_eq (extra : BnsExtra) :
    extra.backupOwner?.isSome = extra.fieldIsSet ExtraField.backupOwner := by
  unfold backupOwner?
  cases extra.fieldIsSet ExtraField.backupOwner <;> rfl

theorem isSome_owner? (hfields : r.fields = s.fields) : r.owner?.isSome = s.owner?.isSome := by
  rw [isSome_owner?_eq, isSome_owner?_eq, fieldIsSet, hfields, fieldIsSet]

theorem isSome_backupOwner? (hfields : r.fields = s.fields) :
    r.backupOwner?.isSome = s.backupOwner?.isSome := by
  rw [isSome_backupOwner?_eq, isSome_backupOwner?_eq, fieldIsSet, hfields, fieldIsSet]

variable {prevTxid : Hash}

section

variable (hfields : r.fields = s.fields) (hr : WellMeasured r) (hs : WellMeasured s)
  (hbchat : r.encryptedBchatValue.length = s.encryptedBchatValue.length)
  (hdata : r.signedData prevTxid = s.signedData prevTxid)
include hfields hr hs hbchat hdata

/-- The two lengths of a wallet value are told apart by the length of the whole, since
the two lengths of an owner are the same modulo 32. -/
theorem length_wallet_eq
    :
    r.encryptedWalletValue.length = s.encryptedWalletValue.length := by
  have hbelnet := Measured.length_eq hfields rfl hr.belnet hs.belnet
  have hethAddr := Measured.length_eq hfields rfl hr.ethAddr hs.ethAddr
  have htotal := congrArg length hdata
  rw [hr.signedData_eq, hs.signedData_eq] at htotal
  simp only [length_append, hbchat, hbelnet, hethAddr] at htotal
  have howner := length_ownerBytes r.owner?
  have howner' := length_ownerBytes s.owner?
  have hbackup := length_ownerBytes r.backupOwner?
  have hbackup' := length_ownerBytes s.backupOwner?
  rw [isSome_owner? hfields] at howner
  rw [isSome_backupOwner? hfields] at hbackup
  have hwallet := hr.wallet
  have hwallet' := hs.wallet
  unfold Measured fieldIsSet at hwallet hwallet'
  rw [hfields] at hwallet
  split at hwallet
  next hset =>
    rw [if_pos hset] at hwallet'
    simp only [encryptedLengths, mem_cons, not_mem_nil, or_false] at hwallet hwallet'
    omega
  next hset =>
    rw [if_neg hset] at hwallet'
    rw [hwallet, hwallet']

/-- With the same fields and the same encryption of the bchat value, the signed bytes
determine everything but the subaddress marks. -/
theorem values_eq_of_signedData
        :
    r.encryptedBchatValue = s.encryptedBchatValue ∧
      r.encryptedWalletValue = s.encryptedWalletValue ∧
      r.encryptedBelnetValue = s.encryptedBelnetValue ∧
      r.encryptedEthAddrValue = s.encryptedEthAddrValue ∧
      ownerBytes r.owner? = ownerBytes s.owner? ∧
      ownerBytes r.backupOwner? = ownerBytes s.backupOwner? := by
  have hwallet := length_wallet_eq hfields hr hs hbchat hdata
  have hbelnet := Measured.length_eq hfields rfl hr.belnet hs.belnet
  have hethAddr := Measured.length_eq hfields rfl hr.ethAddr hs.ethAddr
  rw [hr.signedData_eq, hs.signedData_eq] at hdata
  rcases append_inj hdata hbchat with ⟨hbchat, hdata⟩
  rcases append_inj hdata hwallet with ⟨hwallet, hdata⟩
  rcases append_inj hdata hbelnet with ⟨hbelnet, hdata⟩
  rcases append_inj hdata hethAddr with ⟨hethAddr, hdata⟩
  rcases ownerBytes_append_inj (isSome_owner? hfields) hdata with ⟨howner, hdata⟩
  rcases ownerBytes_append_inj (isSome_backupOwner? hfields) hdata with ⟨hbackup, _⟩
  exact ⟨hbchat, hwallet, hbelnet, hethAddr, howner, hbackup⟩

end

/-! ## Fields and settings -/

theorem fieldIsSet_eq_getLsbD (extra : BnsExtra) (i : Nat) (hi : i < 8) :
    extra.fieldIsSet (UInt8.ofBitVec (BitVec.twoPow 8 i)) = extra.fields.toBitVec.getLsbD i := by
  unfold fieldIsSet
  rw [Bool.eq_iff_iff, beq_iff_eq, <- UInt8.toBitVec_inj, UInt8.toBitVec_and, BitVec.and_twoPow]
  cases hbit : extra.fields.toBitVec.getLsbD i with
  | true => simp
  | false =>
    have hne : (0#8) ≠ BitVec.twoPow 8 i := by
      intro hzero
      have hget := congrArg (fun x => BitVec.getLsbD x i) hzero
      simp [hi] at hget
    simpa using hne

theorem getLsbD_fields (extra : BnsExtra) : extra.fields.toBitVec.getLsbD 7 = false := by
  have hread : extra.fields.toNat <= 127 := UInt8.le_iff_toNat_le.mp extra.fields_read
  exact Nat.testBit_lt_two_pow (Nat.lt_succ_of_le hread)

theorem fields_eq_of_fieldIsSet
    (h : forall i, i < 7 -> r.fieldIsSet (UInt8.ofBitVec (BitVec.twoPow 8 i)) =
      s.fieldIsSet (UInt8.ofBitVec (BitVec.twoPow 8 i))) : r.fields = s.fields := by
  apply UInt8.toBitVec_inj.mp
  apply BitVec.eq_of_getLsbD_eq
  intro i hi
  by_cases hlast : i = 7
  · rw [hlast, getLsbD_fields, getLsbD_fields]
  · rw [<- fieldIsSet_eq_getLsbD r i hi, <- fieldIsSet_eq_getLsbD s i hi]
    exact h i (by omega)

theorem fieldIsSet_signature (h : extra.isUpdating = true ∨ extra.isRenewing = true) :
    extra.fieldIsSet ExtraField.signature = true := by
  rcases h with hupdating | hrenewing
  · exact (Bool.and_eq_true_iff.mp hupdating).1
  · unfold isRenewing at hrenewing
    rw [Bool.and_eq_true, Bool.and_eq_true, beq_iff_eq] at hrenewing
    unfold fieldIsSet
    rw [hrenewing.1.1]
    decide

theorem isSome_value? (extra : BnsExtra) (bit : UInt8) (value : List UInt8) :
    (extra.value? bit value).isSome = extra.fieldIsSet bit := by
  unfold value?
  cases extra.fieldIsSet bit <;> rfl

theorem fields_eq_of_settings (hr : r.isUpdating = true ∨ r.isRenewing = true)
    (hs : s.isUpdating = true ∨ s.isRenewing = true) (h : r.settings = s.settings) :
    r.fields = s.fields := by
  have hbchat := congrArg (fun settings => settings.bchat.isSome) h
  have hwallet := congrArg (fun settings => settings.wallet.isSome) h
  have hbelnet := congrArg (fun settings => settings.belnet.isSome) h
  have hethAddr := congrArg (fun settings => settings.ethAddr.isSome) h
  have howner := congrArg (fun settings => settings.owner.isSome) h
  have hbackup := congrArg (fun settings => settings.backupOwner.isSome) h
  simp only [settings, isSome_value?] at hbchat hwallet hbelnet hethAddr
  simp only [settings, isSome_owner?_eq, isSome_backupOwner?_eq] at howner hbackup
  apply fields_eq_of_fieldIsSet
  intro i hi
  match i, hi with
  | 0, _ => exact howner
  | 1, _ => exact hbackup
  | 2, _ => exact (fieldIsSet_signature hr).trans (fieldIsSet_signature hs).symm
  | 3, _ => exact hbchat
  | 4, _ => exact hwallet
  | 5, _ => exact hbelnet
  | 6, _ => exact hethAddr

def BnsExtra.subaddressMarks (extra : BnsExtra) : Option Bool × Option Bool :=
  (extra.owner?.map GenericOwner.isSubaddress, extra.backupOwner?.map GenericOwner.isSubaddress)

theorem settings_eq_iff (hr : WellMeasured r) (hs : WellMeasured s)
    (hr' : r.isUpdating = true ∨ r.isRenewing = true)
    (hs' : s.isUpdating = true ∨ s.isRenewing = true)
    (hdata : r.signedData prevTxid = s.signedData prevTxid) :
    r.settings = s.settings <->
      r.fields = s.fields ∧ r.encryptedBchatValue.length = s.encryptedBchatValue.length ∧
        r.subaddressMarks = s.subaddressMarks := by
  constructor
  · intro h
    have hfields := fields_eq_of_settings hr' hs' h
    refine ⟨hfields, ?_, ?_⟩
    · have hbchat : r.value? _ _ = s.value? _ _ := congrArg Settings.bchat h
      have hmeasured := hr.bchat
      have hmeasured' := hs.bchat
      unfold value? at hbchat
      unfold Measured at hmeasured hmeasured'
      unfold fieldIsSet at hbchat hmeasured hmeasured'
      rw [hfields] at hbchat hmeasured
      split at hbchat
      · exact congrArg length (Option.some.inj hbchat)
      next hset =>
        rw [if_neg hset] at hmeasured hmeasured'
        rw [hmeasured, hmeasured']
    · have howner : r.owner? = s.owner? := congrArg Settings.owner h
      have hbackup : r.backupOwner? = s.backupOwner? := congrArg Settings.backupOwner h
      unfold subaddressMarks
      rw [howner, hbackup]
  · rintro ⟨hfields, hbchat, hmarks⟩
    rcases values_eq_of_signedData hfields hr hs hbchat hdata with
      ⟨hbchat, hwallet, hbelnet, hethAddr, howner, hbackup⟩
    have howner := owner?_eq_of_bytes (isSome_owner? hfields) howner (congrArg Prod.fst hmarks)
    have hbackup :=
      owner?_eq_of_bytes (isSome_backupOwner? hfields) hbackup (congrArg Prod.snd hmarks)
    unfold settings value? fieldIsSet
    rw [hfields, hbchat, hwallet, hbelnet, hethAddr, howner, hbackup]

/-! ## Signatures for one change -/

theorem term_eq_iff (hfields : r.fields = s.fields) (hprev : r.prevTxid = s.prevTxid) :
    r.term = s.term <->
      ((r.isBuying || r.isRenewing) = true -> r.mappingYears = s.mappingYears) := by
  have hkind : (r.isBuying || r.isRenewing) = (s.isBuying || s.isRenewing) := by
    unfold isBuying isRenewing fieldIsSet fieldAnySet
    rw [hfields, hprev, r.years_read, s.years_read]
  unfold term
  rw [<- hkind]
  cases r.isBuying || r.isRenewing with
  | true => simp
  | false => simp

/-- Two accepted updates or renewals of the same mapping with the same signed bytes.
They set the same fields to the same values exactly if the same fields are present, the
bchat values use the same encryption and the owners have the same subaddress marks; they
make the same change exactly if they agree on the term too, where they set one. -/
theorem signature_binds_iff {env : NameEnvironment} {t t' : Tables} {hfVersion hfVersion' : Hf}
    {height height' : Nat} {tx tx' : NameTx} {r s : BnsExtra}
    (hr : validateBnsTx env t hfVersion height tx = .ok r)
    (hs : validateBnsTx env t' hfVersion' height' tx' = .ok s)
    (hchange : r.isUpdating = true ∨ r.isRenewing = true)
    (hchange' : s.isUpdating = true ∨ s.isRenewing = true) (hprev : r.prevTxid = s.prevTxid)
    (hdata : r.signedData r.prevTxid = s.signedData s.prevTxid) :
    (r.settings = s.settings <->
      r.fields = s.fields ∧ r.encryptedBchatValue.length = s.encryptedBchatValue.length ∧
        r.subaddressMarks = s.subaddressMarks) ∧ (r.settings = s.settings ∧ r.term = s.term <->
      r.fields = s.fields ∧ r.encryptedBchatValue.length = s.encryptedBchatValue.length ∧
        r.subaddressMarks = s.subaddressMarks ∧
        ((r.isBuying || r.isRenewing) = true -> r.mappingYears = s.mappingYears)) := by
  rw [<- hprev] at hdata
  have hsettings := settings_eq_iff (wellMeasured_of_ok hr) (wellMeasured_of_ok hs) hchange
    hchange' hdata
  refine ⟨hsettings, ?_⟩
  constructor
  · rintro ⟨h, hterm⟩
    rcases hsettings.mp h with ⟨hfields, hbchat, hmarks⟩
    exact ⟨hfields, hbchat, hmarks, (term_eq_iff hfields hprev).mp hterm⟩
  · rintro ⟨hfields, hbchat, hmarks, hterm⟩
    exact ⟨hsettings.mpr ⟨hfields, hbchat, hmarks⟩, (term_eq_iff hfields hprev).mpr hterm⟩

def spellingEnvironment : NameEnvironment where
  nettype := .fakechain
  checkSignature := fun hash _ signature => signature.c.bits == hash.bits
  cryptoSignVerifyDetached := fun signature hash _ => signature.c.bits == hash.bits
  cryptoGenerichash := fun data => ⟨BitVec.ofNat 256 (Bytes.ofBytes data)⟩

/-- The name seven of the key one, written by the transaction nine. -/
def ownedName : Tables where
  mappings :=
    { rows :=
        [{ id := 1
           nameHash := ⟨7⟩
           encryptedBchatValue := none
           encryptedWalletValue := none
           encryptedBelnetValue := none
           encryptedEthAddrValue := none
           txid := ⟨9⟩
           ownerId := 1
           backupOwnerId := none
           updateHeight := 1
           expirationHeight := 1000 }]
      nodup := by decide }
  owners := { rows := [{ id := 1, address := .ed25519 ⟨1⟩ }], nodup := by decide }
  ownerSequence := 1
  settings := none

/-- The signature of the key one over the key two and the transaction nine. -/
def keyTwoSignature : GenericSignature := ⟨.ed25519, ⟨⟨513⟩, zeroKey⟩⟩

def handOver : BnsExtra where
  nameHash := ⟨7⟩
  prevTxid := ⟨9⟩
  fields := ExtraField.signature ||| ExtraField.owner
  owner := .ed25519 ⟨2⟩
  signature := keyTwoSignature

def nameBackup : BnsExtra where
  nameHash := ⟨7⟩
  prevTxid := ⟨9⟩
  fields := ExtraField.signature ||| ExtraField.backupOwner
  backupOwner := .ed25519 ⟨2⟩
  signature := keyTwoSignature

/-- A name transaction that burns the fee of a change of owners. -/
def ownerUpdateTx (extra : BnsExtra) : NameTx where
  type := .beldexNameSystem
  hash := ⟨10⟩
  bnsExtra := some extra
  burnedAmount := 50000000000

/-- The renewal of the name for a term; only the transaction nine is signed. -/
def renewal (years : MappingYears) (h : isRenewalType years = true) : BnsExtra where
  mappingYears := years
  nameHash := ⟨7⟩
  prevTxid := ⟨9⟩
  fields := ExtraField.signature
  signature := ⟨.ed25519, ⟨⟨9⟩, zeroKey⟩⟩
  years_read := h

def renewalTx (extra : BnsExtra) : NameTx where
  type := .beldexNameSystem
  hash := ⟨10⟩
  bnsExtra := some extra
  burnedAmount := burnNeeded .hf18Bns extra.mappingYears

section

set_option maxRecDepth 4000

/-- A renewal for a year and one for ten years under one signature. -/
theorem signature_binds_iff_renewal :
    (renewal .bns1Year rfl).settings = (renewal .bns10Years rfl).settings ∧
    ¬ ((renewal .bns1Year rfl).settings = (renewal .bns10Years rfl).settings ∧
      (renewal .bns1Year rfl).term = (renewal .bns10Years rfl).term) := by
  have hyear : validateBnsTx spellingEnvironment ownedName .hf18Bns 5
      (renewalTx (renewal .bns1Year rfl)) = .ok (renewal .bns1Year rfl) := rfl
  have hdecade : validateBnsTx spellingEnvironment ownedName .hf18Bns 5
      (renewalTx (renewal .bns10Years rfl)) = .ok (renewal .bns10Years rfl) := rfl
  have hbinds := signature_binds_iff hyear hdecade (Or.inr rfl) (Or.inr rfl) rfl rfl
  refine ⟨hbinds.1.mpr ⟨rfl, rfl, rfl⟩, ?_⟩
  intro hchange
  exact absurd ((hbinds.2.mp hchange).2.2.2 rfl) (by decide)

/-- The signature that makes a key the owner also makes it the backup owner. -/
theorem handOver_replayed :
    validateBnsTx spellingEnvironment ownedName .hf18Bns 5 (ownerUpdateTx handOver) = .ok handOver ∧
    validateBnsTx spellingEnvironment ownedName .hf18Bns 5 (ownerUpdateTx nameBackup) =
      .ok nameBackup ∧ handOver.isUpdating = true ∧ nameBackup.isUpdating = true ∧
    handOver.prevTxid = nameBackup.prevTxid ∧
    handOver.signedData handOver.prevTxid = nameBackup.signedData nameBackup.prevTxid ∧
    handOver.settings ≠ nameBackup.settings :=
  ⟨rfl, rfl, rfl, rfl, rfl, rfl, by decide⟩

end

end Beldex.Bns
