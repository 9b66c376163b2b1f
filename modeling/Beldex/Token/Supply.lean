import Beldex.Token.State

/-!
# The supply of a token over whole runs

A registered token is a capped account: minting credits it, burning debits it,
and no other operation moves it.  The state of the code, which keeps the supply
twice and replaces whole descriptors, refines that account along every sequence
of accepted operations.
-/

namespace Beldex.Token

open Basic Crypto Foundation.CappedAccount Foundation.Fallible

variable {P : Type}

/-! ## Registered tokens -/

structure WellFormed (s : TokenConsensusState) : Prop where
  supply_le : s.currentSupply <= s.totalMaxSupply
  descriptor_supply : s.descriptor.currentSupply = s.currentSupply
  descriptor_max : s.descriptor.totalMaxSupply = s.totalMaxSupply
  owner_ne : s.descriptor.owner ≠ nullPkey
  valid : validateTokenDescriptorForRegistration s.descriptor = .ok ()

structure SameIdentity (reg : TokenDescriptorBase) (s : TokenConsensusState) : Prop where
  ticker_eq : s.descriptor.ticker = reg.ticker
  fullName_eq : s.descriptor.fullName = reg.fullName
  decimalPoint_eq : s.descriptor.decimalPoint = reg.decimalPoint
  version_eq : s.descriptor.version = reg.version
  totalMaxSupply_eq : s.totalMaxSupply = reg.totalMaxSupply

structure LiveToken where
  state : TokenConsensusState
  existing : state.existing = true
  wellFormed : WellFormed state

def LiveToken.account (t : LiveToken) : Account where
  cap := t.state.totalMaxSupply.toNat
  balance := t.state.currentSupply.toNat
  within := UInt64.le_iff_toNat_le.mp t.wellFormed.supply_le

def posting (op : TokenDescriptorOperation P) : Posting :=
  match op.operationType with
  | .mintToken => .credit op.amount.toNat
  | .burnToken => .debit op.amount.toNat
  | _ => .note

variable {d : TokenDescriptorBase}

theorem wellFormed_registered (s : TokenConsensusState) (howner : d.owner ≠ nullPkey)
    (hvalid : validateTokenDescriptorForRegistration d = .ok ()) : WellFormed (s.registered d) where
  supply_le := currentSupply_le_of_validateTokenDescriptor hvalid
  descriptor_supply := rfl
  descriptor_max := rfl
  owner_ne := howner
  valid := hvalid

variable {s : TokenConsensusState}

theorem WellFormed.setSupply (h : WellFormed s) {n : UInt64} (hn : n <= s.totalMaxSupply) :
    WellFormed (s.setSupply n) :=
  { h with
    supply_le := hn
    descriptor_supply := rfl
    valid := validateTokenDescriptor_setSupply h.valid (by rw [h.descriptor_max]; exact hn) }

theorem WellFormed.update (h : WellFormed s) (hd : UpdateOf s d) :
    WellFormed { s with descriptor := d } where
  supply_le := h.supply_le
  descriptor_supply := hd.currentSupply_eq
  descriptor_max := hd.totalMaxSupply_eq
  owner_ne := hd.owner_ne
  valid := hd.valid

theorem SameIdentity.setSupply {reg : TokenDescriptorBase} (h : SameIdentity reg s) (n : UInt64) :
    SameIdentity reg (s.setSupply n) :=
  { h with }

theorem UpdateOf.sameIdentity {reg : TokenDescriptorBase} (hd : UpdateOf s d)
    (h : SameIdentity reg s) : SameIdentity reg { s with descriptor := d } where
  ticker_eq := hd.ticker_eq.trans h.ticker_eq
  fullName_eq := hd.fullName_eq.trans h.fullName_eq
  decimalPoint_eq := hd.decimalPoint_eq.trans h.decimalPoint_eq
  version_eq := hd.version_eq.trans h.version_eq
  totalMaxSupply_eq := h.totalMaxSupply_eq

/-! ## One operation -/

theorem toNat_add_of_le_max {a b m : UInt64}
    (h : a.toNat + b.toNat <= m.toNat) : (a + b).toNat = a.toNat + b.toNat := by
  rw [UInt64.toNat_add, Nat.mod_eq_of_lt]
  exact lt_of_le_of_lt h m.toNat_lt

variable {s' : TokenConsensusState}

variable {op : TokenDescriptorOperation P}

theorem LiveToken.step (t : LiveToken)
    (h : TokenStep op t.state s') :
    exists t' : LiveToken,
      t'.state = s' ∧
      t.account.post (posting op) = some t'.account ∧
      forall reg, SameIdentity reg t.state -> SameIdentity reg s' := by
  cases h with
  | register _ hnew _ _ =>
    rw [t.existing] at hnew
    cases hnew
  | mint hop hold _ hfits =>
    have hsum := toNat_add_of_le_max hfits
    have hwf := t.wellFormed.setSupply (n := t.state.currentSupply + op.amount)
      (by rw [UInt64.le_iff_toNat_le, hsum]; exact hfits)
    refine ⟨⟨t.state.setSupply _, hold, hwf⟩, rfl, ?_, fun _ hreg => hreg.setSupply _⟩
    have hpost := post_credit (a := t.account) hfits
    unfold posting
    rw [hop, hpost]
    congr 2
    exact hsum.symm
  | burn hop hold _ hle =>
    have hsub : (t.state.currentSupply - op.amount).toNat =
        t.state.currentSupply.toNat - op.amount.toNat :=
      UInt64.toNat_sub_of_le _ _ (UInt64.le_iff_toNat_le.mpr hle)
    have hcap := UInt64.le_iff_toNat_le.mp t.wellFormed.supply_le
    have hwf := t.wellFormed.setSupply (n := t.state.currentSupply - op.amount)
      (by rw [UInt64.le_iff_toNat_le, hsub]; omega)
    refine ⟨⟨t.state.setSupply _, hold, hwf⟩, rfl, ?_, fun _ hreg => hreg.setSupply _⟩
    have hpost := post_debit (a := t.account) hle
    unfold posting
    rw [hop, hpost]
    congr 2
    exact hsub.symm
  | update hop hold hd =>
    refine ⟨⟨{ t.state with descriptor := op.descriptor }, hold,
      t.wellFormed.update hd⟩, rfl, ?_, fun _ hreg => hd.sameIdentity hreg⟩
    unfold posting
    rw [hop]
    rfl

/-! ## Runs -/

def applyOperations (s : TokenConsensusState)
    (ops : List (TokenId × TokenDescriptorOperation P)) : Except String TokenConsensusState :=
  run (fun state entry => applyTokenOperationToState entry.1 entry.2 state) s ops

theorem LiveToken.run (t : LiveToken) {ops : List (TokenId × TokenDescriptorOperation P)}
    (h : applyOperations t.state ops = .ok s') :
    exists t' : LiveToken,
      t'.state = s' ∧
      t.account.postAll (ops.map fun entry => posting entry.2) = some t'.account ∧
      forall reg, SameIdentity reg t.state -> SameIdentity reg s' := by
  induction ops generalizing t with
  | nil =>
    cases h
    exact ⟨t, rfl, rfl, fun _ hreg => hreg⟩
  | cons entry rest ih =>
    rcases run_cons_ok.mp h with ⟨s1, hfirst, hrest⟩
    rcases t.step (applyTokenOperationToState_step hfirst) with
      ⟨t1, rfl, hpost, hsame⟩
    rcases ih t1 hrest with ⟨t', hst, hposts, hsames⟩
    exact ⟨t', hst, postAll_cons hpost hposts, fun reg hreg => hsames reg (hsame reg hreg)⟩

variable (ops : List (TokenId × TokenDescriptorOperation P))

def mintedAmount : Nat :=
  (ops.map fun entry =>
    if entry.2.operationType = .mintToken then entry.2.amount.toNat else 0).sum

def burnedAmount : Nat :=
  (ops.map fun entry =>
    if entry.2.operationType = .burnToken then entry.2.amount.toNat else 0).sum

theorem sum_delta_eq :
    ((ops.map fun entry => posting entry.2).map Posting.delta).sum =
      (mintedAmount ops : Int) - burnedAmount ops := by
  induction ops with
  | nil => rfl
  | cons entry rest ih =>
    unfold mintedAmount burnedAmount at *
    simp only [List.map_cons, List.sum_cons, Nat.cast_add, ih]
    cases hop : entry.2.operationType with
    | mintToken | burnToken =>
      simp [posting, hop, Posting.delta]
      ring
    | _ => simp [posting, hop, Posting.delta]

theorem liveToken_of_fresh (hfresh : s.existing = false)
    (h : TokenStep op s s') :
    op.operationType = .registerToken ∧
      exists t : LiveToken, t.state = s' ∧
        SameIdentity op.descriptor s' ∧
        s'.currentSupply = op.descriptor.currentSupply := by
  cases h with
  | register hop _ howner hvalid =>
    exact ⟨hop, ⟨_, rfl, wellFormed_registered s howner hvalid⟩, rfl,
      ⟨rfl, rfl, rfl, rfl, rfl⟩, rfl⟩
  | mint _ hold | burn _ hold | update _ hold => rw [hfresh] at hold; cases hold

/-- The supply invariant of every token state that accepted operations reach. -/
theorem tokenSupply_of_run {ops : List (TokenId × TokenDescriptorOperation P)}
    {s : TokenConsensusState} (hrun : applyOperations {} ops = .ok s)
    (hexists : s.existing = true) :
    exists tokenId reg rest,
      ops = (tokenId, reg) :: rest ∧
      reg.operationType = .registerToken ∧
      WellFormed s ∧
      SameIdentity reg.descriptor s ∧
      (s.currentSupply.toNat : Int) =
        reg.descriptor.currentSupply.toNat + mintedAmount ops - burnedAmount ops := by
  cases ops with
  | nil =>
    cases hrun
    cases hexists
  | cons entry rest =>
    rcases run_cons_ok.mp hrun with ⟨s1, hfirst, hrest⟩
    rcases liveToken_of_fresh rfl (applyTokenOperationToState_step hfirst) with
      ⟨hop, t, rfl, hsame, hinit⟩
    rcases t.run hrest with ⟨t', rfl, hposts, hsames⟩
    refine ⟨entry.1, entry.2, rest, rfl, hop, t'.wellFormed, hsames _ hsame, ?_⟩
    have hbal := (postAll_spec hposts).2
    have hmint : mintedAmount (entry :: rest) = mintedAmount rest := by
      simp [mintedAmount, hop]
    have hburn : burnedAmount (entry :: rest) = burnedAmount rest := by
      simp [burnedAmount, hop]
    rw [sum_delta_eq] at hbal
    rw [hmint, hburn, <- hinit]
    change (t'.state.currentSupply.toNat : Int) = t.state.currentSupply.toNat + _ at hbal
    omega

def sampleDescriptor (owner : PublicKey) (supply : UInt64) : TokenDescriptorBase :=
  { totalMaxSupply := 1000
    currentSupply := supply
    ticker := [0x54, 0x4f, 0x4b]
    fullName := [0x54, 0x4f, 0x4b]
    owner := owner }

def sampleOperations : List (TokenId × TokenDescriptorOperation Unit) :=
  [ (⟨7⟩, { operationType := .registerToken, fields := 4, amountCommitment := ()
            descriptor := sampleDescriptor ⟨1⟩ 100 }),
    (⟨7⟩, { operationType := .mintToken, fields := 10, amountCommitment := ()
            tokenId := ⟨7⟩, amount := 50 }),
    (⟨7⟩, { operationType := .burnToken, fields := 10, amountCommitment := ()
            tokenId := ⟨7⟩, amount := 30 }),
    (⟨7⟩, { operationType := .updateToken, fields := 6, amountCommitment := ()
            tokenId := ⟨7⟩, descriptor := sampleDescriptor ⟨2⟩ 120 }) ]

def sampleState : TokenConsensusState :=
  { existing := true
    descriptor := sampleDescriptor ⟨2⟩ 120
    currentSupply := 120
    totalMaxSupply := 1000 }

theorem tokenSupply_of_sample_run :
    applyOperations {} sampleOperations = .ok sampleState ∧
      exists tokenId reg rest,
        sampleOperations = (tokenId, reg) :: rest ∧
        reg.operationType = .registerToken ∧
        WellFormed sampleState ∧
        SameIdentity reg.descriptor sampleState ∧
        (sampleState.currentSupply.toNat : Int) =
          reg.descriptor.currentSupply.toNat + mintedAmount sampleOperations -
            burnedAmount sampleOperations :=
  have hrun : applyOperations {} sampleOperations = .ok sampleState := rfl
  ⟨hrun, tokenSupply_of_run hrun rfl⟩

end Beldex.Token
