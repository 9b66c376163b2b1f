import Beldex.Staking.Funding

/-!
# What the check of portions guarantees

`check_master_node_portions` adds up the portions in a machine word and compares
the result with the whole.  The comparison says something about the portions only
if the sum has stayed in the word; the registration hash, which is computed for
every registration, subtracts the portions one by one and refuses them otherwise.

Amounts are made of portions by a division that rounds down, and portions of
amounts by one that rounds up; both go through products of two words.
-/

namespace Beldex.Staking

open Basic Common Crypto Foundation Foundation.Sums Limbs

variable {P : Type}

theorem reservePortions_toNat {hf : Hf} {reserved last : UInt64} {i : Nat}
    {portions : List UInt64} (h : reservePortions hf reserved i portions = some last) :
    last.toNat = (reserved.toNat + total UInt64.toNat portions) % 2 ^ 64 := by
  induction portions generalizing reserved i with
  | nil =>
    have hsame : reserved = last := Option.some.inj h
    rw [total_nil, add_zero, hsame, Nat.mod_eq_of_lt last.toNat_lt]
  | cons portion rest ih =>
    unfold reservePortions at h
    split at h
    · cases h
    · rw [ih h, UInt64.toNat_add, total_cons, Nat.mod_add_mod, add_assoc]

theorem checkMasterNodePortions_le {hf : Hf} {portions : List UInt64}
    (h : checkMasterNodePortions hf portions = true) :
    total UInt64.toNat portions % 2 ^ 64 <= stakingPortions := by
  have hall := toNat_stakingPortions
  rcases checkMasterNodePortions_eq_true h with ⟨hlen, reserved, hresv⟩
  unfold checkMasterNodePortions at h
  rw [if_neg (not_lt.mpr hlen), hresv] at h
  have hle := UInt64.le_iff_toNat_le.mp (of_decide_eq_true h)
  rw [hall, reservePortions_toNat hresv, UInt64.toNat_zero, zero_add] at hle
  exact hle

/-- Portions that pass the check are at most the whole exactly if their sum stays in the
word.  A record that a registration builds is sound in any case: what is reserved in it is
what is reserved for its contributors, and not more than the requirement. -/
theorem portions_sound_iff {hf : Hf} {portions : List UInt64}
    (hcheck : checkMasterNodePortions hf portions = true) :
    (total UInt64.toNat portions <= stakingPortions <-> total UInt64.toNat portions < 2 ^ 64) ∧
    (forall (env : RegistrationOracles P) (nettype : NetworkType) (hf' : Hf)
      (tx : Transaction P) (extra : RegistrationExtra) (blockTimestamp blockHeight : UInt64)
      (index : UInt32) (key : PublicKey) (node : MasterNode),
      isRegistrationTx env nettype hf' tx extra blockTimestamp blockHeight index =
        .ok (key, node) ->
      node.totalReserved.toNat = total (fun c => c.reserved.toNat) node.contributors ∧
        node.totalReserved <= node.stakingRequirement) := by
  refine ⟨⟨?_, ?_⟩, ?_⟩
  · intro hle
    exact lt_of_le_of_lt hle (by decide)
  · intro hlt
    have hmod := checkMasterNodePortions_le hcheck
    rw [Nat.mod_eq_of_lt hlt] at hmod
    exact hmod
  · intro env nettype hf' tx extra blockTimestamp blockHeight index key node hnode
    rcases isRegistrationTx_eq_ok hnode with ⟨fields, _, hreg, _⟩
    exact ⟨hreg.accounted.reserved, hreg.accounted.bounded⟩

/-- Four quarters pass the check, and a registration with them is accepted. -/
theorem portions_sound_iff_quarters :
    total UInt64.toNat quarters <= stakingPortions ∧ exists node,
      isRegistrationTx ledgerOracles .mainnet .hf18Bns (stakeOf 1 2500000000000)
        (registerFour quarters) 50 60000 0 = .ok (⟨7⟩, node) ∧
      node.totalReserved <= node.stakingRequirement := by
  have hcheck : checkMasterNodePortions .hf18Bns quarters = true := by decide
  rcases portions_sound_iff hcheck with ⟨hsum, hnode⟩
  refine ⟨hsum.mpr (by decide), _, rfl, ?_⟩
  exact (hnode ledgerOracles .mainnet .hf18Bns (stakeOf 1 2500000000000)
    (registerFour quarters) 50 60000 0 ⟨7⟩ _ rfl).2

/-- All portions for the operator and five for a second contributor pass the check. -/
theorem checkMasterNodePortions_wraps :
    checkMasterNodePortions .hf18Bns [UInt64.ofNat stakingPortions, 5] = true ∧
      stakingPortions < total UInt64.toNat [UInt64.ofNat stakingPortions, 5] := by
  decide

/-! ## Portions for an amount -/

/-- The product of an amount with the portions, before it is rounded up by the division. -/
def raisedProduct (stakingRequirement amount maxPortions : UInt64) : UInt64 × UInt64 :=
  let (lo, hi) := mul128 amount maxPortions
  let hi := if lo > UInt64.ofNat (base - 1) - (stakingRequirement - 1) then hi + 1 else hi
  (lo + (stakingRequirement - 1), hi)

def getPortionsToMakeAmount (stakingRequirement amount maxPortions : UInt64) : UInt64 :=
  let (lo, hi) := raisedProduct stakingRequirement amount maxPortions
  (div12864 hi lo stakingRequirement).lo

section Adjoint

variable {requirement amount portions : UInt64}

theorem raisedProduct_value (hpos : 0 < requirement) (maxPortions : UInt64) :
    (raisedProduct requirement amount maxPortions).1.toNat +
        base * (raisedProduct requirement amount maxPortions).2.toNat =
      amount.toNat * maxPortions.toNat + (requirement.toNat - 1) := by
  have hvalue := mul128_value amount maxPortions
  have hproduct : amount.toNat * maxPortions.toNat <= (2 ^ 64 - 1) * (2 ^ 64 - 1) :=
    Nat.mul_le_mul (Nat.le_pred_of_lt amount.toNat_lt) (Nat.le_pred_of_lt maxPortions.toNat_lt)
  have hless : (requirement - 1).toNat = requirement.toNat - 1 :=
    UInt64.toNat_sub_of_le _ _ (UInt64.le_iff_toNat_le.mpr (UInt64.lt_iff_toNat_lt.mp hpos))
  have hbound := (requirement - 1).toNat_lt
  have htop : (UInt64.ofNat (base - 1) - (requirement - 1)).toNat =
      2 ^ 64 - 1 - (requirement - 1).toNat :=
    UInt64.toNat_sub_of_le _ _ (UInt64.le_iff_toNat_le.mpr (Nat.le_pred_of_lt hbound))
  unfold raisedProduct base at *
  dsimp only
  have hlow := (mul128 amount maxPortions).1.toNat_lt
  rw [<- hless, UInt64.toNat_add]
  split
  case isTrue hcarry =>
    rw [gt_iff_lt, UInt64.lt_iff_toNat_lt, htop] at hcarry
    rw [UInt64.toNat_add, UInt64.toNat_one]
    omega
  case isFalse hnone =>
    rw [gt_iff_lt, UInt64.lt_iff_toNat_lt, htop] at hnone
    omega

/-- The ceiling of the code is at most some portions exactly if these make the amount. -/
theorem ceil_le_iff {a r s p : Nat} (hr : 0 < r) (hs : 0 < s) :
    (a * s + (r - 1)) / r <= p <-> a <= r * p / s := by
  rw [Nat.le_div_iff_mul_le hs, <- Nat.lt_add_one_iff, Nat.div_lt_iff_lt_mul hr, add_mul, one_mul,
    mul_comm p]
  omega

/-- For amounts up to the requirement: the portions that the code finds are the least that
make the amount, more portions make no smaller amount, all portions make the requirement,
and no sum or quotient of the code leaves its words. -/
theorem portions_adjoint (hpos : 0 < requirement) (hle : amount <= requirement) :
    IsLeast {portions | amount <= portionsToAmount portions requirement}
      (getPortionsToMakeAmount requirement amount (UInt64.ofNat stakingPortions)) ∧
    (forall p q, p <= q -> q.toNat <= stakingPortions ∨ requirement.toNat <= stakingPortions ->
      portionsToAmount p requirement <= portionsToAmount q requirement) ∧
    portionsToAmount (UInt64.ofNat stakingPortions) requirement = requirement ∧
    (forall max, (raisedProduct requirement amount max).1.toNat +
      2 ^ 64 * (raisedProduct requirement amount max).2.toNat =
        amount.toNat * max.toNat + (requirement.toNat - 1)) ∧
    (getPortionsToMakeAmount requirement amount (UInt64.ofNat stakingPortions)).toNat =
      (amount.toNat * stakingPortions + (requirement.toNat - 1)) / requirement.toNat ∧
    (forall p : UInt64, p.toNat <= stakingPortions -> (portionsToAmount p requirement).toNat =
      requirement.toNat * p.toNat / stakingPortions) := by
  have hall := toNat_stakingPortions
  have hwhole : 0 < stakingPortions := by decide
  have hlt := UInt64.lt_iff_toNat_lt.mp hpos
  have hceil := (ceil_le_iff (a := amount.toNat) (p := stakingPortions) hlt hwhole).mpr
    (by rw [Nat.mul_div_cancel _ hwhole]; exact UInt64.le_iff_toNat_le.mp hle)
  have hfound :
      (getPortionsToMakeAmount requirement amount (UInt64.ofNat stakingPortions)).toNat =
        (amount.toNat * stakingPortions + (requirement.toNat - 1)) / requirement.toNat := by
    have hvalue := (div12864_value (raisedProduct requirement amount
      (UInt64.ofNat stakingPortions)).2 (raisedProduct requirement amount
        (UInt64.ofNat stakingPortions)).1 hpos).1
    rw [raisedProduct_value hpos, hall] at hvalue
    have hsmall := lt_of_le_of_lt hceil (by decide : stakingPortions < 2 ^ 64)
    unfold getPortionsToMakeAmount
    unfold base at hvalue
    dsimp only at hvalue ⊢
    omega
  have hamount : forall p : UInt64, p.toNat <= stakingPortions ->
      (amount <= portionsToAmount p requirement <->
        getPortionsToMakeAmount requirement amount (UInt64.ofNat stakingPortions) <= p) := by
    intro p hp
    rw [UInt64.le_iff_toNat_le, UInt64.le_iff_toNat_le, toNat_portionsToAmount (Or.inl hp), hfound,
      ceil_le_iff hlt hwhole]
  rw [<- hfound] at hceil
  refine ⟨⟨(hamount _ hceil).mpr (UInt64.le_refl _), ?_⟩, ?_, ?_, raisedProduct_value hpos, hfound,
    fun p hp => toNat_portionsToAmount (Or.inl hp)⟩
  · intro p hp
    rcases le_total p.toNat stakingPortions with hsmall | hlarge
    · exact (hamount p hsmall).mp hp
    · exact UInt64.le_iff_toNat_le.mpr (le_trans hceil hlarge)
  · intro p q hpq hq
    have hpq' := UInt64.le_iff_toNat_le.mp hpq
    rw [UInt64.le_iff_toNat_le, toNat_portionsToAmount hq,
      toNat_portionsToAmount (hq.imp_left (le_trans hpq'))]
    exact Nat.div_le_div_right (Nat.mul_le_mul_left _ hpq')
  · rw [<- UInt64.toNat_inj, toNat_portionsToAmount (Or.inl (le_of_eq hall)), hall,
      Nat.mul_div_cancel _ hwhole]

end Adjoint

theorem portions_adjoint_quarter :
    getPortionsToMakeAmount 100 25 (UInt64.ofNat stakingPortions) = 4611686018427387903 ∧
      25 <= portionsToAmount 4611686018427387903 100 :=
  ⟨by decide, (portions_adjoint (by decide : (0 : UInt64) < 100) (by decide)).1.1⟩

/-- With a requirement above the whole, more portions than the whole make no amount. -/
theorem portionsToAmount_not_monotone :
    (4 : UInt64) <= 18446744073709551615 ∧
      portionsToAmount 18446744073709551615 18446744073709551613 <
        portionsToAmount 4 18446744073709551613 := by
  decide

end Beldex.Staking
