import Beldex.Foundation.Shuffle

/-!
# Portable random numbers

A number below `n` is made of an output of the generator by dividing the range of
the generator into `n` parts of equal length; outputs behind the last part are drawn
again.  A shuffle exchanges each position with a drawn one up to it.
-/

namespace Beldex.Common

open Foundation List

def secureMax (n : UInt64) : UInt64 :=
  0xffffffffffffffff - 0xffffffffffffffff % n

/-- The number that an output of the generator stands for, unless it is drawn again. -/
def acceptOutput (n x : UInt64) : Option UInt64 :=
  if x >= secureMax n then none else some (x / (secureMax n / n))

def uniformDistributionPortable (outputs : List UInt64) (n : UInt64) : Option UInt64 :=
  outputs.findSome? (acceptOutput n)

section Outputs

variable {n k x : UInt64}

theorem secureMax_eq (hn : 0 < n) :
    (secureMax n).toNat = n.toNat * (secureMax n / n).toNat ∧ 0 < (secureMax n / n).toNat ∧
      2 ^ 64 - (secureMax n).toNat <= n.toNat := by
  have hpos : 0 < n.toNat := UInt64.lt_iff_toNat_lt.mp hn
  have hlt := Nat.mod_lt (2 ^ 64 - 1) hpos
  have hle := Nat.mod_le (2 ^ 64 - 1) n.toNat
  have hsub : (secureMax n).toNat = 2 ^ 64 - 1 - (2 ^ 64 - 1) % n.toNat :=
    UInt64.toNat_sub_of_le _ _ (UInt64.le_iff_toNat_le.mpr hle)
  have hmul : (secureMax n).toNat = n.toNat * ((2 ^ 64 - 1) / n.toNat) := by
    rw [hsub]
    exact Nat.sub_eq_of_eq_add (Nat.div_add_mod _ _).symm
  rw [UInt64.toNat_div, hmul, Nat.mul_div_cancel_left _ hpos]
  exact ⟨rfl, Nat.div_pos (Nat.le_pred_of_lt n.toNat_lt) hpos, by omega⟩

theorem acceptOutput_eq_some_iff (hn : 0 < n) : acceptOutput n x = some k <->
    x.toNat < n.toNat * (secureMax n / n).toNat ∧ x.toNat / (secureMax n / n).toNat = k.toNat := by
  unfold acceptOutput
  rw [Option.ite_none_left_eq_some, ge_iff_le, UInt64.le_iff_toNat_le, not_le,
    (secureMax_eq hn).1, Option.some_inj, <- UInt64.toNat_inj, UInt64.toNat_div x]

/-- The outputs between two numbers. -/
theorem ncard_outputs {a b : Nat} (hb : b <= 2 ^ 64) :
    {x : UInt64 | a <= x.toNat ∧ x.toNat < b}.ncard = b - a := by
  have himage : UInt64.toNat '' {x : UInt64 | a <= x.toNat ∧ x.toNat < b} = Finset.Ico a b := by
    ext v
    simp only [Set.mem_image, Set.mem_ofPred_eq, Finset.coe_Ico, Set.mem_Ico]
    constructor
    · rintro ⟨x, hx, rfl⟩
      exact hx
    · intro hv
      have hword := UInt64.toNat_ofNat_of_lt' (lt_of_lt_of_le hv.2 hb)
      exact ⟨UInt64.ofNat v, by rwa [hword], hword⟩
  rw [<- Set.ncard_image_of_injective _ (fun _ _ => UInt64.toNat_inj.mp), himage,
    Set.ncard_coe_finset, Nat.card_Ico]

theorem ncard_accepted (hn : 0 < n) (hk : k < n) :
    {x | acceptOutput n x = some k}.ncard = (secureMax n / n).toNat := by
  rcases secureMax_eq hn with ⟨hmax, hpos, -⟩
  have hlast : k.toNat * (secureMax n / n).toNat + (secureMax n / n).toNat <=
      (secureMax n).toNat := by
    rw [hmax, <- Nat.succ_mul]
    exact Nat.mul_le_mul_right _ (UInt64.lt_iff_toNat_lt.mp hk)
  have hset : {x | acceptOutput n x = some k} =
      {x | k.toNat * (secureMax n / n).toNat <= x.toNat ∧
        x.toNat < k.toNat * (secureMax n / n).toNat + (secureMax n / n).toNat} := by
    ext x
    rw [Set.mem_ofPred_eq, Set.mem_ofPred_eq, acceptOutput_eq_some_iff hn, Nat.div_eq_iff hpos]
    omega
  rw [hset, ncard_outputs (le_trans hlast (secureMax n).toNat_lt.le), Nat.add_sub_cancel_left]

theorem ncard_rejected (hn : 0 < n) : {x | acceptOutput n x = none}.ncard <= n.toNat := by
  have hset : {x | acceptOutput n x = none} =
      {x | (secureMax n).toNat <= x.toNat ∧ x.toNat < 2 ^ 64} := by
    ext x
    simp [acceptOutput, UInt64.le_iff_toNat_le, x.toNat_lt]
  rw [hset, ncard_outputs le_rfl]
  exact (secureMax_eq hn).2.2

end Outputs

/-- Every number below `n` is made of the same count of outputs of the generator, and at
most `n` outputs are drawn again.  A shuffle of `m` entries puts them into the order of the
permutation that its draws stand for, and each permutation has its own draws. -/
theorem randomness_unbiased :
    (forall n : UInt64, 0 < n ->
      0 < (secureMax n / n).toNat ∧
      (forall k, k < n -> {x | uniformDistributionPortable [x] n = some k}.ncard =
        (secureMax n / n).toNat) ∧
      (forall outputs k, uniformDistributionPortable outputs n = some k -> k < n) ∧
      {x | uniformDistributionPortable [x] n = none}.ncard <= n.toNat) ∧ (forall m : Nat,
      Set.BijOn (fun d => exchanges d m) (drawsBelow m) {σ | forall i, m <= i -> σ i = i} ∧
      forall (α : Type) (l : List α) d, l.length = m -> d ∈ drawsBelow m ->
        exists p, shufflePortable (scripted d) l () = some p ∧ p.length = m ∧
          forall i : Nat, p[i]? = l[exchanges d m i]?) := by
  have hone : forall n x, uniformDistributionPortable [x] n = acceptOutput n x := by
    intro n x
    simp [uniformDistributionPortable]
  constructor
  · intro n hn
    simp only [hone]
    refine ⟨(secureMax_eq hn).2.1, fun k => ncard_accepted hn, ?_, ncard_rejected hn⟩
    intro outputs k hk
    rcases exists_of_findSome?_eq_some hk with ⟨x, -, hx⟩
    rw [acceptOutput_eq_some_iff hn] at hx
    rw [UInt64.lt_iff_toNat_lt, <- hx.2]
    exact (Nat.div_lt_iff_lt_mul (secureMax_eq hn).2.1).mpr hx.1
  · intro m
    refine ⟨⟨?_, ?_, ?_⟩, ?_⟩
    · intro d hd i hi
      exact exchanges_of_le hd.1 hi
    · intro d hd e he h
      funext i
      rcases lt_or_ge i m with hlt | hge
      · exact draws_eq_of_exchanges hd.1 he.1 h hlt
      · rw [hd.2 i hge, he.2 i hge]
    · intro σ hσ
      exact exists_draws hσ
    · rintro α l d rfl hd
      exact shufflePortable_spec hd.1

end Beldex.Common
