import Beldex.NodeList.BlockSteps

/-!
# The credit of a node

A node earns credit while it is up and uses it while it is out of service.  The sign of
the height since which it is active tells whether it is in service, and the credit is
computed from heights that different events have left in its record.
-/

namespace Beldex.NodeList

open Basic Crypto Foundation Foundation.Fallible Staking Int64

variable {P σ : Type}

/-! ## Exact credits -/

def Fits (z : Int) : Prop :=
  -2 ^ 63 <= z ∧ z < 2 ^ 63

theorem bmod_of_fits {z : Int} (h : Fits z) : z.bmod (2 ^ 64) = z :=
  Int.bmod_eq_of_le h.1 h.2

theorem toInt_toInt64 {height : UInt64} (h : height.toNat < 2 ^ 63) :
    height.toInt64.toInt = height.toNat := by
  have hword : height.toInt64 = Int64.ofNat height.toNat := by
    rw [<- UInt64.toInt64_ofNat', UInt64.ofNat_toNat]
  rw [hword, toInt_ofNat_of_lt h]

variable (info : MasterNode) (height : Nat)

def blocksUp : Int :=
  if !info.isFullyFunded then 0
  else if isDecommissioned info then
    info.lastDecommissionHeight.toNat - -info.activeSinceHeight.toInt
  else
    height - info.activeSinceHeight.toInt

def cappedCredit : Int :=
  min decommissionMaxCredit.toInt
    (info.recommissionCredit.toInt + max 0 (blocksUp info height) * 96 / 2880)

def exactCredit : Int :=
  if isDecommissioned info then
    cappedCredit info height - (height - info.lastDecommissionHeight.toNat)
  else
    cappedCredit info height

/-- The results of the signed operations of `calculateDecommissionCredit`, and of those that
a recommission at the height adds. -/
def creditValues : List Int :=
  [-info.activeSinceHeight.toInt, blocksUp info height, max 0 (blocksUp info height) * 96,
    info.recommissionCredit.toInt + max 0 (blocksUp info height) * 96 / 2880,
    height - info.lastDecommissionHeight.toNat, exactCredit info height,
    2 * (height - info.lastDecommissionHeight.toNat),
    cappedCredit info height - 2 * (height - info.lastDecommissionHeight.toNat)]

/-- From the next height on, 96 times the height is more than a signed word holds. -/
def maxCreditHeight : Nat := (2 ^ 63 - 1) / 96

theorem maxCreditHeight_eq : maxCreditHeight = 96076792050570581 := by
  decide

/-! ## Records -/

structure Credited (height : Nat) (info : MasterNode) : Prop where
  credit_nonneg : 0 <= info.recommissionCredit.toInt
  credit_le : info.recommissionCredit.toInt <= decommissionMaxCredit.toInt
  funded : info.activeSinceHeight.toInt ≠ 0 -> info.isFullyFunded = true
  since_le : info.activeSinceHeight.toInt <= height
  since_ge : -info.activeSinceHeight.toInt <= info.lastDecommissionHeight.toNat
  last_le : info.lastDecommissionHeight.toNat <= height

section Records

variable {height height' : Nat} {info next : MasterNode}

theorem isDecommissioned_iff :
    isDecommissioned info = true <-> info.activeSinceHeight.toInt < 0 := by
  unfold isDecommissioned
  rw [decide_eq_true_iff, lt_iff_toInt_lt]
  rfl

variable (h : Credited height info)

include h in
theorem Credited.mono (hle : height <= height') : Credited height' info :=
  { h with
    since_le := Int.le_trans h.since_le (Int.ofNat_le.mpr hle)
    last_le := le_trans h.last_le hle }

include h in
theorem Credited.of_eq (hcredit : next.recommissionCredit = info.recommissionCredit)
    (hsince : next.activeSinceHeight = info.activeSinceHeight)
    (hlast : next.lastDecommissionHeight = info.lastDecommissionHeight)
    (hfunded : next.isFullyFunded = info.isFullyFunded) : Credited height next := by
  constructor
  · rw [hcredit]
    exact h.credit_nonneg
  · rw [hcredit]
    exact h.credit_le
  · rw [hsince, hfunded]
    exact h.funded
  · rw [hsince]
    exact h.since_le
  · rw [hsince, hlast]
    exact h.since_ge
  · rw [hlast]
    exact h.last_le

def creditView (info : MasterNode) : Int64 × Int64 × UInt64 × Bool :=
  (info.recommissionCredit, info.activeSinceHeight, info.lastDecommissionHeight, info.isFullyFunded)

include h in
theorem Credited.blocksUp_bounds (hle : height <= height') :
    0 <= blocksUp info height' ∧ blocksUp info height' <= height' := by
  have hsince := h.since_le
  have hge := h.since_ge
  have hlast := h.last_le
  unfold blocksUp
  split
  · omega
  · split
    next hdecomm =>
      rw [isDecommissioned_iff] at hdecomm
      omega
    next hactive =>
      rw [isDecommissioned_iff] at hactive
      omega

include h in
theorem Credited.cappedCredit_bounds (hle : height <= height') :
    0 <= cappedCredit info height' ∧ cappedCredit info height' <= decommissionMaxCredit.toInt := by
  have hup := h.blocksUp_bounds hle
  have hcredit := h.credit_nonneg
  have hmax : (0 : Int) <= decommissionMaxCredit.toInt := by decide
  unfold cappedCredit
  omega

include h in
theorem Credited.fits (hle : height <= height') (hmax : height' <= maxCreditHeight) {z : Int}
    (hz : z ∈ creditValues info height') : Fits z := by
  have hup := h.blocksUp_bounds hle
  have hcapped := h.cappedCredit_bounds hle
  have hcredit := And.intro h.credit_nonneg h.credit_le
  have hsince := And.intro h.since_le h.since_ge
  have hlast := h.last_le
  have hcap : decommissionMaxCredit.toInt = 5760 := by decide
  have hbound := maxCreditHeight_eq
  rw [hcap] at hcapped hcredit
  unfold creditValues at hz
  simp only [List.mem_cons, List.not_mem_nil, or_false] at hz
  unfold Fits
  rcases hz with rfl | rfl | rfl | rfl | rfl | rfl | rfl | rfl
  · omega
  · omega
  · omega
  · omega
  · omega
  · unfold exactCredit
    split
    · omega
    · omega
  · omega
  · omega

theorem toInt_earned {up : Int64} (hmax : up.toInt <= maxCreditHeight) :
    (if 0 < up then ((up * decommissionCreditPerDay).toUInt64 / 2880).toInt64 else 0).toInt =
      max 0 up.toInt * 96 / 2880 := by
  have hbound := maxCreditHeight_eq
  have hday : decommissionCreditPerDay.toInt = 96 := by decide
  by_cases hup : 0 < up
  · have hpositive : 0 < up.toInt := lt_iff_toInt_lt.mp hup
    have hproduct : (up * decommissionCreditPerDay).toInt = up.toInt * 96 := by
      rw [toInt_mul, hday, bmod_of_fits]
      unfold Fits
      omega
    have hquotient : ((up * decommissionCreditPerDay).toUInt64 / 2880).toNat =
        (up.toInt * 96).toNat / 2880 := by
      rw [UInt64.toNat_div, toNat_toUInt64_of_le, toNatClampNeg, hproduct]
      · rfl
      · rw [le_iff_toInt_le, hproduct]
        change 0 <= up.toInt * 96
        omega
    rw [if_pos hup, toInt_toInt64, hquotient]
    · omega
    · rw [hquotient]
      omega
  · rw [if_neg hup]
    have hnot : ¬ 0 < up.toInt := fun h => hup (lt_iff_toInt_lt.mpr h)
    have hzero : max 0 up.toInt = 0 := by omega
    rw [hzero]
    rfl

variable {current : UInt64}

include h in
theorem Credited.toInt_blocksUp (hle : height <= current.toNat)
    (hmax : current.toNat <= maxCreditHeight) :
    (if !info.isFullyFunded then (0 : Int64)
      else if isDecommissioned info then
        info.lastDecommissionHeight.toInt64 - -info.activeSinceHeight
      else
        current.toInt64 - info.activeSinceHeight).toInt = blocksUp info current.toNat := by
  have hfits := fun {z} => h.fits hle hmax (z := z)
  have hbound := maxCreditHeight_eq
  have hlast := h.last_le
  have hup : Fits (blocksUp info current.toNat) := hfits (by simp [creditValues])
  unfold blocksUp at hup ⊢
  split
  · rfl
  next hfunded =>
    rw [if_neg hfunded] at hup
    split
    next hdecomm =>
      rw [if_pos hdecomm] at hup
      rw [toInt_sub, toInt_neg, toInt_toInt64 (by omega),
        bmod_of_fits (hfits List.mem_cons_self), bmod_of_fits hup]
    next hactive =>
      rw [if_neg hactive] at hup
      rw [toInt_sub, toInt_toInt64 (by omega), bmod_of_fits hup]

include h in
theorem Credited.toInt_credit (hle : height <= current.toNat)
    (hmax : current.toNat <= maxCreditHeight) :
    (calculateDecommissionCredit info current).toInt = exactCredit info current.toNat := by
  have hfits := fun {z} => h.fits hle hmax (z := z)
  have hbound := maxCreditHeight_eq
  have hlast := h.last_le
  have hup := h.toInt_blocksUp hle hmax
  have hrange := h.blocksUp_bounds hle
  unfold calculateDecommissionCredit
  simp only
  generalize (if !info.isFullyFunded then (0 : Int64)
    else if isDecommissioned info then
      info.lastDecommissionHeight.toInt64 - -info.activeSinceHeight
    else current.toInt64 - info.activeSinceHeight) = up at hup ⊢
  have hearned := @toInt_earned up (by omega)
  rw [hup] at hearned
  generalize (if 0 < up then ((up * decommissionCreditPerDay).toUInt64 / 2880).toInt64 else 0) =
    earned at hearned ⊢
  have hsum : (info.recommissionCredit + earned).toInt =
      info.recommissionCredit.toInt + max 0 (blocksUp info current.toNat) * 96 / 2880 := by
    rw [toInt_add, hearned, bmod_of_fits (hfits (by simp [creditValues]))]
  have hcapped : (if decommissionMaxCredit < info.recommissionCredit + earned then
      decommissionMaxCredit else info.recommissionCredit + earned).toInt =
        cappedCredit info current.toNat := by
    unfold cappedCredit
    rw [<- hsum]
    split
    next hlt =>
      rw [lt_iff_toInt_lt] at hlt
      omega
    next hge =>
      rw [lt_iff_toInt_lt] at hge
      omega
  have hexact : Fits (exactCredit info current.toNat) := hfits (by simp [creditValues])
  unfold exactCredit at hexact ⊢
  split
  next hdecomm =>
    have hused : Fits (current.toNat - info.lastDecommissionHeight.toNat) :=
      hfits (by simp [creditValues])
    rw [if_pos hdecomm] at hexact
    rw [toInt_sub, toInt_sub, hcapped, toInt_toInt64 (by omega),
      toInt_toInt64 (by omega), bmod_of_fits hused, bmod_of_fits hexact]
  · exact hcapped

/-! ## State changes -/

variable {stateChange : StateChange} {ctx : BlockContext}

include h in
theorem Credited.decommissioned (hle : height <= ctx.blockHeight.toNat)
    (hmax : ctx.blockHeight.toNat <= maxCreditHeight)
    (hnext : decommissioned ctx stateChange info = some next) :
    Credited ctx.blockHeight.toNat next := by
  have hsince := h.since_le
  unfold NodeList.decommissioned at hnext
  split at hnext
  · cases hnext
  next hactive =>
    have hpositive : ¬ info.activeSinceHeight.toInt < 0 :=
      fun hlt => hactive (Or.inr (isDecommissioned_iff.mpr hlt))
    have hneg : (-info.activeSinceHeight).toInt = -info.activeSinceHeight.toInt := by
      rw [toInt_neg, bmod_of_fits (h.fits hle hmax List.mem_cons_self)]
    cases hnext
    constructor
    · exact h.credit_nonneg
    · exact h.credit_le
    · intro hzero
      refine h.funded ?_
      change (-info.activeSinceHeight).toInt ≠ 0 at hzero
      omega
    · change (-info.activeSinceHeight).toInt <= _
      omega
    · change -(-info.activeSinceHeight).toInt <= ctx.blockHeight.toNat
      omega
    · exact le_refl _

include h in
theorem Credited.toInt_creditAtDecomm (hmax : height <= maxCreditHeight)
    (hout : isDecommissioned info = true) :
    (calculateDecommissionCredit info info.lastDecommissionHeight).toInt =
      cappedCredit info height' := by
  have hsince := isDecommissioned_iff.mp hout
  have hthen : Credited info.lastDecommissionHeight.toNat info :=
    { h with
      since_le := by omega
      last_le := le_refl _ }
  rw [hthen.toInt_credit (le_refl _) (le_trans h.last_le hmax)]
  unfold exactCredit cappedCredit blocksUp
  simp only [if_pos hout]
  omega

include h in
theorem Credited.toInt_recommissioned (hle : height <= ctx.blockHeight.toNat)
    (hmax : ctx.blockHeight.toNat <= maxCreditHeight)
    (hnext : recommissioned ctx info = some next) :
    next.recommissionCredit.toInt = max 0
      ((calculateDecommissionCredit info info.lastDecommissionHeight).toInt -
        2 * (ctx.blockHeight.toNat - info.lastDecommissionHeight.toNat)) := by
  have hfits := fun {z} => h.fits hle hmax (z := z)
  have hbound := maxCreditHeight_eq
  have hlast := le_trans h.last_le hle
  unfold recommissioned at hnext
  split at hnext
  · cases hnext
  next hold =>
    have hout : isDecommissioned info = true := by
      simpa using fun hin => hold (Or.inr hin)
    have hcredit : _ = cappedCredit info ctx.blockHeight.toNat :=
      h.toInt_creditAtDecomm (le_trans hle hmax) hout
    cases hnext
    generalize calculateDecommissionCredit info info.lastDecommissionHeight = credit at hcredit ⊢
    have hblocks : (ctx.blockHeight - info.lastDecommissionHeight).toInt64.toInt =
        ctx.blockHeight.toNat - info.lastDecommissionHeight.toNat := by
      have hsub := UInt64.toNat_sub_of_le _ _ (UInt64.le_iff_toNat_le.mpr hlast)
      rw [toInt_toInt64, hsub]
      · omega
      · rw [hsub]
        omega
    generalize (ctx.blockHeight - info.lastDecommissionHeight).toInt64 = blocks at hblocks ⊢
    have htwice : (2 * blocks).toInt = 2 * blocks.toInt := by
      rw [toInt_mul, hblocks]
      exact bmod_of_fits (hfits (by simp [creditValues]))
    have hleft : (credit - 2 * blocks).toInt = credit.toInt - 2 * blocks.toInt := by
      rw [toInt_sub, htwice, hcredit, hblocks]
      exact bmod_of_fits (hfits (by simp [creditValues]))
    unfold recommissionCredit
    simp only
    rw [<- hblocks]
    split
    next hlt =>
      have hlt : (credit - 2 * blocks).toInt < 0 := lt_iff_toInt_lt.mp hlt
      change (0 : Int) = _
      omega
    next hge =>
      have hge : ¬ (credit - 2 * blocks).toInt < 0 :=
        fun hlt => hge (lt_iff_toInt_lt.mpr hlt)
      omega

include h in
theorem Credited.recommissioned (hle : height <= ctx.blockHeight.toNat)
    (hmax : ctx.blockHeight.toNat <= maxCreditHeight)
    (hnext : recommissioned ctx info = some next) :
    Credited ctx.blockHeight.toNat next := by
  have hcredit := h.toInt_recommissioned hle hmax hnext
  have hbound := maxCreditHeight_eq
  have hlast := le_trans h.last_le hle
  unfold NodeList.recommissioned at hnext
  split at hnext
  · cases hnext
  next hold =>
    have hout : isDecommissioned info = true := by
      simpa using fun hin => hold (Or.inr hin)
    have hat : _ = cappedCredit info height :=
      h.toInt_creditAtDecomm (le_trans hle hmax) hout
    have hcapped := h.cappedCredit_bounds (le_refl height)
    have hfunded := h.funded (Int.ne_of_lt (isDecommissioned_iff.mp hout))
    have hnow : ctx.blockHeight.toInt64.toInt = ctx.blockHeight.toNat := toInt_toInt64 (by omega)
    cases hnext
    constructor
    · omega
    · omega
    · exact fun _ => hfunded
    · change ctx.blockHeight.toInt64.toInt <= _
      omega
    · change -ctx.blockHeight.toInt64.toInt <= info.lastDecommissionHeight.toNat
      omega
    · exact hlast

include h in
theorem Credited.changedInfo (hle : height <= ctx.blockHeight.toNat)
    (hmax : ctx.blockHeight.toNat <= maxCreditHeight)
    (hnext : changedInfo ctx stateChange info = some next) :
    Credited ctx.blockHeight.toNat next := by
  unfold NodeList.changedInfo at hnext
  split at hnext
  · cases hnext
  · exact h.decommissioned hle hmax hnext
  · exact h.recommissioned hle hmax hnext
  · unfold ipChangePenalty at hnext
    split at hnext
    · cases hnext
    · cases hnext
      exact (h.mono hle).of_eq rfl rfl rfl rfl

end Records

/-! ## Lists -/

def Every (p : MasterNode -> Prop) (infos : MasterNodes) : Prop :=
  forall key info, infos.find? key = some info -> p info

section Lists

variable {p : MasterNode -> Prop} {infos : MasterNodes}

theorem Every.set (h : Every p infos) {key : PublicKey} {info : MasterNode} (hinfo : p info) :
    Every p (infos.set key info) := by
  intro other record hrec
  rcases Table.find?_set_cases hrec with ⟨_, rfl⟩ | ⟨_, hrec⟩
  · exact hinfo
  · exact h other record hrec

theorem Every.restrict (h : Every p infos) (keep : PublicKey -> Bool) :
    Every p (infos.restrict keep) := by
  exact fun key info hinfo => h key info (Table.find?_restrict_eq_some.mp hinfo).2

end Lists

/-! ## Blocks -/

section

variable {O : ListOracles P σ} {height : Nat} {infos : MasterNodes}

theorem credited_of_sameView {infos' : MasterNodes} (h : Every (Credited height) infos)
    (hsame : SameView creditView infos infos') : Every (Credited height) infos' := by
  intro key info' hinfo'
  have hview := hsame key
  rw [hinfo', Option.map_some, eq_comm, Option.map_eq_some_iff] at hview
  rcases hview with ⟨info, hinfo, hview⟩
  simp only [creditView, Prod.mk.injEq] at hview
  exact (h key info hinfo).of_eq hview.1.symm hview.2.1.symm hview.2.2.1.symm hview.2.2.2.symm

variable {nodes : Nodes}

theorem credited_beginBlock (number : Nat) (block : Block P)
    (h : Every (Credited height) nodes.masterNodesInfos) :
    Every (Credited height) (beginBlock O number block nodes).nodes.masterNodesInfos := by
  have hpos : Every (Credited height)
      (updatePosQuorum O number block { nodes with quorums := {} }).masterNodesInfos :=
    credited_of_sameView h (sameView_updatePosQuorum (fun _ _ => rfl) O number block _)
  exact credited_of_sameView (hpos.restrict _) (sameView_modifyInfo _ _ fun _ => rfl)

variable {ctx : BlockContext} {tx : Transaction P} {index : UInt32}

theorem credited_of_registration {key : PublicKey} {node : MasterNode}
    (h : isRegistrationTx O.toRegistrationOracles O.nettype ctx.hf tx
      (O.listExtra ctx.hf tx).toRegistrationExtra ctx.timestamp ctx.blockHeight index =
        .ok (key, node)) : Credited height node := by
  rcases orReject_bind_ok.mp h with ⟨fields, _, h⟩
  rcases bind_ok.mp h with ⟨_, _, h⟩
  rcases bind_ok.mp h with ⟨_, _, h⟩
  rcases rejectIf_bind_ok.mp h with ⟨_, h⟩
  rcases orReject_bind_ok.mp h with ⟨stake, _, h⟩
  rcases bind_ok.mp h with ⟨_, _, h⟩
  rcases bind_ok.mp h with ⟨info, hinfo, h⟩
  rcases rejectIf_bind_ok.mp h with ⟨_, h⟩
  have hstep : forall {before after : MasterNodeInfo} {spot : _},
      reserveSpot before spot = .ok after -> before.activeSinceHeight = 0 ->
      after.activeSinceHeight = 0 := by
    intro before after spot hspot hbef
    rcases rejectIf_bind_ok.mp hspot with ⟨_, hafter⟩
    cases hafter
    exact hbef
  have hsince : info.activeSinceHeight = 0 :=
    @run_preserves _ _ _ _ (fun record : MasterNodeInfo => record.activeSinceHeight = 0)
      hstep _ _ _ hinfo rfl
  cases h
  constructor
  · change 0 <= (if Hf.hf18Bns <= ctx.hf then decommissionInitialCreditV18 else 0).toInt
    split <;> decide
  · change (if Hf.hf18Bns <= ctx.hf then decommissionInitialCreditV18 else 0).toInt <= _
    split <;> decide
  · intro hne
    exact absurd (congrArg toInt hsince) hne
  · rw [hsince]
    exact Int.natCast_nonneg height
  · rw [hsince]
    exact Int.natCast_nonneg _
  · exact Nat.zero_le height

theorem credited_registered (index : UInt32) (tx : Transaction P)
    (h : Every (Credited height) infos) :
    Every (Credited height) (registered O ctx index tx infos) := by
  unfold registered
  cases hregister : processRegistrationTx O.toRegistrationOracles O.nettype ctx.hf tx
      (O.listExtra ctx.hf tx).toRegistrationExtra ctx.timestamp ctx.blockHeight index infos with
  | error reason => exact h
  | ok next =>
    rcases bind_ok.mp hregister with ⟨⟨key, node⟩, hnode, hnext⟩
    have hcredited : Credited height node := credited_of_registration hnode
    simp only at hnext
    split at hnext
    · cases hnext
      exact h.set hcredited
    · split at hnext
      · cases hnext
      · rcases bind_ok.mp hnext with ⟨kept, hkept, hset⟩
        rcases rejectIf_bind_ok.mp hkept with ⟨_, hkept⟩
        cases hkept
        cases hset
        exact h.set (hcredited.of_eq rfl rfl rfl rfl)

theorem credited_contributed (hle : height <= ctx.blockHeight.toNat)
    (hmax : ctx.blockHeight.toNat <= maxCreditHeight) {result : MasterNodes × Bool}
    (h : Every (Credited height) infos) (hres : contributed O ctx index tx infos = .ok result) :
    Every (Credited ctx.blockHeight.toNat) result.1 := by
  rcases contributed_eq_ok hres with ⟨stake, info, next, _, hinfo, hnext, hset⟩
  have hold := h _ _ hinfo
  rw [hset]
  refine Every.set (fun key info hinfo => (h key info hinfo).mono hle) ?_
  rcases bind_ok.mp hnext with ⟨scan, hscan, happlied⟩
  rcases rejectIf_bind_ok.mp hscan with ⟨hopen, _⟩
  have hbound := maxCreditHeight_eq
  have hnow : ctx.blockHeight.toInt64.toInt = ctx.blockHeight.toNat := toInt_toInt64 (by omega)
  -- only an open node takes a stake, and an open node has not been active
  have hsince : info.activeSinceHeight.toInt = 0 := by
    by_contra hne
    rw [hold.funded hne] at hopen
    cases hopen
  have hlast := hold.last_le
  cases happlied
  unfold MasterNodeInfo.activate
  split
  next hfunded =>
    constructor
    · exact hold.credit_nonneg
    · exact hold.credit_le
    · exact fun _ => hfunded
    · exact Int.le_of_eq hnow
    · change -ctx.blockHeight.toInt64.toInt <= info.lastDecommissionHeight.toNat
      omega
    · exact le_trans hlast hle
  · constructor
    · exact hold.credit_nonneg
    · exact hold.credit_le
    · exact fun hne => absurd hsince hne
    · change info.activeSinceHeight.toInt <= _
      omega
    · change -info.activeSinceHeight.toInt <= info.lastDecommissionHeight.toNat
      omega
    · exact le_trans hlast hle

theorem credited_processTx (hmax : ctx.blockHeight.toNat <= maxCreditHeight)
    (source : QuorumSource) (entry : Transaction P × Nat) {u : Updating}
    (h : Every (Credited ctx.blockHeight.toNat) u.nodes.masterNodesInfos) :
    Every (Credited ctx.blockHeight.toNat)
      (processTx O source ctx u entry).nodes.masterNodesInfos := by
  have hproc := processTx_processed O source ctx u entry
  generalize (processTx O source ctx u entry).nodes = next at hproc ⊢
  cases hproc with
  | staking _ =>
    have hreg : Every (Credited ctx.blockHeight.toNat)
        (registered O ctx (UInt32.ofNat entry.2) entry.1 u.nodes.masterNodesInfos) :=
      credited_registered _ entry.1 h
    simp only [processStakingTx]
    cases hres : contributed O ctx (UInt32.ofNat entry.2) entry.1
        (registered O ctx (UInt32.ofNat entry.2) entry.1 u.nodes.masterNodesInfos) with
    | error reason => exact hreg
    | ok result => exact credited_contributed (le_refl _) hmax hreg hres
  | stateChange _ hchange =>
    rcases processStateChangeTx_eq_some hchange with
      ⟨_, _, _, htarget, ⟨_, rfl⟩ | ⟨changed, hchg, rfl⟩⟩
    · exact h.restrict _
    · have hinfo := h _ _ (stateChangeTarget_find? htarget)
      exact h.set (hinfo.changedInfo (le_refl _) hmax hchg)
  | unlock hunlock =>
    rcases processKeyImageUnlockTx_eq_some hunlock with ⟨_, _, _, hinfo, rfl⟩
    exact h.set ((h _ _ hinfo).of_eq rfl rfl rfl rfl)
  | nothing => exact h

variable {number : Nat}

theorem credited_apply {step : BlockStep P} (hle : height <= (getBlockHeight step.block).toNat)
    (hmax : (getBlockHeight step.block).toNat <= maxCreditHeight)
    (h : Every (Credited height) nodes.masterNodesInfos) :
    Every (Credited (getBlockHeight step.block).toNat)
      (step.apply O number nodes).masterNodesInfos := by
  have hbegin : Every (Credited (getBlockHeight step.block).toNat)
      (beginBlock O number step.block nodes).nodes.masterNodesInfos :=
    fun key info hinfo => (credited_beginBlock number step.block h key info hinfo).mono hle
  refine credited_of_sameView ?_ (sameView_finishBlock (fun _ _ => rfl) O number step.block _)
  generalize beginBlock O number step.block nodes = u at hbegin
  generalize step.txs.zipIdx = entries
  induction entries generalizing u with
  | nil => exact hbegin
  | cons entry rest ih => exact ih _ (credited_processTx hmax step.source entry hbegin)

/-- The heights of the blocks do not decrease, and the last one is not above a bound. -/
inductive Climbs : Nat -> List (BlockStep P) -> Nat -> Prop where
  | nil {height : Nat} : Climbs height [] height
  | cons {height top : Nat} {step : BlockStep P} {rest : List (BlockStep P)} :
      height <= (getBlockHeight step.block).toNat ->
      Climbs (getBlockHeight step.block).toNat rest top -> Climbs height (step :: rest) top

variable {steps : List (BlockStep P)} {top : Nat}

theorem Climbs.le (h : Climbs height steps top) : height <= top := by
  induction h with
  | nil => exact le_refl _
  | cons hle _ ih => exact le_trans hle ih

theorem credited_runBlocks (hsteps : Climbs height steps top) (hmax : top <= maxCreditHeight)
    (h : Every (Credited height) nodes.masterNodesInfos) :
    Every (Credited top) (runBlocks O number nodes steps).masterNodesInfos := by
  induction hsteps generalizing number nodes with
  | nil => exact h
  | cons hle hrest ih => exact ih hmax (credited_apply hle (le_trans hrest.le hmax) h)

/-- The credit is within its bounds in every record that a run of blocks leaves, a node out of
service is fully funded and was active before it was taken out, a recommission takes twice
the time off, and no signed operation leaves the range of its words. -/
theorem credit_bounds (O : ListOracles P σ) (number top : Nat) (steps : List (BlockStep P))
    (hsteps : Climbs 0 steps top) (hmax : top <= maxCreditHeight) (key : PublicKey)
    (info : MasterNode)
    (hinfo : (runBlocks O number ⟨Table.empty, [], {}⟩ steps).masterNodesInfos.find? key =
      some info) :
    (0 <= info.recommissionCredit.toInt ∧
      info.recommissionCredit.toInt <= decommissionMaxCredit.toInt) ∧
    (isDecommissioned info = true -> info.isFullyFunded = true ∧ 0 < -info.activeSinceHeight.toInt ∧
      -info.activeSinceHeight.toInt <= info.lastDecommissionHeight.toNat) ∧
    (forall ctx next, top <= ctx.blockHeight.toNat -> ctx.blockHeight.toNat <= maxCreditHeight ->
      recommissioned ctx info = some next -> next.recommissionCredit.toInt = max 0
        ((calculateDecommissionCredit info info.lastDecommissionHeight).toInt -
          2 * (ctx.blockHeight.toNat - info.lastDecommissionHeight.toNat))) ∧
    forall height : UInt64, top <= height.toNat -> height.toNat <= maxCreditHeight ->
      (calculateDecommissionCredit info height).toInt = exactCredit info height.toNat ∧
      forall z, z ∈ creditValues info height.toNat -> Fits z := by
  have h : Credited top info := by
    refine credited_runBlocks hsteps hmax ?_ key info hinfo
    intro _ _ hnone
    cases hnone
  refine ⟨⟨h.credit_nonneg, h.credit_le⟩, fun hout => ?_, fun ctx next hle hht hnext => ?_,
    fun height hle hht => ⟨h.toInt_credit hle hht, fun z hz => ?_⟩⟩
  · have hsince := isDecommissioned_iff.mp hout
    exact ⟨h.funded (Int.ne_of_lt hsince), by omega, h.since_ge⟩
  · exact h.toInt_recommissioned hle hht hnext
  · exact h.fits hle hht hz

end

/-- A node is registered with its whole stake, and seven votes put it out of service. -/
def soloOracles : ListOracles Int Unit :=
  { stakeOracles with
    listExtra := fun _ tx =>
      { extraOf 5 with
        masterNodeRegister :=
          some
            { publicSpendKeys := [⟨5⟩]
              publicViewKeys := [⟨5⟩]
              portionsForOperator := 0
              portions := [18446744073709551612]
              expirationTimestamp := 2 ^ 64 - 1
              masterNodeSignature := nullSignature }
        stateChange := if tx.type = .stateChange then
          some
            { state := .decommission
              blockHeight := 60000
              masterNodeIndex := 0
              reasonConsensusAll := 0
              reasonConsensusAny := 0
              votes := (List.range 7).map fun i => ⟨nullSignature, UInt32.ofNat i⟩ }
          else none
        keyImageUnlock := none } }

def soloStep : BlockStep Int :=
  { stakeStep with
    txs :=
      [{ stakeFive with
          rctSignatures := { stakeFive.rctSignatures with txnFee := 10000000000000 } }] }

def soloNode : Option MasterNode :=
  (runBlocks soloOracles 59999 ⟨Table.empty, [], {}⟩ [soloStep]).masterNodesInfos.find? ⟨7⟩

theorem soloNode_active :
    soloNode.map (fun info => (info.activeSinceHeight, info.isFullyFunded)) =
      some (60000, true) := by
  decide +kernel

theorem climbs_soloStep : Climbs 0 [soloStep] 60000 :=
  .cons (Nat.zero_le _) .nil

def soloQuorum : Quorum where
  validators := (List.range 10).map fun i => ⟨BitVec.ofNat 256 i⟩
  workers := [⟨7⟩]

def outStep : BlockStep Int where
  block := (Outputs.sampleEntry 60010 []).block
  txs := [{ stakeFive with type := .stateChange }]
  source := ⟨fun _ => some { obligations := some soloQuorum }, []⟩

def outOfService : Option MasterNode :=
  (runBlocks soloOracles 59999 ⟨Table.empty, [], {}⟩ [soloStep, outStep]).masterNodesInfos.find? ⟨7⟩

theorem isDecommissioned_outOfService : outOfService.map isDecommissioned = some true := by
  decide +kernel

theorem credit_bounds_outOfService :
    exists info, outOfService = some info ∧ isDecommissioned info = true ∧
      info.isFullyFunded = true ∧ 0 < -info.activeSinceHeight.toInt ∧
      -info.activeSinceHeight.toInt <= info.lastDecommissionHeight.toNat := by
  rcases Option.map_eq_some_iff.mp isDecommissioned_outOfService with ⟨info, hinfo, hout⟩
  have hclimbs : Climbs 0 [soloStep, outStep] 60010 :=
    .cons (Nat.zero_le _) (.cons (by decide) .nil)
  have h := credit_bounds soloOracles 59999 60010 _ hclimbs (by decide) ⟨7⟩ info hinfo
  exact ⟨info, hinfo, hout, h.2.1 hout⟩

/-- The product in the credit of an active node overflows at a height far below `2 ^ 62`. -/
theorem soloNode_overflows :
    Climbs 0 [soloStep] 60000 ∧ 2 ^ 57 < 2 ^ 62 ∧ exists info, soloNode = some info ∧
      exists z, z ∈ creditValues info (2 ^ 57) ∧ ¬ Fits z := by
  rcases Option.map_eq_some_iff.mp soloNode_active with ⟨info, hinfo, hview⟩
  rcases Prod.mk.inj hview with ⟨hsince, hfunded⟩
  have hup : blocksUp info (2 ^ 57) = 2 ^ 57 - 60000 := by
    unfold blocksUp isDecommissioned
    rw [hfunded, hsince]
    rfl
  refine ⟨climbs_soloStep, by decide, info, hinfo, max 0 (blocksUp info (2 ^ 57)) * 96, ?_, ?_⟩
  · simp [creditValues]
  · rw [hup]
    intro hfits
    exact absurd hfits.2 (by decide)

end Beldex.NodeList
