import Beldex.Coinbase.MinerTx
import Beldex.Foundation.Rotation
import Beldex.NodeList.BlockSteps

/-!
# The rotation of the leaders

The leader of a block is the active node that has waited longest for a reward, and the
block sends it to the back.  While nothing else happens to the nodes, they lead in turn.
-/

namespace Beldex.NodeList

open Basic
open Coinbase (getBlockLeader keepOldest keyBytes oldestWaiting waitingSince)
open Crypto Foundation Staking List

variable {P σ : Type}

/-! ## The queue -/

def rewardInfo (info : MasterNode) : Coinbase.MasterNodeInfo where
  contributors := info.contributors.map fun c => ⟨c.address, c.amount⟩
  operatorAddress := info.operatorAddress
  portionsForOperator := info.portionsForOperator
  stakingRequirement := info.stakingRequirement
  totalContributed := info.totalContributed
  activeSinceHeight := info.activeSinceHeight.toInt
  lastRewardBlockHeight := info.lastRewardBlockHeight
  lastRewardTransactionIndex := info.lastRewardTransactionIndex

abbrev RewardEntry := PublicKey × Coinbase.MasterNodeInfo

variable (infos : MasterNodes)

def rewardInfos : Table PublicKey Coinbase.MasterNodeInfo where
  entries := infos.entries.map fun entry => (entry.1, rewardInfo entry.2)
  nodup := by
    rw [map_map]
    exact infos.nodup

def leaderKey : PublicKey :=
  (getBlockLeader (rewardInfos infos)).key

def rewardView (info : MasterNode) : Bool × UInt64 × UInt32 :=
  (isActive info, info.lastRewardBlockHeight, info.lastRewardTransactionIndex)

def IsActiveIn (key : PublicKey) : Prop :=
  exists height index, (infos.find? key).map rewardView = some (true, height, index)

def RewardedBelow (bound : Nat) : Prop :=
  forall key info, infos.find? key = some info -> isActive info = true ->
    info.lastRewardBlockHeight.toNat < bound

def rankIn (key : PublicKey) : List Nat :=
  let view := ((infos.find? key).map rewardView).getD (false, 0, 0)
  view.2.1.toNat :: view.2.2.toNat :: keyBytes key

section Queue

variable {infos infos' : MasterNodes} {key : PublicKey} {info : MasterNode}

theorem keyBytes_injective : Function.Injective keyBytes := by
  rintro ⟨a⟩ ⟨b⟩ h
  have hbyte : forall i, i < 32 -> a.extractLsb' (8 * i) 8 = b.extractLsb' (8 * i) 8 :=
    fun i hi => BitVec.eq_of_toNat_eq (map_inj_left.mp h i (mem_range.mpr hi))
  congr 1
  refine BitVec.eq_of_getLsbD_eq fun i hi => ?_
  have hbit := congrArg (BitVec.getLsbD · (i % 8)) (hbyte (i / 8) (by omega))
  simpa [BitVec.getLsbD_extractLsb', Nat.mod_lt, Nat.div_add_mod] using hbit

theorem rankIn_injective (infos : MasterNodes) : Function.Injective (rankIn infos) :=
  fun _ _ h => keyBytes_injective (cons.inj (cons.inj h).2).2

theorem rankIn_of_find? (h : infos.find? key = some info) :
    rankIn infos key = waitingSince key (rewardInfo info) := by
  unfold rankIn
  rw [h]
  rfl

theorem isActiveIn_iff : IsActiveIn infos key <->
    exists info, infos.find? key = some info ∧ isActive info = true := by
  constructor
  · rintro ⟨height, index, hview⟩
    rcases Option.map_eq_some_iff.mp hview with ⟨info, hinfo, hview⟩
    exact ⟨info, hinfo, congrArg Prod.fst hview⟩
  · rintro ⟨info, hinfo, hactive⟩
    refine ⟨info.lastRewardBlockHeight, info.lastRewardTransactionIndex, ?_⟩
    rw [hinfo, <- hactive]
    rfl

theorem isActive_rewardInfo (info : MasterNode) : (rewardInfo info).isActive = isActive info := by
  unfold Coinbase.MasterNodeInfo.isActive isActive isDecommissioned
  congr 2
  rw [decide_eq_decide, Int64.lt_iff_toInt_lt]
  rfl

/-- The entry is the one that waits longest, or it is behind that one. -/
def NotBefore (best entry : RewardEntry) : Prop :=
  entry = best ∨ waitingSince best.1 best.2 < waitingSince entry.1 entry.2

theorem foldl_keepOldest {entries : List RewardEntry} {oldest : Option RewardEntry}
    {best : RewardEntry} (hbest : best.2.isActive = true)
    (hmem : best ∈ entries ∨ oldest = some best)
    (hents : forall e, e ∈ entries -> e.2.isActive = true -> NotBefore best e ∧
      waitingSince e.1 e.2 < 0xffffffffffffffff :: 0xffffffff :: keyBytes nullPkey)
    (holdest : forall e, oldest = some e -> NotBefore best e) :
    entries.foldl keepOldest oldest = some best := by
  induction entries generalizing oldest with
  | nil => exact hmem.resolve_left not_mem_nil
  | cons e rest ih =>
    have hrest := fun x hx => hents x (mem_cons_of_mem e hx)
    by_cases hactive : e.2.isActive = true
    · rcases hents e mem_cons_self hactive with ⟨hnot, hlow⟩
      -- the best entry stays once it is found, and replaces every other one
      have hstep : (e = best -> keepOldest oldest e = some best) ∧
          (oldest = some best -> keepOldest oldest e = some best) ∧
          forall x, keepOldest oldest e = some x -> NotBefore best x := by
        unfold keepOldest
        rw [if_pos hactive]
        cases oldest with
        | none => grind
        | some b =>
          have hb := holdest b rfl
          unfold NotBefore at hb hnot ⊢
          grind
      refine ih ?_ hrest hstep.2.2
      rcases hmem with hmem | hfound
      · rcases mem_cons.mp hmem with heq | hmem
        · exact .inr (hstep.1 heq.symm)
        · exact .inl hmem
      · exact .inr (hstep.2.1 hfound)
    · have hstep : keepOldest oldest e = oldest := if_neg hactive
      rw [foldl_cons, hstep]
      refine ih (hmem.imp_left fun hmem => ?_) hrest holdest
      exact (mem_cons.mp hmem).resolve_left fun heq => hactive (heq ▸ hbest)

theorem leaderKey_eq {first : PublicKey} {rest : List PublicKey}
    (hqueue : IsQueue (rankIn infos) (IsActiveIn infos) (first :: rest))
    (hbelow : RewardedBelow infos (2 ^ 64 - 1)) : leaderKey infos = first := by
  rcases isActiveIn_iff.mp ((hqueue.mem_iff first).mp mem_cons_self) with
    ⟨info, hinfo, hactive⟩
  have holdest : oldestWaiting (rewardInfos infos) = some (first, rewardInfo info) := by
    refine foldl_keepOldest ((isActive_rewardInfo info).trans hactive)
      (.inl (mem_map_of_mem (infos.mem_of_find?_eq_some hinfo))) ?_ fun _ h => nomatch h
    intro e he heactive
    rcases mem_map.mp he with ⟨⟨key, record⟩, hent, rfl⟩
    have hfind : infos.find? key = some record := infos.find?_eq_some_of_mem hent
    rw [isActive_rewardInfo] at heactive
    constructor
    · rcases mem_cons.mp ((hqueue.mem_iff key).mpr
        (isActiveIn_iff.mpr ⟨record, hfind, heactive⟩)) with rfl | hmem
      · rw [hinfo] at hfind
        cases hfind
        exact .inl rfl
      · have hlt := (pairwise_cons.mp hqueue.sorted).1 key hmem
        rw [rankIn_of_find? hinfo, rankIn_of_find? hfind] at hlt
        exact .inr hlt
    · exact List.Lex.rel (hbelow key record hfind heactive)
  unfold leaderKey getBlockLeader
  rw [holdest]
  simp only
  split
  next hnull =>
    exact hnull.symm
  · rfl

end Queue

/-! ## Quiet blocks -/

/-- The transactions register, contribute and change the state of nothing. -/
def QuietTxs (O : ListOracles P σ) (source : QuorumSource) (ctx : BlockContext) :
    Updating -> List (Transaction P × Nat) -> Prop
  | _, [] => True
  | u, entry :: rest =>
    (entry.1.type = stakingTxType ctx.hf ->
      (processStakingTx O ctx (UInt32.ofNat entry.2) entry.1 u.nodes.masterNodesInfos).1 =
        u.nodes.masterNodesInfos) ∧
    (entry.1.type = .stateChange -> processStateChangeTx O source ctx entry.1 u.nodes = none) ∧
    QuietTxs O source ctx (processTx O source ctx u entry) rest

structure Quiet (O : ListOracles P σ) (height : Nat) (nodes : Nodes) (step : BlockStep P) :
    Prop where
  expired : forall key,
    let infos := (updatePosQuorum O height step.block { nodes with quorums := {} }).masterNodesInfos
    key ∈ getExpiredNodes O (blockContext step.block) infos -> infos.find? key = none
  txs : QuietTxs O step.source (blockContext step.block) (beginBlock O height step.block nodes)
    step.txs.zipIdx

section Steps

variable {O : ListOracles P σ} {height : Nat} {nodes : Nodes} {step : BlockStep P}

theorem QuietTxs.sameView {source : QuorumSource} {ctx : BlockContext} {u : Updating}
    {entries : List (Transaction P × Nat)} (h : QuietTxs O source ctx u entries) :
    SameView rewardView u.nodes.masterNodesInfos
      (entries.foldl (processTx O source ctx) u).nodes.masterNodesInfos := by
  induction entries generalizing u with
  | nil => exact SameView.refl _
  | cons entry rest ih =>
    rcases h with ⟨hstaking, hchange, hrest⟩
    refine SameView.trans ?_ (ih hrest)
    have hproc := processTx_processed O source ctx u entry
    generalize (processTx O source ctx u entry).nodes = next at hproc ⊢
    cases hproc with
    | staking htype =>
      simp only [hstaking htype]
      exact SameView.refl _
    | stateChange htype hsome =>
      rw [hchange htype] at hsome
      cases hsome
    | unlock hunlock =>
      rcases processKeyImageUnlockTx_eq_some hunlock with ⟨_, _, _, hinfo, rfl⟩
      exact sameView_set hinfo rfl
    | nothing => exact SameView.refl _

def paid (winner key : PublicKey) (blockHeight : UInt64) (view : Bool × UInt64 × UInt32) :
    Bool × UInt64 × UInt32 :=
  if key = winner then (view.1, blockHeight, 0xffffffff) else view

theorem find?_advanceWinner (ctx : BlockContext) (winner : PublicKey) (infos : MasterNodes)
    (key : PublicKey) :
    ((advanceWinner ctx winner infos).find? key).map rewardView =
      ((infos.find? key).map rewardView).map (paid winner key ctx.blockHeight) := by
  unfold advanceWinner modifyInfo paid
  by_cases hkey : key = winner
  · subst hkey
    cases hfind : infos.find? key with
    | none => simp [hfind]
    | some info => simp [rewardView, isActive, isDecommissioned, MasterNodeInfo.isFullyFunded]
  · simp only [if_neg hkey, Option.map_id']
    cases infos.find? winner with
    | none => rfl
    | some info => rw [Table.find?_set_of_ne _ _ hkey]

/-- A block of the height has sent its winner to the back, and done nothing else. -/
def Pays (winner : PublicKey) (blockHeight : UInt64) (infos next : MasterNodes) : Prop :=
  forall key, (next.find? key).map rewardView =
    ((infos.find? key).map rewardView).map (paid winner key blockHeight)

theorem Quiet.pays (h : Quiet O height nodes step) :
    Pays (getMasterNodeWinnerFromTxExtra step.block.minerTx) (getBlockHeight step.block)
      nodes.masterNodesInfos (step.apply O height nodes).masterNodesInfos := by
  intro key
  have hpos : SameView rewardView _ _ := sameView_updatePosQuorum (fun _ _ => rfl) O height
    step.block { nodes with quorums := {} }
  refine (sameView_finishBlock (fun _ _ => rfl) O height step.block _ key).trans ?_
  refine (h.txs.sameView key).trans ((find?_advanceWinner ..).trans ?_)
  rw [<- hpos key]
  congr 2
  -- no node of the list expires
  rw [Table.find?_restrict]
  split
  · rfl
  next hgone =>
    rw [Bool.not_eq_true, Bool.not_eq_false', contains_iff_mem] at hgone
    exact (h.expired key hgone).symm

variable {infos next : MasterNodes} {first : PublicKey} {blockHeight : UInt64}

section

variable (h : Pays first blockHeight infos next)
include h

theorem Pays.activeIn_iff {key : PublicKey} : IsActiveIn next key <-> IsActiveIn infos key := by
  unfold IsActiveIn
  rw [h key]
  cases (infos.find? key).map rewardView with
  | none => simp
  | some view =>
    rcases view with ⟨active, lastHeight, index⟩
    unfold paid
    split <;> simp

theorem Pays.rewardedBelow (hbelow : RewardedBelow infos blockHeight.toNat) :
    RewardedBelow next (blockHeight.toNat + 1) := by
  intro key info hinfo hactive
  have hview := h key
  rw [hinfo, Option.map_some, eq_comm, Option.map_eq_some_iff] at hview
  rcases hview with ⟨view, hview, hpaid⟩
  rcases Option.map_eq_some_iff.mp hview with ⟨old, hold, rfl⟩
  unfold paid at hpaid
  split at hpaid
  · have hlast : blockHeight = info.lastRewardBlockHeight :=
      congrArg (fun view => view.2.1) hpaid
    rw [<- hlast]
    omega
  · have hlast : old.lastRewardBlockHeight = info.lastRewardBlockHeight :=
      congrArg (fun view => view.2.1) hpaid
    have hlt := hbelow key old hold ((congrArg Prod.fst hpaid).trans hactive)
    rw [<- hlast]
    omega

theorem Pays.isQueue {rest : List PublicKey} (hbelow : RewardedBelow infos blockHeight.toNat)
    (hqueue : IsQueue (rankIn infos) (IsActiveIn infos) (first :: rest)) :
    IsQueue (rankIn next) (IsActiveIn next) (rest ++ [first]) := by
  have hrest : forall key, key ∈ rest -> rankIn next key = rankIn infos key := by
    intro key hkey
    have hlt := (pairwise_cons.mp hqueue.sorted).1 key hkey
    have hne : key ≠ first := fun heq => lt_irrefl _ (heq ▸ hlt)
    have hpaid : paid first key blockHeight = id := funext fun _ => if_neg hne
    unfold rankIn
    rw [h key, hpaid, Option.map_id]
    rfl
  have hback : forall key, key ∈ rest -> rankIn next key < rankIn next first := by
    -- the height of the block is behind all others
    intro key hkey
    rw [hrest key hkey]
    rcases isActiveIn_iff.mp ((hqueue.mem_iff key).mp (mem_cons_of_mem _ hkey)) with
      ⟨info, hinfo, hactive⟩
    rcases (hqueue.mem_iff first).mp mem_cons_self with ⟨_, _, hfirst⟩
    have hlast := hbelow key info hinfo hactive
    unfold rankIn
    rw [h first, hfirst, hinfo]
    simp only [Option.map_some, Option.getD_some, paid, if_true]
    exact List.Lex.rel hlast
  have hrotated := hqueue.rotate hback hrest
  exact ⟨fun key => (hrotated.mem_iff key).trans h.activeIn_iff.symm, hrotated.sorted⟩

end

inductive Rotating (O : ListOracles P σ) : Nat -> Nodes -> List PublicKey -> Prop where
  | nil {height : Nat} {nodes : Nodes} : Rotating O height nodes []
  | cons {height : Nat} {nodes : Nodes} {step : BlockStep P} {leaders : List PublicKey} :
      (getBlockHeight step.block).toNat = height + 1 ->
      getMasterNodeWinnerFromTxExtra step.block.minerTx = leaderKey nodes.masterNodesInfos ->
      Quiet O (height + 1) nodes step ->
      Rotating O (height + 1) (step.apply O (height + 1) nodes) leaders ->
      Rotating O height nodes (leaderKey nodes.masterNodesInfos :: leaders)

theorem Rotating.inTurn {leaders queue : List PublicKey} (h : Rotating O height nodes leaders)
    (hbelow : RewardedBelow nodes.masterNodesInfos (height + 1))
    (hqueue : IsQueue (rankIn nodes.masterNodesInfos) (IsActiveIn nodes.masterNodesInfos) queue)
    (hne : queue ≠ []) : InTurn queue leaders := by
  induction h generalizing queue with
  | nil => exact fun i hi => nomatch hi
  | @cons height nodes step leaders hht hwinner hquiet _ ih =>
    cases queue with
    | nil => exact absurd rfl hne
    | cons first rest =>
      have hword : (getBlockHeight step.block).toNat < 2 ^ 64 := UInt64.toNat_lt _
      have hleader := leaderKey_eq hqueue fun key info hinfo hactive =>
        lt_of_lt_of_le (hbelow key info hinfo hactive) (by omega)
      have hpays := hquiet.pays
      rw [hwinner, hleader] at hpays
      rw [<- hht] at hbelow
      have hnext := hpays.rewardedBelow hbelow
      rw [hht] at hnext
      rw [hleader]
      exact InTurn.cons (ih hnext (hpays.isQueue hbelow hqueue) (by simp))

theorem exists_queue (infos : MasterNodes) :
    exists queue, queue.length = (activeMasterNodesInfos infos).length ∧ queue.Nodup ∧
      IsQueue (rankIn infos) (IsActiveIn infos) queue := by
  let active := infos.entries.filter fun entry => isActive entry.2
  have hnodup : (active.map Prod.fst).Nodup := infos.nodup.sublist (filter_sublist.map _)
  rcases exists_isQueue hnodup (rankIn_injective infos) with ⟨queue, hperm, hqueue⟩
  refine ⟨queue, ?_, hperm.nodup_iff.mpr hnodup, fun key => ?_, hqueue.sorted⟩
  · rw [hperm.length_eq, length_map]
    exact (mergeSort_perm _ _).length_eq.symm
  · rw [hqueue.mem_iff, isActiveIn_iff, mem_map]
    constructor
    · rintro ⟨⟨_, info⟩, hent, rfl⟩
      rcases mem_filter.mp hent with ⟨hmem, hactive⟩
      exact ⟨info, infos.find?_eq_some_of_mem hmem, hactive⟩
    · rintro ⟨info, hinfo, hactive⟩
      exact ⟨(key, info), mem_filter.mpr ⟨infos.mem_of_find?_eq_some hinfo, hactive⟩, rfl⟩

/-- Among as many blocks in a row as nodes are active no leader comes twice, and the leaders
repeat with this period. -/
theorem leaders_rotate (O : ListOracles P σ) (height : Nat) (nodes : Nodes)
    (leaders : List PublicKey) (h : Rotating O height nodes leaders)
    (hbelow : RewardedBelow nodes.masterNodesInfos (height + 1))
    (hactive : 1 <= (activeMasterNodesInfos nodes.masterNodesInfos).length) :
    (forall i, i + (activeMasterNodesInfos nodes.masterNodesInfos).length <= leaders.length ->
      ((leaders.drop i).take (activeMasterNodesInfos nodes.masterNodesInfos).length).Nodup) ∧
    forall i, i + (activeMasterNodesInfos nodes.masterNodesInfos).length < leaders.length ->
      leaders[i + (activeMasterNodesInfos nodes.masterNodesInfos).length]? = leaders[i]? := by
  rcases exists_queue nodes.masterNodesInfos with ⟨queue, hlen, hnodup, hqueue⟩
  rw [<- hlen] at hactive ⊢
  exact (h.inTurn hbelow hqueue (ne_nil_of_length_pos hactive)).rotates hnodup

end Steps

def activePair : Nodes :=
  let node := { openNode with activeSinceHeight := 59000, totalContributed := 10000000000000 }
  { openNodes with masterNodesInfos := (Table.empty.set ⟨7⟩ node).set ⟨8⟩ node }

def rewardStep (height : UInt64) (winner : PublicKey) : BlockStep Int :=
  let minerTx := { stakeStep.block.minerTx with
    vin := [.gen height], extra := some [.masterNodeWinner winner] }
  { stakeStep with block := { stakeStep.block with minerTx := minerTx }, txs := [] }

theorem rotating_rewardStep {height : Nat} {nodes : Nodes} {leaders : List PublicKey}
    (word : UInt64) (leader : PublicKey) (hword : word.toNat = height + 1)
    (hleader : leader = leaderKey nodes.masterNodesInfos)
    (hnone : getExpiredNodes stakeOracles (blockContext (rewardStep word leader).block)
      (updatePosQuorum stakeOracles (height + 1) (rewardStep word leader).block
        { nodes with quorums := {} }).masterNodesInfos = [])
    (hrest : Rotating stakeOracles (height + 1)
      ((rewardStep word leader).apply stakeOracles (height + 1) nodes) leaders) :
    Rotating stakeOracles height nodes (leader :: leaders) := by
  have hquiet : Quiet stakeOracles (height + 1) nodes (rewardStep word leader) :=
    ⟨fun key hkey => absurd (hnone ▸ hkey) not_mem_nil, trivial⟩
  rw [hleader] at hquiet hrest ⊢
  refine .cons ?_ ?_ hquiet hrest
  · exact hword
  · rfl

theorem rotating_activePair : Rotating stakeOracles 59999 activePair [⟨7⟩, ⟨8⟩, ⟨7⟩] := by
  refine rotating_rewardStep 60000 ⟨7⟩ rfl ?_ ?_ (rotating_rewardStep 60001 ⟨8⟩ rfl ?_ ?_
    (rotating_rewardStep 60002 ⟨7⟩ rfl ?_ ?_ .nil))
  all_goals decide +kernel

theorem leaders_rotate_activePair :
    Rotating stakeOracles 59999 activePair [⟨7⟩, ⟨8⟩, ⟨7⟩] ∧ forall i, i + 2 < 3 ->
      ([⟨7⟩, ⟨8⟩, ⟨7⟩] : List PublicKey)[i + 2]? = ([⟨7⟩, ⟨8⟩, ⟨7⟩] : List PublicKey)[i]? := by
  have hall : forall entry, entry ∈ activePair.masterNodesInfos.entries ->
      entry.2.lastRewardBlockHeight.toNat < 60000 := by decide
  have hlen : (activeMasterNodesInfos activePair.masterNodesInfos).length = 2 :=
    (mergeSort_perm _ _).length_eq.trans (by decide)
  have h := leaders_rotate stakeOracles 59999 activePair _ rotating_activePair
    (fun key info hinfo _ => hall (key, info) (Table.mem_of_find?_eq_some _ hinfo))
    (by rw [hlen]; decide)
  rw [hlen] at h
  exact ⟨rotating_activePair, h.2⟩

end Beldex.NodeList
