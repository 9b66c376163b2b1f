import Beldex.Foundation.Shuffle
import Beldex.NodeList.BlockSteps

/-!
# The quorum of a proof of stake round

The producer of a block is the leader or, after the first round, a drawn node.  The
validators are drawn from the half of the other nodes that has waited longest.
-/

namespace Beldex.NodeList

open Basic Crypto Foundation Staking List Prod

variable {ρ : Type}

abbrev PubkeyAndMninfo := PublicKey × MasterNode

structure QuorumRng (ρ : Type) extends Draws ρ where
  quorumRng : Hf -> Hash -> QuorumType -> ρ

def posQuorumSize : Nat := posQuorumNumValidators + 1

def posMinMasterNodes (nettype : NetworkType) : Nat :=
  if nettype = .mainnet then 50 else posQuorumSize

def PosSortKey.before (a b : PosSortKey) : Bool :=
  decide (a.lastHeightValidatingInQuorum < b.lastHeightValidatingInQuorum ∨
    a.lastHeightValidatingInQuorum = b.lastHeightValidatingInQuorum ∧ a.quorumIndex < b.quorumIndex)

/-- The nodes that have not validated for the longest time come first. -/
def waitsLonger (a b : PubkeyAndMninfo) : Bool :=
  if a.2.posSorter = b.2.posSorter then decide (keyRank a.1 <= keyRank b.1)
  else PosSortKey.before a.2.posSorter b.2.posSorter

def posCandidates (blockLeader : PublicKey) (active : List PubkeyAndMninfo)
    (posRound : UInt8) : List PubkeyAndMninfo :=
  (active.filter fun node => node.1 != blockLeader || decide (0 < posRound)).mergeSort waitsLonger

def blockProducer (R : QuorumRng ρ) (blockLeader : PublicKey) (hf : Hf) (posEntropy : List Hash)
    (posRound : UInt8) (candidates : List PubkeyAndMninfo) :
    Option (PublicKey × List PubkeyAndMninfo) :=
  if posRound = 0 then
    some (blockLeader, candidates)
  else do
    let entropy <- posEntropy[0]?
    let (producerIndex, _) <- R.draw (R.quorumRng hf entropy .pos) candidates.length
    let producer <- candidates[producerIndex]?
    some (producer.1, candidates.eraseIdx producerIndex)

def chooseValidator (R : QuorumRng ρ) (hf : Hf) (posEntropy : List Hash) (partitionIndex : Nat)
    (candidates : List PubkeyAndMninfo) (i : Nat) : Option (List PubkeyAndMninfo) := do
  let entropy <- posEntropy[i + 1]?
  let (swapIndex, _) <- R.draw (R.quorumRng hf entropy .pos)
    (min partitionIndex (candidates.length - i))
  swap? candidates i (i + swapIndex)

def chooseValidators (R : QuorumRng ρ) (hf : Hf) (posEntropy : List Hash)
    (candidates : List PubkeyAndMninfo) : Option (List PubkeyAndMninfo) :=
  let partitionIndex := (candidates.length - 1) / 2
  if partitionIndex = 0 then
    some candidates
  else
    (range posQuorumNumValidators).foldlM (chooseValidator R hf posEntropy partitionIndex)
      candidates

/-- The quorum of a round.  There is none when a position is outside of a list. -/
def generatePosQuorum (R : QuorumRng ρ) (nettype : NetworkType) (blockLeader : PublicKey) (hf : Hf)
    (active : List PubkeyAndMninfo) (posEntropy : List Hash) (posRound : UInt8) : Option Quorum :=
  if active.length < posMinMasterNodes nettype then
    some ⟨[], []⟩
  else if posEntropy.length ≠ posQuorumSize then
    some ⟨[], []⟩
  else do
    let (producer, candidates) <- blockProducer R blockLeader hf posEntropy posRound
      (posCandidates blockLeader active posRound)
    let candidates <- chooseValidators R hf posEntropy candidates
    if candidates.length < posQuorumNumValidators then none
    else some ⟨(candidates.take posQuorumNumValidators).map fst, [producer]⟩

section Quorum

variable (R : QuorumRng ρ) (hf : Hf) {active candidates : List PubkeyAndMninfo}
  {posEntropy : List Hash}

theorem posQuorumSize_le (nettype : NetworkType) : posQuorumSize <= posMinMasterNodes nettype := by
  cases nettype <;> decide

structure Beside (active : List PubkeyAndMninfo) (producer : PublicKey)
    (candidates : List PubkeyAndMninfo) : Prop where
  enough : posQuorumNumValidators <= candidates.length
  distinct : (candidates.map fst).Nodup
  drawn : forall key, key ∈ candidates.map fst -> key ∈ active.map fst ∧ key ≠ producer

theorem Beside.perm {producer : PublicKey} {l : List PubkeyAndMninfo}
    (h : Beside active producer candidates) (hperm : l.Perm candidates) :
    Beside active producer l where
  enough := hperm.length_eq ▸ h.enough
  distinct := (hperm.map fst).nodup_iff.mpr h.distinct
  drawn := fun key hkey => h.drawn key ((hperm.map fst).mem_iff.mp hkey)

theorem length_filter_ne_leader (hkeys : (active.map fst).Nodup) (leader : PublicKey) :
    active.length <= (active.filter fun node => node.1 != leader).length + 1 := by
  induction active with
  | nil => exact Nat.zero_le _
  | cons node rest ih =>
    rw [map_cons, nodup_cons] at hkeys
    by_cases hleader : node.1 = leader
    · have hrest : rest.filter (fun node => node.1 != leader) = rest := by
        refine filter_eq_self.mpr fun other hother => bne_iff_ne.mpr fun heq => hkeys.1 ?_
        rw [hleader, <- heq]
        exact mem_map_of_mem hother
      rw [filter_cons_of_neg (by simp [hleader]), hrest]
      exact le_refl _
    · rw [filter_cons_of_pos (by simp [hleader])]
      exact Nat.succ_le_succ (ih hkeys.2)

theorem blockProducer_beside (blockLeader : PublicKey) (posRound : UInt8)
    (hkeys : (active.map fst).Nodup)
    (henough : posQuorumSize <= active.length) (hentropy : posEntropy.length = posQuorumSize) :
    exists producer candidates, blockProducer R blockLeader hf posEntropy posRound
        (posCandidates blockLeader active posRound) = some (producer, candidates) ∧
      Beside active producer candidates ∧ (posRound = 0 -> producer = blockLeader) ∧
      (posRound ≠ 0 -> producer ∈ active.map fst) := by
  have hsize : posQuorumSize = posQuorumNumValidators + 1 := rfl
  have hperm : (posCandidates blockLeader active posRound).Perm _ := mergeSort_perm _ _
  by_cases hround : posRound = 0
  · -- the leader is filtered from the candidates
    subst hround
    have hfilter : (active.filter fun node => node.1 != blockLeader || decide ((0 : UInt8) < 0)) =
        active.filter fun node => node.1 != blockLeader :=
      filter_congr fun node _ => Bool.or_false _
    rw [hfilter] at hperm
    have hlen := length_filter_ne_leader hkeys blockLeader
    refine ⟨blockLeader, _, rfl, Beside.perm ⟨by omega, ?_, ?_⟩ hperm, fun _ => rfl,
      fun h => absurd rfl h⟩
    · exact hkeys.sublist (filter_sublist.map fst)
    · intro key hkey
      rcases mem_map.mp hkey with ⟨node, hnode, rfl⟩
      rcases mem_filter.mp hnode with ⟨hmem, hne⟩
      exact ⟨mem_map_of_mem hmem, bne_iff_ne.mp hne⟩
  · -- the producer is drawn from all nodes and erased
    have hall : (active.filter fun node => node.1 != blockLeader || decide (0 < posRound)) =
        active := by
      have hpos : 0 < posRound := UInt8.pos_iff_ne_zero.mpr hround
      refine filter_eq_self.mpr fun node _ => ?_
      rw [decide_eq_true hpos, Bool.or_true]
    rw [hall] at hperm
    generalize posCandidates blockLeader active posRound = all at hperm
    have hlen := hperm.length_eq
    have hfirst : 0 < posEntropy.length := by omega
    rcases R.draw_lt (R.quorumRng hf posEntropy[0] .pos) (n := all.length) (by omega) with
      ⟨k, next, hdraw, hk⟩
    have hnodup : (all.map fst).Nodup := (hperm.map fst).nodup_iff.mpr hkeys
    refine ⟨all[k].1, all.eraseIdx k, ?_, ⟨?_, ?_, ?_⟩, fun h => absurd h hround, fun _ => ?_⟩
    · unfold blockProducer
      rw [if_neg hround, getElem?_eq_getElem hfirst]
      simp [hdraw, hk]
    · rw [length_eraseIdx_of_lt hk]
      omega
    · exact hnodup.sublist ((eraseIdx_sublist all k).map fst)
    · intro key hkey
      refine ⟨(hperm.map fst).mem_iff.mp
        (((eraseIdx_sublist all k).map fst).subset hkey), fun heq => ?_⟩
      have hmap : (all.eraseIdx k).map fst = (all.map fst).eraseIdx k :=
        (eraseIdx_map ..).symm
      rw [hmap, heq] at hkey
      have hk' : k < (all.map fst).length := by rwa [length_map]
      rw [<- getElem_map fst (h := hk'), <- hnodup.erase_getElem k hk'] at hkey
      exact hnodup.not_mem_erase hkey
    · exact (hperm.map fst).mem_iff.mp (mem_map_of_mem (getElem_mem hk))

theorem chooseValidators_perm (henough : posQuorumNumValidators <= candidates.length)
    (hentropy : posEntropy.length = posQuorumSize) :
    exists l, chooseValidators R hf posEntropy candidates = some l ∧ l.Perm candidates := by
  have hsize : posQuorumSize = posQuorumNumValidators + 1 := rfl
  unfold chooseValidators
  simp only
  split
  · exact ⟨candidates, rfl, List.Perm.refl _⟩
  next hpartition =>
    refine foldlM_keeps (fun l i hi hl => ?_) (List.Perm.refl candidates)
    -- a position of the loop leaves at least one candidate behind it
    have hlt := mem_range.mp hi
    have hlen := hl.length_eq
    have hent : i + 1 < posEntropy.length := by omega
    rcases R.draw_lt (R.quorumRng hf posEntropy[i + 1] .pos)
      (n := min ((candidates.length - 1) / 2) (l.length - i)) (by omega) with ⟨k, next, hdraw, hk⟩
    rcases swap?_spec (l := l) (i := i) (j := i + k) (by omega) (by omega) with ⟨l', hl', hperm, -⟩
    refine ⟨l', ?_, hperm.trans hl⟩
    unfold chooseValidator
    rw [getElem?_eq_getElem hent]
    simp [hdraw, hl']

theorem generatePosQuorum_wellFormed (R : QuorumRng ρ) (nettype : NetworkType)
    (blockLeader : PublicKey) (hf : Hf) (active : List PubkeyAndMninfo)
    (posEntropy : List Hash) (posRound : UInt8) (hkeys : (active.map fst).Nodup) :
    exists quorum,
      generatePosQuorum R nettype blockLeader hf active posEntropy posRound = some quorum ∧
      ((active.length < posMinMasterNodes nettype ∨ posEntropy.length ≠ posQuorumSize) ∧
          quorum = ⟨[], []⟩ ∨
        (posMinMasterNodes nettype <= active.length ∧ posEntropy.length = posQuorumSize) ∧
          exists worker, quorum.workers = [worker] ∧
            quorum.validators.length = posQuorumNumValidators ∧ quorum.validators.Nodup ∧
            (forall key, key ∈ quorum.validators -> key ∈ active.map fst ∧ key ≠ worker) ∧
            (posRound = 0 -> worker = blockLeader) ∧
            (posRound ≠ 0 -> worker ∈ active.map fst)) := by
  unfold generatePosQuorum
  split
  next hfew =>
    exact ⟨_, rfl, .inl ⟨.inl hfew, rfl⟩⟩
  next hmany =>
    split
    next hentropy =>
      exact ⟨_, rfl, .inl ⟨.inr hentropy, rfl⟩⟩
    next hentropy =>
      have hentropy := not_not.mp hentropy
      have hmin := posQuorumSize_le nettype
      rcases blockProducer_beside R hf blockLeader posRound hkeys
        (by omega) hentropy with ⟨worker, candidates, hprod, hbeside, hfirst, hlater⟩
      rcases chooseValidators_perm R hf hbeside.enough hentropy with ⟨l, hl, hperm⟩
      have hchosen := hbeside.perm hperm
      refine ⟨⟨(l.take posQuorumNumValidators).map fst, [worker]⟩, ?_,
        .inr ⟨⟨le_of_not_gt hmany, hentropy⟩, worker, rfl, ?_, ?_, ?_, hfirst, hlater⟩⟩
      · simp [hprod, hl, hchosen.enough]
      · rw [length_map, length_take, Nat.min_eq_left hchosen.enough]
      · exact hchosen.distinct.sublist ((take_sublist _ _).map fst)
      · exact fun key hkey => hchosen.drawn key (((take_sublist _ _).map fst).subset hkey)

end Quorum

def zeroRng : QuorumRng Unit where
  uniformDistributionPortable := fun rng _ => (0, rng)
  uniform_lt := fun _ _ h => h
  quorumRng := fun _ _ _ => ()

def twelveNodes : List PubkeyAndMninfo :=
  (range 12).map fun i => (⟨BitVec.ofNat 256 i⟩, openNode)

theorem generatePosQuorum_wellFormed_twelve :
    (twelveNodes.map fst).Nodup ∧ exists quorum,
      generatePosQuorum zeroRng .testnet ⟨3⟩ .hf17POS twelveNodes (replicate 12 nullHash) 0 =
        some quorum ∧ quorum.workers = [⟨3⟩] ∧ quorum.validators.Nodup := by
  have hkeys : (twelveNodes.map fst).Nodup := by decide
  rcases generatePosQuorum_wellFormed zeroRng .testnet ⟨3⟩ .hf17POS twelveNodes
    (replicate 12 nullHash) 0 hkeys with ⟨quorum, hquor, hempty | hfull⟩
  · exact absurd hempty.1 (by decide)
  · rcases hfull.2 with ⟨worker, hworkers, _, hnodup, _, hleader, _⟩
    exact ⟨hkeys, quorum, hquor, by rw [hworkers, hleader rfl], hnodup⟩

end Beldex.NodeList
