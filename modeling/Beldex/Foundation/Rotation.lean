import Mathlib

/-!
# Rotating queues

Members wait in the order of their ranks.  When the first one gets a rank behind all
others, the queue rotates.
-/

namespace Beldex.Foundation

open List

variable {κ R : Type} [LinearOrder R] {rank rank' : κ -> R} {first : κ} {rest leaders : List κ}

structure IsQueue (rank : κ -> R) (member : κ -> Prop) (queue : List κ) : Prop where
  mem_iff : forall k, k ∈ queue <-> member k
  sorted : queue.Pairwise fun a b => rank a < rank b

theorem exists_isQueue {l : List κ} (hl : l.Nodup) (hrank : Function.Injective rank) :
    exists queue, queue.Perm l ∧ IsQueue rank (· ∈ l) queue := by
  have hperm := mergeSort_perm l fun a b => decide (rank a <= rank b)
  refine ⟨_, hperm, fun _ => hperm.mem_iff, ?_⟩
  have hle : (l.mergeSort fun a b => decide (rank a <= rank b)).Pairwise
      fun a b => decide (rank a <= rank b) :=
    pairwise_mergeSort (fun a b c => by simpa using le_trans)
      (fun a b => by simpa using le_total _ _) l
  refine hle.imp₂ (fun a b hab hne => ?_) (hperm.nodup_iff.mpr hl)
  exact lt_of_le_of_ne (of_decide_eq_true hab) fun heq => hne (hrank heq)

theorem IsQueue.rotate {member : κ -> Prop} (h : IsQueue rank member (first :: rest))
    (hfirst : forall k, k ∈ rest -> rank' k < rank' first)
    (hrest : forall k, k ∈ rest -> rank' k = rank k) : IsQueue rank' member (rest ++ [first]) where
  mem_iff := fun k => by
    rw [<- h.mem_iff, mem_append, mem_singleton, mem_cons, or_comm]
  sorted := by
    refine pairwise_append.mpr ⟨?_, pairwise_singleton _ _, fun a ha b hb => ?_⟩
    · refine (pairwise_cons.mp h.sorted).2.imp_of_mem fun ha hb hab => ?_
      rw [hrest _ ha, hrest _ hb]
      exact hab
    · rw [mem_singleton.mp hb]
      exact hfirst a ha

def InTurn (queue leaders : List κ) : Prop :=
  forall i, i < leaders.length -> leaders[i]? = queue[i % queue.length]?

theorem InTurn.cons (h : InTurn (rest ++ [first]) leaders) :
    InTurn (first :: rest) (first :: leaders) := by
  intro i hi
  cases i with
  | zero => simp
  | succ i =>
    have hrotate : rest ++ [first] = (first :: rest).rotate 1 := by simp
    have hlt : i % (first :: rest).length < (first :: rest).length := Nat.mod_lt _ (by simp)
    have hturn := h i (Nat.lt_of_succ_lt_succ hi)
    rw [hrotate, length_rotate, getElem?_rotate hlt, Nat.mod_add_mod] at hturn
    exact hturn

theorem InTurn.rotates {queue : List κ} (h : InTurn queue leaders) (hqueue : queue.Nodup) :
    (forall i, i + queue.length <= leaders.length -> ((leaders.drop i).take queue.length).Nodup) ∧
    forall i, i + queue.length < leaders.length -> leaders[i + queue.length]? = leaders[i]? := by
  refine ⟨fun i hi => ?_, fun i hi => ?_⟩
  · have hturn : (leaders.drop i).take queue.length = queue.rotate i := by
      refine ext_getElem? fun j => ?_
      by_cases hj : j < queue.length
      · rw [getElem?_take_of_lt hj, getElem?_drop, getElem?_rotate hj,
          h (i + j) (by omega), add_comm i j]
      · rw [getElem?_eq_none (by rw [length_take]; omega),
          getElem?_eq_none (by rw [length_rotate]; omega)]
    rw [hturn]
    exact nodup_rotate.mpr hqueue
  · rw [h _ hi, h i (by omega), Nat.add_mod_right]

end Beldex.Foundation
