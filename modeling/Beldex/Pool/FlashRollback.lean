import Mathlib.Data.Finset.Basic
import Beldex.Crypto.Types
import Beldex.Foundation.Table

/-!
# Rollbacks for approved flashes

An approved flash ejects the transactions that spend its key images: from the pool, or
from the chain by a rollback.  Two functions keep the height of the rollback in one
variable, zero if there is none, and a cache answers the second of them.
-/

namespace Beldex.Pool

open Crypto Foundation List

/-- A rollback to `new` removes the blocks at the heights that are not zero, if there are any;
otherwise `old` is kept. -/
def Reports (heights : List Nat) (old new : Nat) : Prop :=
  (forall height, height ∈ heights -> height ≠ 0 -> new ≠ 0 ∧ new <= height) ∧
    ((forall height, height ∈ heights -> height = 0) -> new = old)

/-! ## Conflicting transactions -/

section

/-- The chain and the pool of an incoming flash.  Only transactions that are not mined have
the height zero. -/
structure FlashOracles (π : Type) where
  isFlash : Hash -> Bool
  immutableHeight : Nat
  transactionHeight : Hash -> Nat
  removeTx : π -> Hash -> Option π

variable {π : Type} (O : FlashOracles π)

def rollbackHeightNeeded (pointer : Bool) (needed : Nat) : List Hash -> Option Nat
  | [] => some needed
  | tx :: rest =>
    let height := O.transactionHeight tx
    if height = 0 then
      rollbackHeightNeeded pointer needed rest
    else if O.immutableHeight < height ∧ pointer = true then
      rollbackHeightNeeded pointer (if needed = 0 ∨ height < needed then height else needed) rest
    else
      none

def removeFlashConflicts (conflictTxs : List Hash) (flashRollbackHeight : Option Nat) (pool : π) :
    Option (π × Option Nat) :=
  if conflictTxs.any O.isFlash then none
  else do
    let needed <- rollbackHeightNeeded O flashRollbackHeight.isSome (flashRollbackHeight.getD 0)
      conflictTxs
    let pool <- (conflictTxs.filter fun tx => O.transactionHeight tx = 0).foldlM O.removeTx pool
    some (pool, flashRollbackHeight.map fun height => if needed < height then needed else height)

variable {O} {conflictTxs : List Hash} {old new : Nat}

theorem rollbackHeightNeeded_spec (h : rollbackHeightNeeded O true old conflictTxs = some new) :
    Reports (conflictTxs.map O.transactionHeight) old new ∧ (old ≠ 0 -> new ≠ 0 ∧ new <= old) := by
  induction conflictTxs generalizing old with
  | nil =>
    cases h
    exact ⟨⟨fun _ hin => absurd hin not_mem_nil, fun _ => rfl⟩, fun hold => ⟨hold, le_refl _⟩⟩
  | cons tx rest ih =>
    unfold rollbackHeightNeeded at h
    dsimp only at h
    split at h
    next hzero =>
      rcases ih h with ⟨⟨hbelow, hsame⟩, hold⟩
      refine ⟨⟨forall_mem_cons.mpr ⟨fun hne => absurd hzero hne, hbelow⟩, fun hall => ?_⟩, hold⟩
      exact hsame fun height hin => hall height (mem_cons_of_mem _ hin)
    next hmined =>
      split at h
      · rcases ih h with ⟨⟨hbelow, _⟩, hnew⟩
        generalize hmid : (if old = 0 ∨ O.transactionHeight tx < old then
          O.transactionHeight tx else old) = mid at hnew
        have hmid' : mid ≠ 0 ∧ mid <= O.transactionHeight tx ∧ (old ≠ 0 -> mid <= old) := by
          split at hmid <;> omega
        rcases hnew hmid'.1 with ⟨hne, hle⟩
        refine ⟨⟨forall_mem_cons.mpr ⟨fun _ => ⟨hne, hle.trans hmid'.2.1⟩, hbelow⟩,
          fun hall => absurd (hall _ mem_cons_self) hmined⟩, fun hold => ⟨hne, ?_⟩⟩
        exact hle.trans (hmid'.2.2 hold)
      · cases h

end

/-! ## Conflicting key images -/

section

structure CheckContext (τ : Type) where
  tvc : τ
  maxUsedBlockHeight : Nat
  maxUsedBlockId : Hash

/-- The chain as the check of inputs sees it between two changes: the key images of the blocks
above the immutable height, the last block first and as far as they can be read, with the
heights of the blocks; and the check of a transaction.  Conflicting key images are collected
if the caller asks for them; a check that finds none does not depend on that. -/
structure InputOracles (Tx τ : Type) where
  immutableHeight : Nat
  height : Nat
  spentImages : Option (List (Nat × KeyImage))
  checkTxInputs : Tx -> CheckContext τ -> Bool -> Bool -> (Bool × CheckContext τ) × Finset KeyImage
  checkTxInputs_eq : forall tx context kept, (checkTxInputs tx context kept true).2 = ∅ ->
    checkTxInputs tx context kept true = checkTxInputs tx context kept false
  setDoubleSpend : τ -> τ

def eraseConflict (scan : Finset KeyImage × Nat) (spent : Nat × KeyImage) : Finset KeyImage × Nat :=
  if spent.2 ∈ scan.1 then (scan.1.erase spent.2, min scan.2 spent.1) else scan

variable {Tx τ : Type} (O : InputOracles Tx τ)

def fixWithRollback (conflicts : Finset KeyImage) (flashRollbackHeight : Nat) : Option Nat :=
  if 100 < O.height - O.immutableHeight then none
  else O.spentImages.bind fun images =>
    let (left, earliest) := images.foldl eraseConflict (conflicts, O.height)
    if left = ∅ ∧ earliest < O.height ∧ O.immutableHeight < earliest then
      some (if flashRollbackHeight = 0 ∨ earliest < flashRollbackHeight then earliest
        else flashRollbackHeight)
    else none

/-- The height of a scan is that of the earliest spent conflict. -/
structure Scanned (images : List (Nat × KeyImage)) (scan result : Finset KeyImage × Nat) :
    Prop where
  le : result.2 <= scan.2
  found : forall image, image ∈ scan.1 -> image ∉ result.1 ->
    exists height, (height, image) ∈ images ∧ result.2 <= height
  attained : result.2 = scan.2 ∨ exists image, (result.2, image) ∈ images ∧ image ∈ scan.1

theorem foldl_eraseConflict (images : List (Nat × KeyImage)) (scan : Finset KeyImage × Nat) :
    Scanned images scan (images.foldl eraseConflict scan) := by
  induction images generalizing scan with
  | nil => exact ⟨le_refl _, fun _ hin hnot => absurd hin hnot, Or.inl rfl⟩
  | cons first rest ih =>
    rw [foldl_cons]
    have hrest := ih (eraseConflict scan first)
    generalize rest.foldl eraseConflict (eraseConflict scan first) = result at hrest ⊢
    unfold eraseConflict at hrest
    split at hrest
    next hspent =>
      have hle : result.2 <= min scan.2 first.1 := hrest.le
      refine ⟨hle.trans (min_le_left _ _), fun image hin hnot => ?_, ?_⟩
      · by_cases hfirst : image = first.2
        · exact ⟨first.1, hfirst ▸ mem_cons_self, hle.trans (min_le_right _ _)⟩
        · rcases hrest.found image (Finset.mem_erase.mpr ⟨hfirst, hin⟩) hnot with
            ⟨height, hmem, hle⟩
          exact ⟨height, mem_cons_of_mem _ hmem, hle⟩
      · rcases hrest.attained with heq | ⟨image, hmem, hin⟩
        · rcases min_choice scan.2 first.1 with hmin | hmin
          · exact Or.inl (heq.trans hmin)
          · exact Or.inr ⟨first.2, heq.trans hmin ▸ mem_cons_self, hspent⟩
        · exact Or.inr ⟨image, mem_cons_of_mem _ hmem, Finset.mem_of_mem_erase hin⟩
    · refine ⟨hrest.le, fun image hin hnot => ?_, ?_⟩
      · rcases hrest.found image hin hnot with ⟨height, hmem, hle⟩
        exact ⟨height, mem_cons_of_mem _ hmem, hle⟩
      · rcases hrest.attained with heq | ⟨image, hmem, hin⟩
        · exact Or.inl heq
        · exact Or.inr ⟨image, mem_cons_of_mem _ hmem, hin⟩

def conflictHeights (images : List (Nat × KeyImage)) (conflicts : Finset KeyImage) : List Nat :=
  (images.filter fun spent => spent.2 ∈ conflicts).map Prod.fst

/-- Whether the two functions report the height of a rollback.  The first one does exactly if
a rollback was asked for before or none is needed; the second one always does, as no key image
is spent in two blocks.  Neither takes back a rollback that was asked for before. -/
theorem flash_rollback_reported {π : Type} (C : FlashOracles π) (O : InputOracles Tx τ)
    {images : List (Nat × KeyImage)} (himages : O.spentImages = some images)
    (honce : forall height height' image, (height, image) ∈ images ->
      (height', image) ∈ images -> height = height') :
    (forall conflictTxs old new pool pool',
      removeFlashConflicts C conflictTxs (some old) pool = some (pool', some new) ->
      (Reports (conflictTxs.map C.transactionHeight) old new <->
        old ≠ 0 ∨ forall height, height ∈ conflictTxs.map C.transactionHeight -> height = 0) ∧
      (old ≠ 0 -> new ≠ 0 ∧ new <= old)) ∧
    (forall conflicts old new, fixWithRollback O conflicts old = some new ->
      Reports (conflictHeights images conflicts) old new ∧ (old ≠ 0 -> new ≠ 0 ∧ new <= old)) := by
  constructor
  · intro conflictTxs old new pool pool' h
    unfold removeFlashConflicts at h
    split at h
    · cases h
    · simp only [Option.bind_eq_bind, Option.bind_eq_some_iff, Option.map_some, Option.some.injEq,
        Prod.mk.injEq] at h
      rcases h with ⟨needed, hneeded, _, _, _, hnew⟩
      have hspec := rollbackHeightNeeded_spec hneeded
      rw [Option.getD_some] at hspec
      rcases hspec with ⟨hreports, hlow⟩
      by_cases hold : old = 0
      · -- nothing is below the mark of no rollback
        have hzero : new = 0 := by
          rw [if_neg (by omega)] at hnew
          omega
        refine ⟨?_, fun hne => absurd hold hne⟩
        constructor
        · intro hnow
          refine Or.inr fun height hin => ?_
          by_contra hne
          exact (hnow.1 height hin hne).1 hzero
        · rintro (hne | hnone)
          · exact absurd hold hne
          · exact ⟨fun height hin hne => absurd (hnone height hin) hne,
              fun _ => hzero.trans hold.symm⟩
      · have hsame : new = needed := by
          have hle := (hlow hold).2
          split at hnew <;> omega
        rw [hsame]
        exact ⟨iff_of_true hreports (Or.inl hold), hlow⟩
  · intro conflicts old new h
    have hscan := foldl_eraseConflict images (conflicts, O.height)
    unfold fixWithRollback at h
    rw [himages, Option.bind_some] at h
    dsimp only at h
    split at h
    · cases h
    split at h
    · rename_i hfixed
      rcases hfixed with ⟨hnone, hearlier, hmutable⟩
      generalize images.foldl eraseConflict (conflicts, O.height) = result at *
      have hmid : new ≠ 0 ∧ new <= result.2 ∧ (old ≠ 0 -> new <= old) := by
        cases h
        split <;> omega
      refine ⟨⟨fun height hin _ => ?_, fun hall => ?_⟩, fun hold => ⟨hmid.1, hmid.2.2 hold⟩⟩
      · rcases mem_map.mp hin with ⟨⟨_, image⟩, hspent, rfl⟩
        rcases mem_filter.mp hspent with ⟨hmem, hconflict⟩
        rcases hscan.found image (of_decide_eq_true hconflict) (by simp [hnone]) with
          ⟨found, hfound, hle⟩
        rw [honce _ found image hmem hfound]
        exact ⟨hmid.1, hmid.2.1.trans hle⟩
      · -- the scan has met a conflict at its height, which is above the immutable one
        rcases hscan.attained with heq | ⟨image, hmem, hin⟩
        · exact absurd heq (Nat.ne_of_lt hearlier)
        · have hzero := hall result.2 (mem_map.mpr
            ⟨_, mem_filter.mpr ⟨hmem, decide_eq_true hin⟩, rfl⟩)
          omega
    · cases h

/-! ## The cache of checked inputs -/

structure InputCheck (Tx τ : Type) where
  tx : Tx
  txid : Hash
  context : CheckContext τ
  keptByBlock : Bool
  flashRollbackHeight : Option Nat

variable (r : InputCheck Tx τ)

def freshCheck : (Bool × CheckContext τ) × Option Nat :=
  let (result, conflicts) :=
    O.checkTxInputs r.tx r.context r.keptByBlock r.flashRollbackHeight.isSome
  match r.flashRollbackHeight with
  | none => (result, none)
  | some height =>
    if result.1 = true ∧ conflicts ≠ ∅ then
      match fixWithRollback O conflicts height with
      | some height' => (result, some height')
      | none =>
        ((false, { result.2 with tvc := O.setDoubleSpend result.2.tvc }), some height)
    else (result, some height)

def checkTxInputs (cache : Table Hash (Bool × CheckContext τ)) :
    ((Bool × CheckContext τ) × Option Nat) × Table Hash (Bool × CheckContext τ) :=
  if r.keptByBlock then (freshCheck O r, cache)
  else match cache.find? r.txid with
    | some result => ((result, r.flashRollbackHeight), cache)
    | none => (freshCheck O r, cache.set r.txid (freshCheck O r).1)

def inputCache (checks : List (InputCheck Tx τ)) : Table Hash (Bool × CheckContext τ) :=
  checks.foldl (fun cache r => (checkTxInputs O r cache).2) Table.empty

/-- The chain spends no key image of a transaction that is checked for a rollback. -/
def Unspent : Prop :=
  r.flashRollbackHeight = none ∨ (O.checkTxInputs r.tx r.context r.keptByBlock true).2 = ∅

theorem mem_inputCache {checks : List (InputCheck Tx τ)} {id : Hash}
    {result : Bool × CheckContext τ} (h : (inputCache O checks).find? id = some result) :
    exists r, r ∈ checks ∧ r.keptByBlock = false ∧ r.txid = id ∧ result = (freshCheck O r).1 := by
  induction checks using reverseRecOn with
  | nil => cases h
  | append_singleton rest last ih =>
    have hrest (h : (inputCache O rest).find? id = some result) :=
      (ih h).imp fun r hr => And.imp_left (mem_append_left [last]) hr
    unfold inputCache checkTxInputs at h
    rw [foldl_append, foldl_cons, foldl_nil] at h
    split at h
    · exact hrest h
    next hkept =>
      split at h
      · exact hrest h
      · rw [Table.find?_set] at h
        split at h
        next hid =>
          cases h
          exact ⟨last, by simp, by simpa using hkept, hid.symm, rfl⟩
        · exact hrest h

variable {O r}

theorem freshCheck_of_unspent (h : Unspent O r) :
    freshCheck O r =
      ((O.checkTxInputs r.tx r.context r.keptByBlock false).1, r.flashRollbackHeight) := by
  unfold freshCheck
  cases hheight : r.flashRollbackHeight with
  | none => rfl
  | some height =>
    have hnone := h.resolve_left (by simp [hheight])
    dsimp only [Option.isSome_some]
    rw [if_neg (fun hboth => hboth.2 hnone)]
    exact congrArg (fun check => (check.1, some height)) (O.checkTxInputs_eq _ _ _ hnone)

/-- Every check of a run is answered as without the cache, if the checks of one transaction
start alike and none of them finds a spent key image for a rollback. -/
theorem inputCache_transparent (O : InputOracles Tx τ) {checks : List (InputCheck Tx τ)}
    (h : checks.Pairwise fun r r' => r.keptByBlock = false -> r'.keptByBlock = false ->
      r.txid = r'.txid -> r.tx = r'.tx ∧ r.context = r'.context ∧ Unspent O r ∧ Unspent O r')
    {before after : List (InputCheck Tx τ)} {r : InputCheck Tx τ}
    (hsplit : checks = before ++ r :: after) :
    (checkTxInputs O r (inputCache O before)).1 = freshCheck O r := by
  subst hsplit
  unfold checkTxInputs
  split
  · rfl
  next hkept =>
    split
    next result hfind =>
      rcases mem_inputCache O hfind with ⟨r', hmem, hkept', hid, rfl⟩
      have hpair := (pairwise_append.mp h).2.2 r' hmem r mem_cons_self hkept'
        (Bool.eq_false_of_not_eq_true hkept) hid
      rcases hpair with ⟨htx, hcontext, hunspent, hunspent'⟩
      rw [freshCheck_of_unspent hunspent, freshCheck_of_unspent hunspent', htx, hcontext, hkept',
        Bool.eq_false_of_not_eq_true hkept]
    · rfl

end

/-! ## A conflict in the last block -/

def minedConflict : FlashOracles Unit where
  isFlash _ := false
  immutableHeight := 3
  transactionHeight _ := 5
  removeTx _ _ := some ()

/-- The conflicting transaction is mined at height five, and no rollback is reported. -/
theorem minedConflict_not_reported :
    removeFlashConflicts minedConflict [⟨1⟩] (some 0) () = some ((), some 0) := by
  decide

/-- Every transaction spends one key image, which the block at height five spends too. -/
def spentImage : InputOracles Unit Bool where
  immutableHeight := 4
  height := 6
  spentImages := some [(5, ⟨1⟩)]
  checkTxInputs _ context _ allowed :=
    if allowed then ((true, context), {⟨1⟩}) else ((false, { context with tvc := true }), ∅)
  checkTxInputs_eq _ _ _ h := absurd h (Finset.singleton_ne_empty _)
  setDoubleSpend _ := true

theorem flash_rollback_reported_spentImage :
    fixWithRollback spentImage {⟨1⟩} 0 = some 5 ∧
      Reports (conflictHeights [(5, ⟨1⟩)] {⟨1⟩}) 0 5 ∧
      removeFlashConflicts minedConflict [⟨1⟩] (some 9) () = some ((), some 5) ∧
      Reports [5] 9 5 := by
  have hboth := flash_rollback_reported minedConflict spentImage rfl (by grind)
  have hfirst : removeFlashConflicts minedConflict [⟨1⟩] (some 9) () = some ((), some 5) := by
    decide
  have hsecond : fixWithRollback spentImage {⟨1⟩} 0 = some 5 := by
    decide
  exact ⟨hsecond, (hboth.2 _ _ _ hsecond).1, hfirst,
    (hboth.1 _ _ _ _ _ hfirst).1.mpr (Or.inl (by decide))⟩

def flashCheck (flashRollbackHeight : Option Nat) : InputCheck Unit Bool where
  tx := ()
  txid := ⟨7⟩
  context := ⟨false, 0, nullHash⟩
  keptByBlock := false
  flashRollbackHeight := flashRollbackHeight

theorem inputCache_transparent_flashCheck :
    (checkTxInputs spentImage (flashCheck none)
      (inputCache spentImage [flashCheck none])).1 = freshCheck spentImage (flashCheck none) :=
  inputCache_transparent spentImage (pairwise_pair.mpr fun _ _ _ =>
    ⟨rfl, rfl, Or.inl rfl, Or.inl rfl⟩) rfl

/-- The second check of a flash does not ask for the rollback, and a check without one accepts
the double spend. -/
theorem flashCheck_twice :
    (checkTxInputs spentImage (flashCheck (some 0)) (inputCache spentImage [])).1.2 = some 5 ∧
    (checkTxInputs spentImage (flashCheck (some 0))
      (inputCache spentImage [flashCheck (some 0)])).1.2 = some 0 ∧
    (freshCheck spentImage (flashCheck none)).1.1 = false ∧
    (checkTxInputs spentImage (flashCheck none)
      (inputCache spentImage [flashCheck (some 0)])).1.1.1 = true := by
  decide +kernel

end Beldex.Pool
