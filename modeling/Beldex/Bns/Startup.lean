import Beldex.Bns.Reorg

/-!
# Starting the name system again

The name system remembers the height and the hash of the last block it processed.  It
saves them when it is closed, and at the next start compares them with the chain.  A
new block sets both; a detach moves the height and leaves the hash.
-/

namespace Beldex.Bns

open Crypto List

variable {env : NameEnvironment} {db : NameSystemDb}

/-! ## Closing and opening -/

def NameSystemDb.close (db : NameSystemDb) : Tables :=
  db.tables.saveSettings db.lastProcessedHeight db.lastProcessedHash dbVersion

/-- The ways through `init`, the first for a database without settings. -/
inductive Startup where
  | unsettled
  | resumed
  | rolledBack
  | rebuilt

/-- A block of the chain, or one of another branch, which is said to be an orphan. -/
def getBlockByHash (chain alternatives : List NameBlock) (hash : Hash) :
    Option (NameBlock × Bool) :=
  match chain.find? fun block => block.hash = hash with
  | some block => some (block, false)
  | none => (alternatives.find? fun block => block.hash = hash).map fun block => (block, true)

/-- Open a database of the current version over a chain, newest block first. -/
def NameSystemDb.init (chain alternatives : List NameBlock) (tables : Tables) :
    Startup × NameSystemDb :=
  let opened := { NameSystemDb.fresh with tables := tables }
  match tables.settings with
  | none => (.unsettled, opened)
  | some settings =>
    let chainHeight := chain.length - 1
    let chainHash := chain.head?.elim nullHash NameBlock.hash
    let matched := (getBlockByHash chain alternatives settings.topHash).any fun found =>
      settings.topHeight == found.1.height && !found.2
    let bnsHeight := if matched then settings.topHeight else chainHeight
    let bnsHash := if matched then settings.topHash else chainHash
    if settings.topHeight = bnsHeight ∧ settings.topHash = bnsHash then
      (.resumed,
        { opened with
          lastProcessedHeight := settings.topHeight
          lastProcessedHash := settings.topHash })
    else if chainHeight < settings.topHeight then
      let pruned := opened.pruneDb (chainHeight + 1)
      (.rolledBack,
        { pruned with
          tables := pruned.tables.saveSettings chainHeight chainHash dbVersion
          lastProcessedHeight := chainHeight
          lastProcessedHash := chainHash })
    else
      (.rebuilt, NameSystemDb.fresh)

/-! ## Following a chain -/

/-- A name system that is told of the blocks of a chain as they come and go, starting with
the first one.  The flag says whether the last call that moved the chain added a block. -/
inductive Follows (env : NameEnvironment) (known : NameBlock -> Prop) :
    List NameBlock -> NameSystemDb -> Bool -> Prop where
  | genesis {block : NameBlock} : known block -> block.height = 0 ->
      Follows env known [block] (NameSystemDb.fresh.addBlock env block).2 false
  | addBlock {chain : List NameBlock} {db db' : NameSystemDb} {added : Bool} {block : NameBlock} :
      Follows env known chain db added -> known block -> block.height = chain.length ->
      db.addBlock env block = (true, db') -> Follows env known (block :: chain) db' true
  | blockDetach {chain : List NameBlock} {db : NameSystemDb} {added : Bool} {height : Nat} :
      Follows env known chain db added -> 0 < height -> height <= chain.length ->
      Follows env known (chain.drop (chain.length - height)) (db.blockDetach height)
        (added && height == chain.length)

/-- The hashes of blocks of two heights differ, and no block has the null hash. -/
structure HashedApart (known : NameBlock -> Prop) : Prop where
  height_eq : forall {block other}, known block -> known other -> block.hash = other.hash ->
    block.height = other.height
  hash_ne : forall {block}, known block -> block.hash ≠ nullHash

def Stacked (known : NameBlock -> Prop) (chain : List NameBlock) : Prop :=
  forall block below, block :: below <:+ chain -> known block ∧ block.height = below.length

variable {known : NameBlock -> Prop} {chain : List NameBlock} {added : Bool} {block : NameBlock}

theorem Stacked.cons (h : Stacked known chain) (hknown : known block)
    (hheight : block.height = chain.length) : Stacked known (block :: chain) := by
  intro other below hsuffix
  rcases suffix_cons_iff.mp hsuffix with heq | hsuffix
  · cases heq
    exact ⟨hknown, hheight⟩
  · exact h other below hsuffix

theorem Stacked.of_mem (h : Stacked known chain) (hmem : block ∈ chain) :
    known block ∧ block.height < chain.length := by
  rcases append_of_mem hmem with ⟨above, below, rfl⟩
  rcases h block below (suffix_append above _) with ⟨hknown, hheight⟩
  refine ⟨hknown, ?_⟩
  rw [length_append, length_cons]
  omega

/-- The height is always that of the newest block.  The hash is its hash, or that of a
block that is off the chain. -/
structure Marked (known : NameBlock -> Prop) (chain : List NameBlock) (db : NameSystemDb)
    (added : Bool) : Prop where
  stacked : Stacked known chain
  height_eq : db.lastProcessedHeight + 1 = chain.length
  current : added = true -> chain.head?.map NameBlock.hash = some db.lastProcessedHash
  stale : added = false -> db.lastProcessedHash = nullHash ∨ exists popped, known popped ∧
    popped.hash = db.lastProcessedHash ∧ chain.length <= popped.height

theorem Follows.marked (h : Follows env known chain db added) : Marked known chain db added := by
  induction h with
  | @genesis block hknown hheight =>
    have hfresh : (NameSystemDb.fresh.addBlock env block).2 = NameSystemDb.fresh := by
      rcases addBlock_cases env NameSystemDb.fresh block with ⟨_, heq⟩ | heq | ⟨hnew, _⟩
      · rw [heq]
      · rw [heq]
      · exact absurd hnew (not_lt.mpr (le_of_eq hheight))
    have hstacked : Stacked known [] := by
      intro other below hsuffix
      cases suffix_nil.mp hsuffix
    rw [hfresh]
    exact ⟨hstacked.cons hknown hheight, rfl, nofun, fun _ => Or.inl rfl⟩
  | @addBlock chain db db' added block _ hknown hheight hadd ih =>
    have hlast := ih.height_eq
    rcases addBlock_cases env db block with ⟨hold, _⟩ | heq | ⟨_, _, _, _, _, _, _, heq⟩
    · omega
    · cases heq.symm.trans hadd
    · cases heq.symm.trans hadd
      refine ⟨ih.stacked.cons hknown hheight, ?_, fun _ => rfl, nofun⟩
      rw [hheight, length_cons]
  | @blockDetach chain db added height _ hpos hle ih =>
    have hlen : (chain.drop (chain.length - height)).length = height := by
      rw [length_drop]
      omega
    refine ⟨?_, ?_, ?_, ?_⟩
    · intro block below hsuffix
      exact ih.stacked block below (hsuffix.trans (drop_suffix _ _))
    · change (if height = 0 then 2 ^ 64 - 1 else height - 1) + 1 = _
      rw [if_neg (Nat.ne_of_gt hpos), hlen]
      omega
    · intro hadded
      rw [Bool.and_eq_true, beq_iff_eq] at hadded
      rw [hadded.2, Nat.sub_self, drop_zero]
      exact ih.current hadded.1
    · intro hadded
      cases added with
      | false =>
        refine (ih.stale rfl).imp_right ?_
        rintro ⟨popped, hknown, hhash, hbeyond⟩
        exact ⟨popped, hknown, hhash, by omega⟩
      | true =>
        rw [Bool.true_and, beq_eq_false_iff_ne] at hadded
        rcases Option.map_eq_some_iff.mp (ih.current rfl) with ⟨tip, htip, hhash⟩
        rcases head?_eq_some_iff.mp htip with ⟨below, rfl⟩
        rcases ih.stacked tip below (suffix_refl _) with ⟨hknown, hheight⟩
        rw [length_cons] at hle hadded
        exact Or.inr ⟨tip, hknown, hhash, by omega⟩

/-! ## The next start -/

def OnChain (chain : List NameBlock) (db : NameSystemDb) : Prop :=
  exists block, block ∈ chain ∧ block.height = db.lastProcessedHeight ∧
    block.hash = db.lastProcessedHash

theorem Marked.hash_ne (h : Marked known chain db false) (hapart : HashedApart known)
    (hmem : block ∈ chain) : block.hash ≠ db.lastProcessedHash := by
  rcases h.stacked.of_mem hmem with ⟨hknown, hbelow⟩
  rcases h.stale rfl with hnull | ⟨popped, hpopped, hhash, hbeyond⟩
  · rw [hnull]
    exact hapart.hash_ne hknown
  · intro heq
    have hheight := hapart.height_eq hknown hpopped (heq.trans hhash.symm)
    omega

theorem Marked.resumed (h : Marked known chain db true) (alternatives : List NameBlock) :
    (NameSystemDb.init chain alternatives db.close).1 = .resumed := by
  have hheight : db.lastProcessedHeight = chain.length - 1 := by
    have := h.height_eq
    omega
  have hhash : db.lastProcessedHash = chain.head?.elim nullHash NameBlock.hash := by
    rcases Option.map_eq_some_iff.mp (h.current rfl) with ⟨tip, htip, hhash⟩
    rw [htip]
    exact hhash.symm
  unfold NameSystemDb.init
  dsimp only [NameSystemDb.close, Tables.saveSettings]
  rw [if_pos]
  constructor
  · split
    · rfl
    · exact hheight
  · split
    · rfl
    · exact hhash

theorem Marked.rebuilt (h : Marked known chain db false) (hapart : HashedApart known)
    (alternatives : List NameBlock) :
    (NameSystemDb.init chain alternatives db.close).1 = .rebuilt := by
  have hlast := h.height_eq
  have hnone : chain.find? (fun block => block.hash = db.lastProcessedHash) = none := by
    rw [find?_eq_none]
    intro block hmem
    rw [decide_eq_true_iff]
    exact h.hash_ne hapart hmem
  have horphan : (getBlockByHash chain alternatives db.lastProcessedHash).any
      (fun found => db.lastProcessedHeight == found.1.height && !found.2) = false := by
    unfold getBlockByHash
    rw [hnone]
    cases alternatives.find? fun block => block.hash = db.lastProcessedHash with
    | none => rfl
    | some block => exact Bool.and_false _
  unfold NameSystemDb.init
  dsimp only [NameSystemDb.close, Tables.saveSettings]
  rw [horphan, if_neg, if_neg]
  · omega
  · rintro ⟨_, hhash⟩
    cases chain with
    | nil => cases hlast
    | cons tip below => exact h.hash_ne hapart mem_cons_self hhash.symm

/-- The marker is on the chain, and the name system is not built anew after it was
closed, exactly if the last call that moved the chain was a block being added. -/
theorem marker_onChain_iff (hapart : HashedApart known) (h : Follows env known chain db added) :
    (OnChain chain db <-> added = true) ∧ forall alternatives,
      (NameSystemDb.init chain alternatives db.close).1 = .rebuilt <-> added = false := by
  have hmarked := h.marked
  cases added with
  | false =>
    refine ⟨iff_of_false ?_ Bool.false_ne_true, ?_⟩
    · rintro ⟨block, hmem, _, hhash⟩
      exact hmarked.hash_ne hapart hmem hhash
    · intro alternatives
      exact iff_of_true (hmarked.rebuilt hapart alternatives) rfl
  | true =>
    refine ⟨iff_of_true ?_ rfl, ?_⟩
    · rcases Option.map_eq_some_iff.mp (hmarked.current rfl) with ⟨tip, htip, hhash⟩
      rcases head?_eq_some_iff.mp htip with ⟨below, rfl⟩
      have hlast := hmarked.height_eq
      have hheight := (hmarked.stacked tip below (suffix_refl _)).2
      rw [length_cons] at hlast
      exact ⟨tip, mem_cons_self, by omega, hhash⟩
    · intro alternatives
      refine iff_of_false ?_ (Ne.symm Bool.false_ne_true)
      rw [hmarked.resumed alternatives]
      nofun

def genesisBlock : NameBlock where
  majorVersion := .hf7
  height := 0
  hash := ⟨3⟩
  txs := []

def sampleBlocks : List NameBlock :=
  [genesisBlock, purchaseBlock, saleBlock]

theorem sampleBlocks_apart : HashedApart (· ∈ sampleBlocks) where
  height_eq := fun {block other} hblock hother =>
    (by decide : forall block, block ∈ sampleBlocks -> forall other, other ∈ sampleBlocks ->
      block.hash = other.hash -> block.height = other.height) block hblock other hother
  hash_ne := fun {block} hblock =>
    (by decide : forall block, block ∈ sampleBlocks -> block.hash ≠ nullHash) block hblock

section Samples

set_option maxRecDepth 4000

theorem follows_boughtName : Follows trustingEnvironment (· ∈ sampleBlocks)
    [purchaseBlock, genesisBlock] boughtName true :=
  .addBlock (.genesis mem_cons_self rfl) (mem_cons_of_mem _ mem_cons_self) rfl rfl

theorem marker_onChain_boughtName : OnChain [purchaseBlock, genesisBlock] boughtName :=
  (marker_onChain_iff sampleBlocks_apart follows_boughtName).1.mpr rfl

/-- A name was bought and handed over, and the second block was taken back. -/
theorem detachedSale_rebuilt : exists db, Follows trustingEnvironment (· ∈ sampleBlocks)
      [purchaseBlock, genesisBlock] db false ∧ db.tables.mappings.rows.length = 1 ∧
    db.lastProcessedHeight = 1 ∧ db.lastProcessedHash = saleBlock.hash ∧
    NameSystemDb.init [purchaseBlock, genesisBlock] [] db.close = (.rebuilt, .fresh) := by
  have hsold : Follows trustingEnvironment (· ∈ sampleBlocks)
      [saleBlock, purchaseBlock, genesisBlock] (boughtName.addBlock trustingEnvironment saleBlock).2
      true :=
    .addBlock follows_boughtName (mem_cons_of_mem _ (mem_cons_of_mem _ mem_cons_self)) rfl rfl
  exact ⟨_, hsold.blockDetach (by decide : 0 < 2) (by decide), rfl, rfl, rfl, rfl⟩

end Samples

end Beldex.Bns
