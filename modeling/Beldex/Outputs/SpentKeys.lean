import Beldex.Outputs.Database

/-!
# Spent key images

A key image marks an output as spent, and the table of key images is what keeps
an output from being spent twice.  Over every history of added and popped blocks
the table holds the key images of the transactions on the chain, each once, as
long as no block brings a transaction with an input of an unsupported type.  The
path that the database has for such a transaction takes key images out of the
table that the transaction has not put there.
-/

namespace Beldex.Outputs

open Basic Crypto Foundation Foundation.Fallible List

variable {P : Type}

/-! ## Key images that one transaction adds -/

section

variable {K : OutputConstants P} {db db' : OutputDb P} {tx : Transaction P}

structure AddsKeys (before added after : List KeyImage) : Prop where
  eq : after = before ++ added
  nodup : before.Nodup -> after.Nodup
  fresh : forall k, k ∈ added -> k ∉ before

theorem AddsKeys.nil (before : List KeyImage) : AddsKeys before [] before where
  eq := (append_nil before).symm
  nodup := id
  fresh := fun _ hk => absurd hk not_mem_nil

theorem AddsKeys.cons {before added after : List KeyImage} {k : KeyImage} (hk : k ∉ before)
    (h : AddsKeys (before ++ [k]) added after) : AddsKeys before (k :: added) after where
  eq := by rw [h.eq, append_assoc, singleton_append]
  nodup := by
    intro hbef
    apply h.nodup
    rw [nodup_append]
    refine ⟨hbef, nodup_singleton k, ?_⟩
    intro a ha b hb hab
    rw [mem_singleton.mp hb] at hab
    exact hk (hab ▸ ha)
  fresh := by
    intro k' hk'
    rcases mem_cons.mp hk' with rfl | hk'
    · exact hk
    · intro hmem
      exact h.fresh k' hk' (mem_append_left _ hmem)

variable {vin : List TxIn} {supported : Bool}

theorem addSpentInputs_keys (h : addSpentInputs db vin = .ok (db', supported)) :
    exists added, AddsKeys db.spentKeys added db'.spentKeys ∧
      (forall k, k ∈ added -> k ∈ keyImages vin) ∧ (supported = true -> added = keyImages vin) := by
  induction vin generalizing db with
  | nil =>
    cases h
    exact ⟨[], .nil _, by simp, fun _ => rfl⟩
  | cons txin rest ih =>
    have hkey : forall {kImage : KeyImage} {mid : OutputDb P},
        keyImages (txin :: rest) = kImage :: keyImages rest -> addSpentKey db kImage = .ok mid ->
        addSpentInputs mid rest = .ok (db', supported) ->
        exists added, AddsKeys db.spentKeys added db'.spentKeys ∧
          (forall k, k ∈ added -> k ∈ keyImages (txin :: rest)) ∧
          (supported = true -> added = keyImages (txin :: rest)) := by
      intro kImage mid hcons hadd hrest
      rcases rejectIf_bind_ok.mp hadd with ⟨hnew, hput⟩
      cases hput
      have hfresh : kImage ∉ db.spentKeys := by
        intro hmem
        unfold hasKeyImage at hnew
        rw [contains_iff_mem.mpr hmem] at hnew
        cases hnew
      rcases ih hrest with ⟨added, hadds, hmem, hall⟩
      refine ⟨kImage :: added, hadds.cons hfresh, ?_, ?_⟩
      · intro k hk
        rw [hcons]
        rcases mem_cons.mp hk with rfl | hk
        · exact mem_cons_self
        · exact mem_cons_of_mem _ (hmem k hk)
      · intro hsupp
        rw [hcons, hall hsupp]
    cases txin with
    | gen height => exact ih h
    | toScript | toScripthash =>
      cases h
      exact ⟨[], .nil _, by simp, by simp⟩
    | _ =>
      rcases bind_ok.mp h with ⟨mid, hadd, hrest⟩
      exact hkey rfl hadd hrest

theorem addSpentInputs_supported (h : addSpentInputs db vin = .ok (db', supported)) :
    supported = vin.all fun txin =>
      match txin with
      | .toScript | .toScripthash => false
      | _ => true := by
  induction vin generalizing db with
  | nil =>
    cases h
    rfl
  | cons txin rest ih =>
    cases txin with
    | gen height => exact ih h
    | toScript | toScripthash =>
      cases h
      rfl
    | _ =>
      rcases bind_ok.mp h with ⟨mid, _, hrest⟩
      exact ih hrest

theorem addOutput_spentKeys {out : TxOut P} {unlockTime : UInt64} {commitment : Option P}
    (h : addOutput K db out unlockTime commitment = .ok db') : db'.spentKeys = db.spentKeys := by
  unfold addOutput at h
  cases htarget : out.target with
  | toKey key =>
    simp only [htarget] at h
    rcases rejectIf_bind_ok.mp h with ⟨_, hput⟩
    cases hput
    rfl
  | zyphora zout =>
    simp only [htarget] at h
    cases h
    rfl
  | _ => simp [htarget] at h

theorem addOutputs_spentKeys {i n : Nat} {outs : List (TxOut P)}
    (h : addOutputs K tx db i n outs = .ok db') : db'.spentKeys = db.spentKeys := by
  induction outs generalizing db i n with
  | nil =>
    cases h
    rfl
  | cons out rest ih =>
    rcases bind_ok.mp h with ⟨commitment, _, h⟩
    rcases bind_ok.mp h with ⟨mid, hrow, hrest⟩
    exact (ih hrest).trans (addOutput_spentKeys hrow)

theorem addTransaction_keys (hsupp : hasSupportedInputs tx = true)
    (h : Outputs.addTransaction K db tx = .ok db') :
    AddsKeys db.spentKeys (keyImages tx.vin) db'.spentKeys := by
  rcases bind_ok.mp h with ⟨⟨mid, supported⟩, hins, hrest⟩
  have hflag : supported = true := (addSpentInputs_supported hins).trans hsupp
  rcases addSpentInputs_keys hins with ⟨added, hadds, _, hall⟩
  rw [hflag] at hrest
  rw [addOutputs_spentKeys hrest, <- hall hflag]
  exact hadds

theorem addTransaction_unsupported_keys (hsupp : hasSupportedInputs tx = false)
    (h : Outputs.addTransaction K db tx = .ok db') :
    db'.spentKeys = db.spentKeys.filter fun k => !(keyImages tx.vin).contains k := by
  rcases bind_ok.mp h with ⟨⟨mid, supported⟩, hins, hrest⟩
  have hflag : supported = false := (addSpentInputs_supported hins).trans hsupp
  rcases addSpentInputs_keys hins with ⟨added, hadds, hmem, _⟩
  rw [hflag] at hrest
  cases hrest
  rw [hadds.eq, filter_append]
  have hnone : (added.filter fun k => !(keyImages tx.vin).contains k) = [] := by
    rw [filter_eq_nil_iff]
    intro k hk
    simp [hmem k hk]
  rw [hnone, append_nil]

end

/-! ## Key images that one transaction takes away -/

section

variable [DecidableEq P] {K : OutputConstants P} {db db' : OutputDb P}

theorem removeOutput_spentKeys {amount : UInt64} {index : Nat}
    (h : removeOutput K db amount index = .ok db') : db'.spentKeys = db.spentKeys := by
  rcases orReject_bind_ok.mp h with ⟨row, _, h⟩
  split at h
  · cases h
    rfl
  · split at h
    · rcases bind_ok.mp h with ⟨listed, _, h⟩
      cases h
      rfl
    · rcases bind_ok.mp h with ⟨listed, _, h⟩
      cases h
      rfl

theorem removeTxOutputs_spentKeys {stored : StoredTx P}
    (h : removeTxOutputs K db stored = .ok db') : db'.spentKeys = db.spentKeys := by
  rcases rejectIf_bind_ok.mp h with ⟨_, hrun⟩
  exact @run_preserves _ _ _ _ (fun mid => mid.spentKeys = db.spentKeys)
    (fun hstep hmid => (removeOutput_spentKeys hstep).trans hmid) _ _ _ hrun rfl

end

/-! ## The transactions that the database holds -/

def txsKeyImages (txs : List (Hash × Transaction P)) : List KeyImage :=
  txs.flatMap fun txp => keyImages txp.2.vin

/-- The tables hold the transactions of a list, under different hashes, and their key
images, each of them once. -/
structure HoldsTxs (db : ChainDb P) (txs : List (Hash × Transaction P)) : Prop where
  stored : forall txp, txp ∈ txs ->
    exists record, db.txs.find? txp.1 = some record ∧ record.tx = txp.2
  hashes : (txs.map Prod.fst).Nodup
  spent : db.outputs.spentKeys = txsKeyImages txs
  nodup : (txsKeyImages txs).Nodup

theorem txsKeyImages_concat (txs : List (Hash × Transaction P)) (txp : Hash × Transaction P) :
    txsKeyImages (txs ++ [txp]) = txsKeyImages txs ++ keyImages txp.2.vin := by
  unfold txsKeyImages
  rw [flatMap_append, flatMap_singleton]

theorem nodup_map_fst_concat {α β : Type} {l : List (α × β)} {p : α × β} :
    ((l ++ [p]).map Prod.fst).Nodup <-> (l.map Prod.fst).Nodup ∧ p.1 ∉ l.map Prod.fst := by
  rw [map_append, map_singleton, nodup_append]
  constructor
  · rintro ⟨hl, _, hne⟩
    exact ⟨hl, fun hmem => hne p.1 hmem p.1 (mem_singleton_self _) rfl⟩
  · rintro ⟨hl, hp⟩
    refine ⟨hl, nodup_singleton _, ?_⟩
    intro a ha b hb hab
    rw [mem_singleton.mp hb] at hab
    exact hp (hab ▸ ha)

variable {txs : List (Hash × Transaction P)} {txHash : Hash} {K : OutputConstants P}
  {db db' : ChainDb P}

theorem HoldsTxs.addTransaction (h : HoldsTxs db txs)
    {tx : Transaction P} (hsupp : hasSupportedInputs tx = true)
    (hadd : db.addTransaction K txHash tx = .ok db') : HoldsTxs db' (txs ++ [(txHash, tx)]) := by
  rcases bind_ok.mp hadd with ⟨outputs, houts, hrest⟩
  rw [if_pos hsupp] at hrest
  rcases rejectIf_bind_ok.mp hrest with ⟨hnew, hput⟩
  cases hput
  have hkeys := addTransaction_keys hsupp houts
  have hfresh : forall txp, txp ∈ txs -> txp.1 ≠ txHash := by
    intro txp htxp heq
    rcases h.stored txp htxp with ⟨record, hfind, _⟩
    rw [<- heq, hfind] at hnew
    cases hnew
  constructor
  · intro txp htxp
    rcases mem_append.mp htxp with htxp | htxp
    · rcases h.stored txp htxp with ⟨record, hfind, hrec⟩
      exact ⟨record, (Table.find?_set_of_ne _ _ (hfresh txp htxp)).trans hfind, hrec⟩
    · rw [mem_singleton.mp htxp]
      exact ⟨_, Table.find?_set_self _ _ _, rfl⟩
  · rw [nodup_map_fst_concat]
    refine ⟨h.hashes, ?_⟩
    intro hmem
    rcases mem_map.mp hmem with ⟨txp, htxp, heq⟩
    exact hfresh txp htxp heq
  · rw [txsKeyImages_concat, <- h.spent]
    exact hkeys.eq
  · rw [txsKeyImages_concat, <- h.spent, <- hkeys.eq]
    exact hkeys.nodup (h.spent ▸ h.nodup)

variable {more : List (Hash × Transaction P)}

theorem HoldsTxs.addTransactions (h : HoldsTxs db txs)
    (hsupp : forall txp, txp ∈ more -> hasSupportedInputs txp.2 = true)
    (hrun : run (fun db (txp : Hash × Transaction P) => db.addTransaction K txp.1 txp.2)
      db more = .ok db') : HoldsTxs db' (txs ++ more) := by
  induction more generalizing db txs with
  | nil =>
    cases hrun
    rw [append_nil]
    exact h
  | cons txp rest ih =>
    rcases run_cons_ok.mp hrun with ⟨mid, hadd, hrest⟩
    have hmid := h.addTransaction (hsupp txp mem_cons_self) hadd
    have hall := ih hmid (fun t ht => hsupp t (mem_cons_of_mem txp ht)) hrest
    rwa [append_assoc, singleton_append] at hall

theorem HoldsTxs.removeTransaction [DecidableEq P] {txp : Hash × Transaction P}
    (h : HoldsTxs db (txs ++ [txp]))
    (hremove : db.removeTransaction K txp.1 = .ok db') : HoldsTxs db' txs := by
  rcases orReject_bind_ok.mp hremove with ⟨record, hfind, hrest⟩
  rcases bind_ok.mp hrest with ⟨outputs, houts, hput⟩
  cases hput
  rcases h.stored txp (mem_append_right _ (mem_singleton_self _)) with
    ⟨record', hfind', hrec⟩
  rw [hfind] at hfind'
  cases hfind'
  rcases nodup_map_fst_concat.mp h.hashes with ⟨hhashes, hfresh⟩
  have hnodup := h.nodup
  rw [txsKeyImages_concat, nodup_append] at hnodup
  rcases hnodup with ⟨hkeys, _, hdisjoint⟩
  constructor
  · intro other hother
    rcases h.stored other (mem_append_left _ hother) with ⟨r, hr, hrtx⟩
    have hne : other.1 ≠ txp.1 := fun heq => hfresh (heq ▸ mem_map_of_mem hother)
    refine ⟨r, ?_, hrtx⟩
    rw [Table.find?_restrict, if_pos (by simpa using hne)]
    exact hr
  · exact hhashes
  · rw [removeTxOutputs_spentKeys houts]
    change (db.outputs.spentKeys.filter _) = _
    -- The images of the removed transaction are the last ones, and no others.
    rw [h.spent, txsKeyImages_concat, hrec, filter_append]
    have hkept : ((txsKeyImages txs).filter fun k => !(keyImages txp.2.vin).contains k) =
        txsKeyImages txs := by
      rw [filter_eq_self]
      intro k hk
      have hnot : k ∉ keyImages txp.2.vin := fun hmem => hdisjoint k hk k hmem rfl
      simpa using hnot
    have hgone : ((keyImages txp.2.vin).filter fun k =>
        !(keyImages txp.2.vin).contains k) = [] := by
      rw [filter_eq_nil_iff]
      intro k hk
      simp [hk]
    rw [hkept, hgone, append_nil]
  · exact hkeys

variable {popped : List (Transaction P)}

theorem HoldsTxs.popTransactions [DecidableEq P] (h : HoldsTxs db (txs ++ more.reverse))
    (hpop : db.popTransactions K (more.map Prod.fst) = .ok (db', popped)) : HoldsTxs db' txs := by
  induction more generalizing db popped with
  | nil =>
    cases hpop
    simpa using h
  | cons txp rest ih =>
    rcases orReject_bind_ok.mp hpop with ⟨record, _, hpop⟩
    rcases bind_ok.mp hpop with ⟨mid, hremove, hpop⟩
    rcases bind_ok.mp hpop with ⟨⟨db'', others⟩, hrest, hput⟩
    cases hput
    rw [reverse_cons, <- append_assoc] at h
    exact ih (h.removeTransaction hremove) hrest

/-! ## The chain that the database holds -/

def chainTxs (H : Hashing P) (chain : List (BlockEntry P)) : List (Hash × Transaction P) :=
  chain.flatMap (entryTxs H)

structure HoldsChain (H : Hashing P) (s : DbState P) : Prop where
  txs : HoldsTxs s.db (chainTxs H s.chain)
  blocks : s.db.blocks = s.chain.map fun entry => (H.getBlockHash entry.block, entry.block)
  sizes : forall entry, entry ∈ s.chain -> entry.block.txHashes.length = entry.txs.length

theorem holdsChain_empty (H : Hashing P) : HoldsChain H (DbState.empty P) where
  txs :=
    { stored := fun _ h => absurd h not_mem_nil
      hashes := nodup_nil
      spent := rfl
      nodup := nodup_nil }
  blocks := rfl
  sizes := fun _ h => absurd h not_mem_nil

theorem chainTxs_concat (H : Hashing P) (chain : List (BlockEntry P)) (entry : BlockEntry P) :
    chainTxs H (chain ++ [entry]) = chainTxs H chain ++ entryTxs H entry := by
  unfold chainTxs
  rw [flatMap_append, flatMap_singleton]

theorem addTransaction_blocks {tx : Transaction P}
    (h : db.addTransaction K txHash tx = .ok db') : db'.blocks = db.blocks := by
  rcases bind_ok.mp h with ⟨outputs, _, hrest⟩
  split at hrest
  · rcases rejectIf_bind_ok.mp hrest with ⟨_, hput⟩
    cases hput
    rfl
  · cases hrest
    rfl

theorem removeTransaction_blocks [DecidableEq P] (h : db.removeTransaction K txHash = .ok db') :
    db'.blocks = db.blocks := by
  rcases orReject_bind_ok.mp h with ⟨record, _, hrest⟩
  rcases bind_ok.mp hrest with ⟨outputs, _, hput⟩
  cases hput
  rfl

theorem popTransactions_blocks [DecidableEq P] {txHashes : List Hash}
    (h : db.popTransactions K txHashes = .ok (db', popped)) :
    db'.blocks = db.blocks := by
  induction txHashes generalizing db popped with
  | nil =>
    cases h
    rfl
  | cons txHash rest ih =>
    rcases orReject_bind_ok.mp h with ⟨record, _, h⟩
    rcases bind_ok.mp h with ⟨mid, hremove, h⟩
    rcases bind_ok.mp h with ⟨⟨db'', others⟩, hrest, hput⟩
    cases hput
    exact (ih hrest).trans (removeTransaction_blocks hremove)

variable {H : Hashing P} {s : DbState P}

theorem HoldsChain.addBlock (h : HoldsChain H s) {entry : BlockEntry P} {db' : ChainDb P}
    (hsupp : forall txp, txp ∈ entryTxs H entry -> hasSupportedInputs txp.2 = true)
    (hadd : s.db.addBlock H K entry = .ok db') :
    HoldsChain H { db := db', chain := s.chain ++ [entry] } := by
  rcases rejectIf_bind_ok.mp hadd with ⟨hsizes, hadd⟩
  rcases bind_ok.mp hadd with ⟨filled, hrun, hadd⟩
  rcases rejectIf_bind_ok.mp hadd with ⟨_, hadd⟩
  rcases rejectIf_bind_ok.mp hadd with ⟨_, hput⟩
  cases hput
  have hfilled := h.txs.addTransactions hsupp hrun
  have hblocks : filled.blocks = s.db.blocks :=
    @run_preserves _ _ _ _ (fun db : ChainDb P => db.blocks = s.db.blocks)
      (fun hstep hmid => (addTransaction_blocks hstep).trans hmid) _ _ _ hrun rfl
  constructor
  · rw [chainTxs_concat]
    exact ⟨hfilled.stored, hfilled.hashes, hfilled.spent, hfilled.nodup⟩
  · rw [hblocks, h.blocks, map_append, map_singleton]
  · intro e he
    rcases mem_append.mp he with he | he
    · exact h.sizes e he
    · rw [mem_singleton.mp he]
      simpa using hsizes

theorem HoldsChain.popBlock [DecidableEq P] (h : HoldsChain H s)
    {db' : ChainDb P} {blk : Block P} {txs : List (Transaction P)}
    (hpop : s.db.popBlock H K = .ok (db', blk, txs)) :
    HoldsChain H { db := db', chain := s.chain.dropLast } := by
  rcases orReject_bind_ok.mp hpop with ⟨top, htop, hpop⟩
  rcases bind_ok.mp hpop with ⟨⟨mid, popped⟩, hpopped, hpop⟩
  rcases bind_ok.mp hpop with ⟨last, hlast, hput⟩
  cases hput
  rcases eq_nil_or_concat s.chain with hnil | ⟨chain, entry, hchain⟩
  · rw [h.blocks, hnil] at htop
    cases htop
  rw [concat_eq_append] at hchain
  have htxs := h.txs
  have hblocks := h.blocks
  have hsize : entry.block.txHashes.length = entry.txs.length :=
    h.sizes entry (by rw [hchain]; exact mem_append_right _ (mem_singleton_self _))
  rw [hchain, chainTxs_concat] at htxs
  rw [hchain, map_append, map_singleton] at hblocks
  rw [hblocks, getLast?_concat] at htop
  cases htop
  -- Popping the listed transactions from the last one leaves the coinbase on top.
  have hlisted : ((entry.block.txHashes.zip entry.txs).reverse.map Prod.fst) =
      entry.block.txHashes.reverse := by
    rw [map_reverse, map_fst_zip (le_of_eq hsize)]
  have hrest : HoldsTxs mid (chainTxs H chain ++
      [(H.getTransactionHash entry.block.minerTx, entry.block.minerTx)]) := by
    rw [<- hlisted] at hpopped
    refine HoldsTxs.popTransactions ?_ hpopped
    rw [reverse_reverse, append_assoc, singleton_append]
    exact ⟨htxs.stored, htxs.hashes, htxs.spent, htxs.nodup⟩
  have hdrop : s.chain.dropLast = chain := by
    rw [hchain, dropLast_concat]
  rw [hdrop]
  constructor
  · exact hrest.removeTransaction hlast
  · rw [removeTransaction_blocks hlast, popTransactions_blocks hpopped]
    rw [hblocks, dropLast_concat]
  · intro e he
    exact h.sizes e (by rw [hchain]; exact mem_append_left _ he)

/-! ## Histories -/

def AddsSupported (H : Hashing P) (K : OutputConstants P) (s : DbState P) :
    DbCall P -> Prop
  | .addBlock entry =>
    forall db, s.db.addBlock H K entry = .ok db ->
      forall txp, txp ∈ entryTxs H entry -> hasSupportedInputs txp.2 = true
  | .popBlock => True

def RunAddsSupported [DecidableEq P] (H : Hashing P) (K : OutputConstants P) :
    DbState P -> List (DbCall P) -> Prop
  | _, [] => True
  | s, call :: rest => AddsSupported H K s call ∧ RunAddsSupported H K (stepDb H K s call) rest

theorem HoldsChain.step [DecidableEq P] (h : HoldsChain H s)
    {call : DbCall P} (hcall : AddsSupported H K s call) : HoldsChain H (stepDb H K s call) := by
  cases call with
  | addBlock entry =>
    cases hadd : s.db.addBlock H K entry with
    | error reason =>
      simp only [stepDb, hadd]
      exact h
    | ok db =>
      simp only [stepDb, hadd]
      exact h.addBlock (hcall db hadd) hadd
  | popBlock =>
    cases hpop : s.db.popBlock H K with
    | error reason =>
      simp only [stepDb, hpop]
      exact h
    | ok result =>
      simp only [stepDb, hpop]
      exact h.popBlock hpop

theorem HoldsChain.run [DecidableEq P] (h : HoldsChain H s)
    {calls : List (DbCall P)} (hcalls : RunAddsSupported H K s calls) :
    HoldsChain H (runDb H K s calls) := by
  induction calls generalizing s with
  | nil => exact h
  | cons call rest ih => exact ih (h.step hcalls.1) hcalls.2

structure SpentOnce (H : Hashing P) (s : DbState P) : Prop where
  spent_iff : forall k, k ∈ s.db.outputs.spentKeys <->
    exists txp, txp ∈ chainTxs H s.chain ∧ k ∈ keyImages txp.2.vin
  once : (txsKeyImages (chainTxs H s.chain)).Nodup

theorem HoldsChain.spentOnce (h : HoldsChain H s) : SpentOnce H s where
  spent_iff := by
    intro k
    rw [h.txs.spent]
    exact mem_flatMap
  once := h.txs.nodup

/-- Over every history of added and popped blocks in which the added blocks have supported
inputs only, the table holds the key images of the chain, each spent once; and a single
transaction keeps all key images that were there before exactly when its inputs are
supported or none of its key images was there. -/
theorem spentKeys_of_run [DecidableEq P] (H : Hashing P) (K : OutputConstants P) :
    (forall calls, RunAddsSupported H K (DbState.empty P) calls ->
      SpentOnce H (runDb H K (DbState.empty P) calls)) ∧
    forall (db db' : ChainDb P) (txHash : Hash) (tx : Transaction P),
      db.addTransaction K txHash tx = .ok db' ->
      ((forall k, k ∈ db.outputs.spentKeys -> k ∈ db'.outputs.spentKeys) <->
        (hasSupportedInputs tx = true ∨
          forall k, k ∈ keyImages tx.vin -> k ∉ db.outputs.spentKeys)) := by
  constructor
  · intro calls hcalls
    exact ((holdsChain_empty H).run hcalls).spentOnce
  · intro db db' txHash tx hadd
    rcases bind_ok.mp hadd with ⟨outputs, houts, hrest⟩
    cases hsupp : hasSupportedInputs tx with
    | true =>
      rw [if_pos hsupp] at hrest
      rcases rejectIf_bind_ok.mp hrest with ⟨_, hput⟩
      cases hput
      refine ⟨fun _ => .inl rfl, fun _ k hk => ?_⟩
      rw [(addTransaction_keys hsupp houts).eq]
      exact mem_append_left _ hk
    | false =>
      rw [if_neg (by simp [hsupp])] at hrest
      cases hrest
      rw [addTransaction_unsupported_keys hsupp houts]
      constructor
      · intro hkept
        right
        intro k hk hspent
        have := (mem_filter.mp (hkept k hspent)).2
        simp [hk] at this
      · rintro (h | h) k hk
        · cases h
        · rw [mem_filter]
          refine ⟨hk, ?_⟩
          have hnot : k ∉ keyImages tx.vin := fun hmem => h k hmem hk
          simpa using hnot

/-! ## A chain of three blocks -/

def sampleConstants : OutputConstants Unit where
  zeroCommit := fun _ => ()
  nullTid := ()

/-- Blocks are told apart by their nonces and transactions by their unlock times. -/
def sampleHashing : Hashing Unit where
  getBlockHash := fun blk => ⟨BitVec.ofNat 256 blk.nonce.toNat⟩
  getTransactionHash := fun tx => ⟨BitVec.ofNat 256 tx.unlockTime.toNat⟩

def numberedEntry (n : Nat) (tx? : Option (Transaction Unit)) : BlockEntry Unit where
  block :=
    { emptyBlock Unit with
      majorVersion := .hf22PrivacyTokens
      minorVersion := 22
      prevId := ⟨BitVec.ofNat 256 (n - 1)⟩
      nonce := UInt32.ofNat n
      minerTx :=
        { Transaction.setNull Unit with
          unlockTime := UInt64.ofNat (100 + n)
          vin := [.gen (UInt64.ofNat n)] }
      txHashes := (tx?.map sampleHashing.getTransactionHash).toList }
  txs := tx?.toList

def spendsOne (id : UInt64) : Transaction Unit :=
  { Transaction.setNull Unit with
    unlockTime := id
    vin := [.toKey { amount := 0, keyOffsets := [], kImage := ⟨1⟩ }] }

def scriptThenOne : Transaction Unit :=
  { Transaction.setNull Unit with
    unlockTime := 8
    vin := [.toScript, .toKey { amount := 0, keyOffsets := [], kImage := ⟨1⟩ }] }

def spendTwiceCalls : List (DbCall Unit) :=
  [.addBlock (numberedEntry 0 none), .addBlock (numberedEntry 1 (some (spendsOne 7))),
    .popBlock, .addBlock (numberedEntry 1 (some (spendsOne 7)))]

theorem spentKeys_of_run_poppedSpend :
    RunAddsSupported sampleHashing sampleConstants (DbState.empty Unit) spendTwiceCalls ∧
      (runDb sampleHashing sampleConstants (DbState.empty Unit)
        spendTwiceCalls).db.outputs.spentKeys = [⟨1⟩] ∧ SpentOnce sampleHashing
        (runDb sampleHashing sampleConstants (DbState.empty Unit) spendTwiceCalls) := by
  have hcalls : RunAddsSupported sampleHashing sampleConstants (DbState.empty Unit)
      spendTwiceCalls := by
    refine ⟨?_, ?_, ?_, ?_, ?_⟩
    · intro _ _
      decide
    · intro _ _
      decide
    · trivial
    · intro _ _
      decide
    · trivial
  refine ⟨hcalls, by decide +kernel, ?_⟩
  exact (spentKeys_of_run sampleHashing sampleConstants).1 spendTwiceCalls hcalls

/-- A block whose transaction has a script input frees the key image of an earlier spend,
and the next block spends it again. -/
def scriptCalls : List (DbCall Unit) :=
  [.addBlock (numberedEntry 0 none), .addBlock (numberedEntry 1 (some (spendsOne 7))),
    .addBlock (numberedEntry 2 (some scriptThenOne)),
    .addBlock (numberedEntry 3 (some (spendsOne 9)))]

theorem scriptInput_frees_spentKey :
    ¬ SpentOnce sampleHashing
        (runDb sampleHashing sampleConstants (DbState.empty Unit) (scriptCalls.take 3)) ∧
      (runDb sampleHashing sampleConstants (DbState.empty Unit)
        (scriptCalls.take 3)).db.outputs.spentKeys = [] ∧
      (runDb sampleHashing sampleConstants (DbState.empty Unit) scriptCalls).chain =
        [numberedEntry 0 none, numberedEntry 1 (some (spendsOne 7)),
          numberedEntry 2 (some scriptThenOne), numberedEntry 3 (some (spendsOne 9))] := by
  have hspent : (runDb sampleHashing sampleConstants (DbState.empty Unit)
      (scriptCalls.take 3)).db.outputs.spentKeys = [] := by
    decide +kernel
  refine ⟨?_, hspent, by rfl⟩
  intro h
  have hmem := (h.spent_iff ⟨1⟩).mpr ⟨(⟨7⟩, spendsOne 7), by decide +kernel, by decide⟩
  rw [hspent] at hmem
  exact absurd hmem not_mem_nil

end Beldex.Outputs
