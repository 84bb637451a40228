import EthRpc.Rpc.Cache

/-! # The cache is the window of the last blocks

    The abstract cache is a list of blocks: the last `N` delivered. Where
    the delivered blocks differ in hash, number and transaction hashes, each
    of the five structures is determined by that list: `Window` says how.

    A delivery is followed through its three parts. In between, the blocks
    and the receipts are those of different lists: the receipts of the new
    block are there before the block is, and those of the oldest leave
    together with it.
-/

namespace EthRpc

/-- Two blocks that share nothing the cache keys on. -/
def SubstrateBlock.Distinct (a b : SubstrateBlock) : Prop :=
  a.hash ≠ b.hash ∧ a.number ≠ b.number ∧ ¬ a.SharesTx b

instance (a b : SubstrateBlock) : Decidable (a.Distinct b) := by
  unfold SubstrateBlock.Distinct
  infer_instance

namespace BlockCache

variable {N : Nat} {c : BlockCache N} {w : List SubstrateBlock} {b p : SubstrateBlock}

/-! ## Blocks and receipts of a list -/

/-- The queue and the block maps are those of the blocks `w`. -/
structure BlocksOf (c : BlockCache N) (w : List SubstrateBlock) : Prop where
  buffer : c.buffer = w
  by_number : ∀ n b, c.blocks_by_number.lookup n = some b ↔ b ∈ w ∧ b.number = n
  by_hash : ∀ h b, c.blocks_by_hash.lookup h = some b ↔ b ∈ w ∧ b.hash = h

/-- The receipt maps are those of the blocks `w`: the receipts of these
    blocks, and an index for each of them that has a receipt. -/
structure ReceiptsOf (c : BlockCache N) (w : List SubstrateBlock) : Prop where
  by_hash : ∀ t r, c.receipts_by_hash.lookup t = some r ↔
    ∃ b ∈ w, r ∈ b.receipts ∧ r.transaction_hash = t
  by_index : ∀ h m, c.receipt_hashes_by_block_and_index.lookup h = some m ↔
    ∃ b ∈ w, b.hash = h ∧ b.receipts ≠ [] ∧ ∀ i t, m.lookup i = some t ↔
      ∃ r ∈ b.receipts, r.transaction_index = i ∧ r.transaction_hash = t

/-- **The abstract cache**: everything is that of the blocks `w`. -/
structure Window (c : BlockCache N) (w : List SubstrateBlock) : Prop where
  blocks : BlocksOf c w
  receipts : ReceiptsOf c w

/-- An index is that of a block exactly if it is the one the client makes. -/
theorem is_index_iff {m : Map U256 H256} :
    (∀ i t, m.lookup i = some t ↔
      ∃ r ∈ b.receipts, r.transaction_index = i ∧ r.transaction_hash = t) ↔
    m = b.hashes_by_index := by
  constructor
  · intro h
    apply Finmap.ext_lookup
    intro i
    apply Option.ext
    intro t
    rw [h i t, SubstrateBlock.lookup_hashes_by_index]
  · intro heq i t
    rw [heq]
    exact SubstrateBlock.lookup_hashes_by_index

theorem BlocksOf.index_by_number (h : BlocksOf c w) :
    Map.IsIndex SubstrateBlock.number w c.blocks_by_number := h.by_number

theorem BlocksOf.index_by_hash (h : BlocksOf c w) :
    Map.IsIndex SubstrateBlock.hash w c.blocks_by_hash := h.by_hash

/-- A list determines the cache. -/
theorem Window.unique {c' : BlockCache N} (h : Window c w) (h' : Window c' w) : c = c' := by
  apply BlockCache.ext
  · rw [h.blocks.buffer, h'.blocks.buffer]
  · exact h.blocks.index_by_number.unique h'.blocks.index_by_number
  · exact h.blocks.index_by_hash.unique h'.blocks.index_by_hash
  · apply Finmap.ext_lookup
    intro t
    apply Option.ext
    intro r
    rw [h.receipts.by_hash, h'.receipts.by_hash]
  · apply Finmap.ext_lookup
    intro k
    apply Option.ext
    intro m
    rw [h.receipts.by_index, h'.receipts.by_index]

theorem window_default : Window (default : BlockCache N) [] where
  blocks := { buffer := rfl, by_number := Map.IsIndex.empty _, by_hash := Map.IsIndex.empty _ }
  receipts := { by_hash := by simp [default], by_index := by simp [default] }

/-! ## The parts of a delivery -/

/-- The receipts of the new block join those that are there. -/
theorem ReceiptsOf.add_receipts (h : ReceiptsOf c w) (hd : ∀ a ∈ w, a.Distinct b) :
    ReceiptsOf (c.add_receipts b) (w ++ [b]) := by
  constructor
  · intro t r
    simp only [List.mem_append, List.mem_singleton]
    by_cases ht : b.HasTx t
    · -- a transaction of the new block: no other block has one with this hash
      obtain ⟨s, hs, rfl⟩ := ht
      rw [receipts_add_receipts_of_mem hs, Option.some.injEq]
      constructor
      · intro heq
        subst heq
        exact ⟨b, Or.inr rfl, hs, rfl⟩
      · intro hex
        obtain ⟨a, ha | rfl, hr, heq⟩ := hex
        · exact absurd ⟨r, hr, s, hs, heq.symm⟩ (hd a ha).2.2
        · exact (List.inj_on_of_nodup_map a.hashes_nodup hr hs heq).symm
    · rw [receipts_add_receipts_of_not_hasTx ht, h.by_hash]
      constructor
      · intro hex
        obtain ⟨a, ha, hr, heq⟩ := hex
        exact ⟨a, Or.inl ha, hr, heq⟩
      · intro hex
        obtain ⟨a, ha | rfl, hr, heq⟩ := hex
        · exact ⟨a, ha, hr, heq⟩
        · exact absurd ⟨r, hr, heq⟩ ht
  · intro k m
    simp only [List.mem_append, List.mem_singleton, is_index_iff]
    by_cases hk : b.receipts ≠ [] ∧ k = b.hash
    · -- the new block's own index
      obtain ⟨hne, rfl⟩ := hk
      rw [index_add_receipts_self hne, Option.some.injEq]
      constructor
      · intro heq
        exact ⟨b, Or.inr rfl, rfl, hne, heq.symm⟩
      · intro hex
        obtain ⟨a, ha | rfl, heq, -, rfl⟩ := hex
        · exact absurd heq (hd a ha).1
        · rfl
    · rw [index_add_receipts_of_ne hk, h.by_index]
      simp only [is_index_iff]
      constructor
      · intro hex
        obtain ⟨a, ha, hrest⟩ := hex
        exact ⟨a, Or.inl ha, hrest⟩
      · intro hex
        obtain ⟨a, ha | rfl, heq, hne, rfl⟩ := hex
        · exact ⟨a, ha, heq, hne, rfl⟩
        · exact absurd ⟨hne, heq.symm⟩ hk

theorem BlocksOf.add_receipts (h : BlocksOf c w) : BlocksOf (c.add_receipts b) w where
  buffer := by rw [buffer_add_receipts, h.buffer]
  by_number := by simp only [blocks_by_number_add_receipts, h.by_number, implies_true]
  by_hash := by simp only [blocks_by_hash_add_receipts, h.by_hash, implies_true]

/-- The oldest block leaves the queue and the block maps. -/
theorem BlocksOf.evict (h : BlocksOf c (p :: w)) (hd : ∀ a ∈ w, p.Distinct a) :
    BlocksOf (c.evict p w) w where
  buffer := rfl
  by_number := h.index_by_number.erase fun a ha => (hd a ha).2.1.symm
  by_hash := h.index_by_hash.erase fun a ha => (hd a ha).1.symm

/-- Its receipts leave the receipt maps, and no others. -/
theorem ReceiptsOf.evict {buffer : List SubstrateBlock} (h : ReceiptsOf c (p :: w))
    (hd : ∀ a ∈ w, p.Distinct a) : ReceiptsOf (c.evict p buffer) w := by
  constructor
  · intro t r
    rw [receipts_evict, h.by_hash]
    constructor
    · intro hkept
      obtain ⟨⟨a, ha, hr, heq⟩, herase⟩ := hkept
      rcases List.mem_cons.mp ha with rfl | ha
      · -- the evicted block's own receipts are in its index
        have hindex := (h.by_index a.hash a.hashes_by_index).mpr
          ⟨a, ha, rfl, List.ne_nil_of_mem hr, is_index_iff.mpr rfl⟩
        have hlookup : a.hashes_by_index.lookup r.transaction_index = some t :=
          SubstrateBlock.lookup_hashes_by_index.mpr ⟨r, hr, rfl, heq⟩
        exact absurd hlookup (herase _ hindex r.transaction_index)
      · exact ⟨a, ha, hr, heq⟩
    · intro hex
      obtain ⟨a, ha, hr, heq⟩ := hex
      refine ⟨⟨a, List.mem_cons_of_mem _ ha, hr, heq⟩, ?_⟩
      -- the index that is erased is that of the evicted block, and lists
      -- no transaction of another block
      intro entries hentries i hi
      obtain ⟨q, hq, hhash, -, hindex⟩ := (h.by_index _ _).mp hentries
      obtain ⟨s, hs, -, hst⟩ := (hindex i t).mp hi
      rcases List.mem_cons.mp hq with rfl | hq
      · exact (hd a ha).2.2 ⟨s, hs, r, hr, heq.trans hst.symm⟩
      · exact (hd q hq).1 hhash.symm
  · intro k m
    show (c.receipt_hashes_by_block_and_index.erase p.hash).lookup k = some m ↔ _
    rw [Map.lookup_erase_eq_some, h.by_index]
    constructor
    · intro hkept
      obtain ⟨⟨a, ha, heq, hrest⟩, hk⟩ := hkept
      rcases List.mem_cons.mp ha with rfl | ha
      · exact absurd heq.symm hk
      · exact ⟨a, ha, heq, hrest⟩
    · intro hex
      obtain ⟨a, ha, heq, hrest⟩ := hex
      refine ⟨⟨a, List.mem_cons_of_mem _ ha, heq, hrest⟩, ?_⟩
      rw [← heq]
      exact (hd a ha).1.symm

/-- The new block joins the queue and the block maps. -/
theorem BlocksOf.push_back (h : BlocksOf c w) (hd : ∀ a ∈ w, a.Distinct b) :
    BlocksOf (c.push_back b) (w ++ [b]) where
  buffer := by rw [BlockCache.push_back, h.buffer]
  by_number := h.index_by_number.insert fun a ha => (hd a ha).2.1
  by_hash := h.index_by_hash.insert fun a ha => (hd a ha).1

theorem ReceiptsOf.push_back (h : ReceiptsOf c w) : ReceiptsOf (c.push_back b) w where
  by_hash := h.by_hash
  by_index := h.by_index

/-! ## One delivery, and a run of them -/

/-- **One delivery**: the new block joins the window, and the oldest leaves
    it if the window was full. -/
theorem Window.on_block (hN : 1 ≤ N) (h : Window c w) (hlen : w.length ≤ N)
    (hd : (w ++ [b]).Pairwise SubstrateBlock.Distinct) :
    Window (c.on_block b) ((w ++ [b]).rtake N) := by
  obtain ⟨hw, -, hwb⟩ := List.pairwise_append.mp hd
  have hnew : ∀ a ∈ w, a.Distinct b := fun a ha => hwb a ha b (List.mem_singleton_self b)
  have hblocks := h.blocks.add_receipts (b := b)
  have hreceipts := h.receipts.add_receipts hnew
  unfold BlockCache.on_block insert
  by_cases hfull : w.length < N
  · -- there is room: nothing is pruned
    rw [List.rtake_of_length_le (by rw [List.length_append, List.length_singleton]; omega),
      prune_of_length_lt (by rw [hblocks.buffer]; exact hfull)]
    exact ⟨hblocks.push_back hnew, hreceipts.push_back⟩
  · -- the window is full: its first block makes room
    cases w with
    | nil =>
      simp only [List.length_nil] at hfull
      omega
    | cons p rest =>
      have hlen : (p :: rest).length = N := by omega
      rw [prune_of_cons (by rw [hblocks.buffer]; omega) hblocks.buffer, List.cons_append,
        List.rtake_cons_of_length_eq p (by
          rw [List.length_append, List.length_singleton]
          simpa using hlen)]
      obtain ⟨hpd, -⟩ := List.pairwise_cons.mp hd
      have hp : ∀ a ∈ rest, p.Distinct a := fun a ha => hpd a (List.mem_append_left _ ha)
      -- the receipts of the new block are already there when the first block's leave
      exact ⟨(hblocks.evict hp).push_back fun a ha => hnew a (List.mem_cons_of_mem _ ha),
        (hreceipts.evict hpd).push_back⟩

/-- The window of a run. -/
theorem window_foldl (hN : 1 ≤ N) (ds : List SubstrateBlock)
    (hd : ds.Pairwise SubstrateBlock.Distinct) :
    Window (ds.foldl BlockCache.on_block (default : BlockCache N)) (ds.rtake N) := by
  -- from the back: the last delivery meets the window of all the others
  induction ds using List.reverseRecOn with
  | nil =>
    rw [List.rtake_nil]
    exact window_default
  | append_singleton ds d ih =>
    have hds := (List.pairwise_append.mp hd).1
    rw [List.foldl_append, List.foldl_cons, List.foldl_nil, List.rtake_concat_rtake]
    have hsub : (ds.rtake N ++ [d]).Sublist (ds ++ [d]) :=
      (List.rtake_sublist ds N).append (List.Sublist.refl _)
    exact (ih hds).on_block hN (List.rtake_length_le ds N) (hd.sublist hsub)

/-- **The cache is the last `N` blocks.** After any stream of blocks that
    share no hash, number or transaction hash, the cache is that of the last
    `N` blocks taken in, and it is the one rebuilt from scratch from them. -/
theorem cache_is_window (hN : 1 ≤ N) (items : List StreamItem)
    (hd : (delivered items).Pairwise SubstrateBlock.Distinct) :
    let cache := (subscribe_blocks (default : BlockCache N) items).1
    Window cache ((delivered items).rtake N) ∧
      cache = (subscribe_blocks (default : BlockCache N)
        (((delivered items).rtake N).map (.block · none))).1 := by
  have hdelivered : ∀ ds : List SubstrateBlock, delivered (ds.map (.block · none)) = ds := by
    intro ds
    induction ds with
    | nil => rfl
    | cons d ds ih => exact congrArg (d :: ·) ih
  simp only [subscribe_blocks_fst, hdelivered]
  have hwindow := window_foldl hN (delivered items) hd
  refine ⟨hwindow, hwindow.unique ?_⟩
  -- taken by themselves, the last `N` blocks have the same window
  have hagain := window_foldl hN ((delivered items).rtake N)
    (hd.sublist (List.rtake_sublist _ N))
  rwa [List.rtake_of_length_le (List.rtake_length_le _ N)] at hagain

/-- Three blocks and a lost connection, in a cache of two. -/
theorem cache_is_window_sample :
    let cache := (subscribe_blocks (default : BlockCache 2) [.block (Sample.block 1) none,
      .block (Sample.block 2) none, .disconnected_will_reconnect,
      .block (Sample.block 3) none]).1
    Window cache [Sample.block 2, Sample.block 3] ∧
      cache = (subscribe_blocks (default : BlockCache 2)
        [.block (Sample.block 2) none, .block (Sample.block 3) none]).1 :=
  cache_is_window (N := 2) (by omega) [.block (Sample.block 1) none,
    .block (Sample.block 2) none, .disconnected_will_reconnect, .block (Sample.block 3) none]
    (by decide +kernel)

end BlockCache

end EthRpc
