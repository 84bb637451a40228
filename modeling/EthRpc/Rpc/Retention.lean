import EthRpc.Rpc.Redelivery

/-! # What the cache keeps

    Whatever is delivered, with gaps, repeats, equal numbers or shared
    transactions, nothing in the four maps outlives the queue: `Retained`.
    It says nothing in the other direction: a block in the queue may be
    found nowhere.

    `Retained.on_block` follows one delivery, `retained_of_reachable` a run.
-/

namespace EthRpc

namespace BlockCache

variable {N : Nat} {chain : H256 → SubstrateBlock} {c : BlockCache N} {d : SubstrateBlock}

/-- **Everything in the maps is there for a block in the queue**, and the
    queue is bounded. -/
structure Retained (c : BlockCache N) : Prop where
  length_le : c.buffer.length ≤ N
  by_hash : ∀ h b, c.blocks_by_hash.lookup h = some b → b ∈ c.buffer ∧ b.hash = h
  by_number : ∀ n b, c.blocks_by_number.lookup n = some b → b ∈ c.buffer ∧ b.number = n
  index : ∀ h m, c.receipt_hashes_by_block_and_index.lookup h = some m →
    ∃ b ∈ c.buffer, b.hash = h
  /-- A transaction hash occurs in the index of a block in the queue. -/
  receipts : ∀ t r, c.receipts_by_hash.lookup t = some r →
    ∃ b ∈ c.buffer, ∃ m i, c.receipt_hashes_by_block_and_index.lookup b.hash = some m ∧
      m.lookup i = some t

/-! ## One delivery -/

/-- A block in the queue that is not the evicted one stays. -/
theorem mem_staying_of_ne {b : SubstrateBlock} (hb : b ∈ c.buffer)
    (hne : ∀ p, c.evicted = some p → b ≠ p) : b ∈ c.staying := by
  rcases evicted_cases c with ⟨-, hstay, -⟩ | ⟨p, hp, hcons, -⟩
  · rw [hstay]
    exact hb
  · rw [hcons, List.mem_cons] at hb
    exact hb.resolve_left (hne p hp)

theorem length_staying_lt (hN : 1 ≤ N) (h : c.buffer.length ≤ N) : c.staying.length < N := by
  unfold staying
  split
  · rw [List.length_tail]
    omega
  · omega

theorem mem_buffer_on_block {b : SubstrateBlock} :
    b ∈ (c.on_block d).buffer ↔ b ∈ c.staying ∨ b = d := by
  rw [buffer_on_block, List.mem_append, List.mem_singleton]

/-- Once the new receipts are there, every transaction hash is indexed for a
    block in the queue or for the new block. -/
theorem Retained.receipts_add_receipts (h : c.Retained) (hchain : OfChain chain c)
    (hd : chain d.hash = d) {t : H256} {r : ReceiptInfo}
    (hr : (c.add_receipts d).receipts_by_hash.lookup t = some r) :
    ∃ b, (b ∈ c.buffer ∨ b = d) ∧ ∃ m i,
      (c.add_receipts d).receipt_hashes_by_block_and_index.lookup b.hash = some m ∧
        m.lookup i = some t := by
  by_cases ht : d.HasTx t
  · obtain ⟨i, hi⟩ := SubstrateBlock.hasTx_iff_index.mp ht
    obtain ⟨s, hs, -⟩ := ht
    exact ⟨d, Or.inr rfl, _, i, index_add_receipts_self (List.ne_nil_of_mem hs), hi⟩
  · -- the receipt was there before, and so was its index
    rw [receipts_add_receipts_of_not_hasTx ht] at hr
    obtain ⟨b, hb, m, i, hm, hi⟩ := h.receipts t r hr
    refine ⟨b, Or.inl hb, m, i, ?_, hi⟩
    by_cases hself : d.receipts ≠ [] ∧ b.hash = d.hash
    · -- the index of a copy is replaced by the same
      obtain ⟨hne, heq⟩ := hself
      rw [heq, index_add_receipts_self hne, hchain.index _ _ hm, heq, hd]
    · rw [index_add_receipts_of_ne hself]
      exact hm

/-- **One delivery** leaves nothing behind in the maps. -/
theorem Retained.on_block (hN : 1 ≤ N) (h : c.Retained) (hchain : OfChain chain c)
    (hd : chain d.hash = d) : (c.on_block d).Retained where
  length_le := by
    have := length_staying_lt hN h.length_le
    rw [buffer_on_block, List.length_append, List.length_singleton]
    omega
  by_hash := by
    intro k b hb
    rw [mem_buffer_on_block]
    by_cases hk : k = d.hash
    · subst hk
      rw [blocks_on_block_self.1] at hb
      cases hb
      exact ⟨Or.inr rfl, rfl⟩
    · -- an entry of the evicted block would be under the erased hash
      obtain ⟨hold, hne⟩ := (blocks_by_hash_on_block hk).mp hb
      obtain ⟨hmem, rfl⟩ := h.by_hash k b hold
      refine ⟨Or.inl (mem_staying_of_ne hmem ?_), rfl⟩
      intro p hp heq
      exact hne p hp (congrArg SubstrateBlock.hash heq)
  by_number := by
    intro n b hb
    rw [mem_buffer_on_block]
    by_cases hn : n = d.number
    · subst hn
      rw [blocks_on_block_self.2] at hb
      cases hb
      exact ⟨Or.inr rfl, rfl⟩
    · obtain ⟨hold, hne⟩ := (blocks_by_number_on_block hn).mp hb
      obtain ⟨hmem, rfl⟩ := h.by_number n b hold
      refine ⟨Or.inl (mem_staying_of_ne hmem ?_), rfl⟩
      intro p hp heq
      exact hne p hp (congrArg SubstrateBlock.number heq)
  index := by
    intro k m hm
    obtain ⟨hadd, hne⟩ := index_on_block.mp hm
    by_cases hself : d.receipts ≠ [] ∧ k = d.hash
    · exact ⟨d, mem_buffer_on_block.mpr (Or.inr rfl), hself.2.symm⟩
    · rw [index_add_receipts_of_ne hself] at hadd
      obtain ⟨b, hb, rfl⟩ := h.index k m hadd
      refine ⟨b, mem_buffer_on_block.mpr (Or.inl (mem_staying_of_ne hb ?_)), rfl⟩
      intro p hp heq
      exact hne p hp (congrArg SubstrateBlock.hash heq)
  receipts := by
    intro t r hr
    obtain ⟨hadd, herase⟩ := receipts_on_block.mp hr
    obtain ⟨b, hb, m, i, hm, hi⟩ := h.receipts_add_receipts hchain hd hadd
    -- the index that lists `t` is not the erased one, so its block stays
    have hne : ∀ p, c.evicted = some p → b.hash ≠ p.hash := by
      intro p hp heq
      rw [heq] at hm
      exact herase p hp m hm i hi
    refine ⟨b, mem_buffer_on_block.mpr ?_, m, i, index_on_block.mpr ⟨hm, hne⟩, hi⟩
    refine hb.imp_left fun hmem => mem_staying_of_ne hmem ?_
    intro p hp heq
    exact hne p hp (congrArg SubstrateBlock.hash heq)

/-! ## Runs -/

theorem retained_default : (default : BlockCache N).Retained where
  length_le := Nat.zero_le N
  by_hash := by simp [default]
  by_number := by simp [default]
  index := by simp [default]
  receipts := by simp [default]

/-- **The cache never leaks.** In every reachable state, whatever blocks of
    the chain were delivered and in whatever order, the queue has at most
    `N` blocks and the maps hold nothing that is not a queued block's. -/
theorem retained_of_reachable (hN : 1 ≤ N) (h : Lts.Reachable (system N chain) c) :
    c.Retained := by
  apply Lts.invariant Retained _ _ h
  · intro c hc
    rw [hc]
    exact retained_default
  · intro c d c' hreach hret hstep
    obtain ⟨hd, rfl⟩ := hstep
    exact hret.on_block hN (ofChain_of_reachable hreach) hd

/-- Block `1` twice, then block `2`, in a cache of two: the second copy of
    block `1` is queued and in no map. -/
theorem retained_of_reachable_sample :
    ((((default : BlockCache 2).on_block (Sample.block 1)).on_block
      (Sample.block 1)).on_block (Sample.block 2)).Retained := by
  have hsteps := steps_subscribe_blocks (N := 2) sample_chain default
    [.block (Sample.block 1) none, .block (Sample.block 1) none, .block (Sample.block 2) none]
    (by decide +kernel)
  exact retained_of_reachable (by omega) (hsteps.reachable (.init rfl))

end BlockCache

end EthRpc
