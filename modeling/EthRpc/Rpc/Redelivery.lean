import EthRpc.Framework.Lts
import EthRpc.Rpc.Cache

/-! # Blocks delivered again

    After a reconnect the node may deliver blocks again. The cache then
    holds copies, and does not count them: to evict one copy removes the
    entries of all, and to evict a block right after its receipts were
    added again removes these too.

    `served_on_block_iff`: a delivery keeps every block in the queue to be
    found exactly if it is `Undisturbed`. `served_of_undisturbed` carries
    this over whole runs.
-/

namespace EthRpc

namespace BlockCache

variable {N : Nat}

/-! ## Runs -/

/-- Deliveries of any blocks of a chain in which a hash stands for one
    block. A lost connection in between leaves the cache as it is. -/
def system (N : Nat) (chain : H256 → SubstrateBlock) :
    Lts.System (BlockCache N) SubstrateBlock where
  init c := c = default
  step c d c' := chain d.hash = d ∧ c' = c.on_block d

/-- A subscription takes these steps, one for each block it takes in. -/
theorem steps_subscribe_blocks (chain : H256 → SubstrateBlock) (c : BlockCache N)
    (items : List StreamItem) (h : ∀ d ∈ delivered items, chain d.hash = d) :
    Lts.Steps (system N chain) c (delivered items) (subscribe_blocks c items).1 := by
  rw [subscribe_blocks_fst]
  generalize delivered items = ds at h
  induction ds generalizing c with
  | nil => exact .nil c
  | cons d ds ih =>
    rw [List.forall_mem_cons] at h
    exact .cons d ds ⟨h.1, rfl⟩ (ih (c.on_block d) h.2)

/-! ## Blocks that are found -/

/-- A block is found by its hash and its number, and each of its receipts by
    transaction hash and by block hash and index. -/
structure Found (c : BlockCache N) (b : SubstrateBlock) : Prop where
  by_hash : c.blocks_by_hash.lookup b.hash = some b
  by_number : c.blocks_by_number.lookup b.number = some b
  receipt : ∀ r ∈ b.receipts, c.receipt r.transaction_hash = some r
  receipt_by_index : ∀ r ∈ b.receipts,
    c.receipt_by_hash_and_index b.hash r.transaction_index = some r

/-- Every block in the queue is found. -/
def Served (c : BlockCache N) : Prop := ∀ b ∈ c.buffer, c.Found b

/-- A cache of the chain: the blocks in the queue are blocks of it, and an
    index is that of the block its hash stands for. -/
structure OfChain (chain : H256 → SubstrateBlock) (c : BlockCache N) : Prop where
  buffer : ∀ b ∈ c.buffer, chain b.hash = b
  index : ∀ h m, c.receipt_hashes_by_block_and_index.lookup h = some m →
    m = (chain h).hashes_by_index

/-! ## The condition -/

/-- The block that the next delivery evicts, if it evicts one. -/
def evicted (c : BlockCache N) : Option SubstrateBlock :=
  if c.buffer.length ≥ N then c.buffer.head? else none

/-- The blocks that stay in the queue with the next delivery. -/
def staying (c : BlockCache N) : List SubstrateBlock :=
  if c.buffer.length ≥ N then c.buffer.tail else c.buffer

/-- The delivery of `d` disturbs no block. The blocks that stay, copies of
    `d` apart, have other numbers and other transactions than `d`, and none
    is a copy of the evicted block; and the evicted block has no
    transaction in common with `d`. -/
structure Undisturbed (c : BlockCache N) (d : SubstrateBlock) : Prop where
  number : ∀ q ∈ c.staying, q.hash ≠ d.hash → q.number ≠ d.number
  transactions : ∀ q ∈ c.staying, q.hash ≠ d.hash → ¬ q.SharesTx d
  copies : ∀ p ∈ c.evicted, ∀ q ∈ c.staying, q.hash ≠ d.hash → q.hash ≠ p.hash
  evicted : ∀ p ∈ c.evicted, ¬ p.SharesTx d

instance (c : BlockCache N) (d : SubstrateBlock) : Decidable (c.Undisturbed d) :=
  decidable_of_iff ((∀ q ∈ c.staying, q.hash ≠ d.hash → q.number ≠ d.number) ∧
      (∀ q ∈ c.staying, q.hash ≠ d.hash → ¬ q.SharesTx d) ∧
      (∀ p ∈ c.evicted, ∀ q ∈ c.staying, q.hash ≠ d.hash → q.hash ≠ p.hash) ∧
      ∀ p ∈ c.evicted, ¬ p.SharesTx d)
    ⟨fun h => ⟨h.1, h.2.1, h.2.2.1, h.2.2.2⟩,
      fun h => ⟨h.number, h.transactions, h.copies, h.evicted⟩⟩

/-! ## The five structures after a delivery -/

section on_block
variable {c : BlockCache N} {d p : SubstrateBlock}

/-- Nothing is evicted, and pruning does nothing; or the head of the queue
    is, and pruning evicts it. The receipts that are added before do not
    change which of the two it is. -/
theorem evicted_cases (c : BlockCache N) :
    (c.evicted = none ∧ c.staying = c.buffer ∧
      ∀ c' : BlockCache N, c'.buffer = c.buffer → c'.prune = c') ∨
    ∃ p, c.evicted = some p ∧ c.buffer = p :: c.staying ∧
      ∀ c' : BlockCache N, c'.buffer = c.buffer → c'.prune = c'.evict p c.staying := by
  unfold evicted staying
  by_cases hfull : c.buffer.length ≥ N
  · rw [if_pos hfull, if_pos hfull]
    cases hbuffer : c.buffer with
    | nil =>
      -- only with a capacity of zero
      exact Or.inl ⟨rfl, rfl, fun c' hc' => prune_of_nil hc'⟩
    | cons p rest =>
      refine Or.inr ⟨p, rfl, rfl, fun c' hc' => prune_of_cons ?_ hc'⟩
      rw [hc', ← hbuffer]
      exact hfull
  · rw [if_neg hfull, if_neg hfull]
    refine Or.inl ⟨rfl, rfl, fun c' hc' => prune_of_length_lt ?_⟩
    rw [hc']
    omega

theorem buffer_on_block : (c.on_block d).buffer = c.staying ++ [d] := by
  unfold on_block insert
  rcases evicted_cases c with ⟨-, hstay, hprune⟩ | ⟨p, -, -, hprune⟩
  · rw [hprune _ buffer_add_receipts, push_back, buffer_add_receipts, hstay]
  · rw [hprune _ buffer_add_receipts]
    rfl

/-- The new block itself is found by hash and by number. -/
theorem blocks_on_block_self :
    (c.on_block d).blocks_by_hash.lookup d.hash = some d ∧
      (c.on_block d).blocks_by_number.lookup d.number = some d :=
  ⟨Finmap.lookup_insert _, Finmap.lookup_insert _⟩

/-- Another hash is looked up as before, unless it is the evicted block's. -/
theorem blocks_by_hash_on_block {h : H256} {b : SubstrateBlock} (hne : h ≠ d.hash) :
    (c.on_block d).blocks_by_hash.lookup h = some b ↔
      c.blocks_by_hash.lookup h = some b ∧ ∀ p, c.evicted = some p → h ≠ p.hash := by
  unfold on_block insert
  rcases evicted_cases c with ⟨hevict, -, hprune⟩ | ⟨p, hevict, -, hprune⟩
  · rw [hprune _ buffer_add_receipts, hevict]
    show Finmap.lookup h (Finmap.insert _ _ _) = _ ↔ _
    rw [Finmap.lookup_insert_of_ne _ hne, blocks_by_hash_add_receipts]
    simp
  · rw [hprune _ buffer_add_receipts, hevict]
    show Finmap.lookup h (Finmap.insert _ _ (Finmap.erase _ _)) = _ ↔ _
    rw [Finmap.lookup_insert_of_ne _ hne, blocks_by_hash_add_receipts, Map.lookup_erase_eq_some]
    simp

/-- Another number is looked up as before, unless it is the evicted block's. -/
theorem blocks_by_number_on_block {n : BitVec 32} {b : SubstrateBlock} (hne : n ≠ d.number) :
    (c.on_block d).blocks_by_number.lookup n = some b ↔
      c.blocks_by_number.lookup n = some b ∧ ∀ p, c.evicted = some p → n ≠ p.number := by
  unfold on_block insert
  rcases evicted_cases c with ⟨hevict, -, hprune⟩ | ⟨p, hevict, -, hprune⟩
  · rw [hprune _ buffer_add_receipts, hevict]
    show Finmap.lookup n (Finmap.insert _ _ _) = _ ↔ _
    rw [Finmap.lookup_insert_of_ne _ hne, blocks_by_number_add_receipts]
    simp
  · rw [hprune _ buffer_add_receipts, hevict]
    show Finmap.lookup n (Finmap.insert _ _ (Finmap.erase _ _)) = _ ↔ _
    rw [Finmap.lookup_insert_of_ne _ hne, blocks_by_number_add_receipts, Map.lookup_erase_eq_some]
    simp

/-- A receipt survives a delivery if it is not indexed under the hash of the
    evicted block once the new receipts are there. -/
theorem receipts_on_block {t : H256} {r : ReceiptInfo} :
    (c.on_block d).receipts_by_hash.lookup t = some r ↔
      (c.add_receipts d).receipts_by_hash.lookup t = some r ∧
        ∀ p, c.evicted = some p → ∀ entries,
          (c.add_receipts d).receipt_hashes_by_block_and_index.lookup p.hash = some entries →
          ∀ i, entries.lookup i ≠ some t := by
  unfold on_block insert push_back
  rcases evicted_cases c with ⟨hevict, -, hprune⟩ | ⟨p, hevict, -, hprune⟩
  · rw [hprune _ buffer_add_receipts, hevict]
    simp
  · rw [hprune _ buffer_add_receipts, hevict, receipts_evict]
    simp

/-- The index of the evicted block goes, even if it was added again with the
    new receipts. -/
theorem index_on_block {h : H256} {m : Map U256 H256} :
    (c.on_block d).receipt_hashes_by_block_and_index.lookup h = some m ↔
      (c.add_receipts d).receipt_hashes_by_block_and_index.lookup h = some m ∧
        ∀ p, c.evicted = some p → h ≠ p.hash := by
  unfold on_block insert push_back
  rcases evicted_cases c with ⟨hevict, -, hprune⟩ | ⟨p, hevict, -, hprune⟩
  · rw [hprune _ buffer_add_receipts, hevict]
    simp
  · rw [hprune _ buffer_add_receipts, hevict]
    show Finmap.lookup h (Finmap.erase _ _) = _ ↔ _
    rw [Map.lookup_erase_eq_some]
    simp

/-- A lookup by block hash and index goes through the index of the block. -/
theorem receipt_by_hash_and_index_eq_some {h : H256} {i : U256} {r : ReceiptInfo} :
    c.receipt_by_hash_and_index h i = some r ↔
      ∃ m t, c.receipt_hashes_by_block_and_index.lookup h = some m ∧ m.lookup i = some t ∧
        c.receipts_by_hash.lookup t = some r := by
  simp only [receipt_by_hash_and_index, Option.bind_eq_bind, Option.bind_eq_some_iff]
  constructor
  · intro h
    obtain ⟨m, hm, t, ht, hr⟩ := h
    exact ⟨m, t, hm, ht, hr⟩
  · intro h
    obtain ⟨m, t, hm, ht, hr⟩ := h
    exact ⟨m, hm, t, ht, hr⟩

/-! ## The invariant of all deliveries -/

variable {chain : H256 → SubstrateBlock}

theorem mem_of_evicted (h : c.evicted = some p) : p ∈ c.buffer := by
  rcases evicted_cases c with ⟨hnone, -, -⟩ | ⟨p', hsome, hcons, -⟩
  · rw [h] at hnone
    cases hnone
  · rw [h] at hsome
    cases hsome
    rw [hcons]
    exact List.mem_cons_self

theorem mem_of_staying {q : SubstrateBlock} (h : q ∈ c.staying) : q ∈ c.buffer := by
  rcases evicted_cases c with ⟨-, hstay, -⟩ | ⟨p, -, hcons, -⟩
  · rw [← hstay]
    exact h
  · rw [hcons]
    exact List.mem_cons_of_mem _ h

/-- Once the new receipts are there, an index is still that of the block its
    hash stands for. -/
theorem OfChain.index_add_receipts (h : OfChain chain c) (hd : chain d.hash = d) {k : H256}
    {m : Map U256 H256}
    (hm : (c.add_receipts d).receipt_hashes_by_block_and_index.lookup k = some m) :
    m = (chain k).hashes_by_index := by
  by_cases hk : d.receipts ≠ [] ∧ k = d.hash
  · obtain ⟨hne, rfl⟩ := hk
    rw [index_add_receipts_self hne] at hm
    cases hm
    rw [hd]
  · rw [index_add_receipts_of_ne hk] at hm
    exact h.index k m hm

theorem OfChain.on_block (h : OfChain chain c) (hd : chain d.hash = d) :
    OfChain chain (c.on_block d) where
  buffer := by
    intro b hb
    rw [buffer_on_block, List.mem_append, List.mem_singleton] at hb
    rcases hb with hb | rfl
    · exact h.buffer b (mem_of_staying hb)
    · exact hd
  index := by
    intro k m hm
    exact h.index_add_receipts hd (index_on_block.mp hm).1

/-- What the eviction of `p` erases are the transactions of `p`. -/
theorem OfChain.hasTx_of_evicted (h : OfChain chain c) (hd : chain d.hash = d)
    (hp : c.evicted = some p) {entries : Map U256 H256}
    (hentries : (c.add_receipts d).receipt_hashes_by_block_and_index.lookup p.hash =
      some entries) {i : U256} {t : H256} (hi : entries.lookup i = some t) : p.HasTx t := by
  rw [h.index_add_receipts hd hentries, h.buffer p (mem_of_evicted hp)] at hi
  exact SubstrateBlock.hasTx_iff_index.mpr ⟨i, hi⟩

/-- A receipt of a found block is that block's. -/
theorem Found.hash_eq_of_hasTx {q : SubstrateBlock} (hp : c.Found p) (hq : c.Found q) {t : H256}
    (hpt : p.HasTx t) (hqt : q.HasTx t) : p.hash = q.hash := by
  obtain ⟨r, hr, rfl⟩ := hpt
  obtain ⟨s, hs, heq⟩ := hqt
  have hrc := hp.receipt r hr
  have hsc := hq.receipt s hs
  rw [heq, hrc] at hsc
  cases hsc
  rw [← p.receipts_block_hash r hr, ← q.receipts_block_hash r hs]

/-! ## One delivery -/

/-- The new block is found, unless the eviction takes its receipts. -/
theorem found_new (h : OfChain chain c) (hd : chain d.hash = d)
    (hevicted : ∀ p ∈ c.evicted, ¬ p.SharesTx d) :
    (c.on_block d).Found d := by
  have hreceipt : ∀ r ∈ d.receipts,
      (c.on_block d).receipts_by_hash.lookup r.transaction_hash = some r := by
    intro r hr
    refine receipts_on_block.mpr ⟨receipts_add_receipts_of_mem hr, ?_⟩
    intro p hp entries hentries i hi
    exact hevicted p hp ((h.hasTx_of_evicted hd hp hentries hi).shares (.of_mem hr))
  refine ⟨blocks_on_block_self.1, blocks_on_block_self.2, hreceipt, fun r hr => ?_⟩
  refine receipt_by_hash_and_index_eq_some.mpr
    ⟨d.hashes_by_index, r.transaction_hash, index_on_block.mpr ⟨?_, ?_⟩, ?_, hreceipt r hr⟩
  · exact index_add_receipts_self (List.ne_nil_of_mem hr)
  · intro p hp heq
    -- the evicted block is a copy of the new one, and has this receipt
    have hcopy : p = d := by
      rw [← h.buffer p (mem_of_evicted hp), ← heq, hd]
    subst hcopy
    exact hevicted p hp ⟨r, hr, .of_mem hr⟩
  · exact SubstrateBlock.lookup_hashes_by_index.mpr ⟨r, hr, rfl, rfl⟩

/-- A block that stays and is no copy of the new one is found as before. -/
theorem found_staying {q : SubstrateBlock} (h : OfChain chain c) (hd : chain d.hash = d)
    (hserved : c.Served) (hu : c.Undisturbed d) (hq : q ∈ c.staying) (hne : q.hash ≠ d.hash) :
    (c.on_block d).Found q := by
  have hfound := hserved q (mem_of_staying hq)
  have hreceipt : ∀ t r, q.HasTx t → c.receipts_by_hash.lookup t = some r →
      (c.on_block d).receipts_by_hash.lookup t = some r := by
    intro t r ht hr
    refine receipts_on_block.mpr ⟨?_, ?_⟩
    · rw [receipts_add_receipts_of_not_hasTx fun hdt => hu.transactions q hq hne (ht.shares hdt)]
      exact hr
    · -- an erased transaction is the evicted block's, and `q` is no copy of it
      intro p hp entries hentries i hi
      have hpt := h.hasTx_of_evicted hd hp hentries hi
      have hpfound := hserved p (mem_of_evicted hp)
      exact hu.copies p hp q hq hne (hpfound.hash_eq_of_hasTx hfound hpt ht).symm
  constructor
  · exact (blocks_by_hash_on_block hne).mpr
      ⟨hfound.by_hash, fun p hp => hu.copies p hp q hq hne⟩
  · refine (blocks_by_number_on_block (hu.number q hq hne)).mpr ⟨hfound.by_number, ?_⟩
    -- with the number of the evicted block, `q` would be found as that block
    intro p hp heq
    have hpfound := (hserved p (mem_of_evicted hp)).by_number
    rw [← heq, hfound.by_number] at hpfound
    cases hpfound
    exact hu.copies _ hp q hq hne rfl
  · intro r hr
    exact hreceipt _ r (.of_mem hr) (hfound.receipt r hr)
  · intro r hr
    obtain ⟨m, t, hm, hi, ht⟩ := receipt_by_hash_and_index_eq_some.mp
      (hfound.receipt_by_index r hr)
    have hindex := h.index _ _ hm
    rw [h.buffer q (mem_of_staying hq)] at hindex
    subst hindex
    refine receipt_by_hash_and_index_eq_some.mpr ⟨_, t, index_on_block.mpr ⟨?_, ?_⟩, hi, ?_⟩
    · rw [index_add_receipts_of_ne fun hd => hne hd.2]
      exact hm
    · exact fun p hp => hu.copies p hp q hq hne
    · exact hreceipt t r (SubstrateBlock.hasTx_iff_index.mpr ⟨_, hi⟩) ht

/-- **One delivery.** Where every block in the queue is found, this is so
    after the next delivery exactly if that delivery is undisturbed. -/
theorem served_on_block_iff (h : OfChain chain c) (hd : chain d.hash = d) (hserved : c.Served) :
    (c.on_block d).Served ↔ c.Undisturbed d := by
  constructor
  · intro hserved'
    have hnew : (c.on_block d).Found d := by
      apply hserved' d
      rw [buffer_on_block]
      exact List.mem_append_right _ (List.mem_singleton_self d)
    have hstay : ∀ q ∈ c.staying, (c.on_block d).Found q := by
      intro q hq
      apply hserved' q
      rw [buffer_on_block]
      exact List.mem_append_left _ hq
    constructor
    · -- one number is found as one block
      intro q hq hne heq
      have hnumber := (hstay q hq).by_number
      rw [heq, hnew.by_number] at hnumber
      cases hnumber
      exact hne rfl
    · -- and one transaction hash as one receipt, which names its block
      intro q hq hne hshares
      obtain ⟨r, hr, hdt⟩ := hshares
      exact hne ((hstay q hq).hash_eq_of_hasTx hnew (.of_mem hr) hdt)
    · intro p hp q hq hne
      exact ((blocks_by_hash_on_block hne).mp (hstay q hq).by_hash).2 p hp
    · intro p hp hshares
      obtain ⟨r, hr, s, hs, heq⟩ := hshares
      obtain ⟨-, herase⟩ := receipts_on_block.mp (hnew.receipt s hs)
      -- the index of the evicted block is there when it is evicted
      obtain ⟨m, -, hm, -, -⟩ := receipt_by_hash_and_index_eq_some.mp
        ((hserved p (mem_of_evicted hp)).receipt_by_index r hr)
      obtain ⟨entries, hentries⟩ : ∃ entries,
          (c.add_receipts d).receipt_hashes_by_block_and_index.lookup p.hash = some entries := by
        by_cases hph : p.hash = d.hash
        · rw [hph]
          exact ⟨_, index_add_receipts_self (List.ne_nil_of_mem hs)⟩
        · rw [index_add_receipts_of_ne fun hd => hph hd.2]
          exact ⟨m, hm⟩
      refine herase p hp entries hentries r.transaction_index ?_
      rw [h.index_add_receipts hd hentries, h.buffer p (mem_of_evicted hp), heq]
      exact SubstrateBlock.lookup_hashes_by_index.mpr ⟨r, hr, rfl, rfl⟩
  · intro hu b hb
    rw [buffer_on_block, List.mem_append, List.mem_singleton] at hb
    by_cases hcopy : b.hash = d.hash
    · -- a copy of the new block is the new block
      have hbd : b = d := by
        rcases hb with hb | rfl
        · rw [← h.buffer b (mem_of_staying hb), hcopy, hd]
        · rfl
      subst hbd
      exact found_new h hd hu.evicted
    · rcases hb with hb | rfl
      · exact found_staying h hd hserved hu hb hcopy
      · exact absurd rfl hcopy

end on_block

/-! ## Runs of undisturbed deliveries -/

theorem ofChain_default (chain : H256 → SubstrateBlock) :
    OfChain chain (default : BlockCache N) where
  buffer := by
    intro b hb
    cases hb
  index := by
    intro k m hm
    rw [default, Finmap.lookup_empty] at hm
    cases hm

/-- Whatever is delivered, the cache stays one of the chain. -/
theorem ofChain_of_reachable {chain : H256 → SubstrateBlock} {c : BlockCache N}
    (h : Lts.Reachable (system N chain) c) : OfChain chain c := by
  apply Lts.invariant (OfChain chain) _ _ h
  · intro c hc
    rw [hc]
    exact ofChain_default chain
  · intro c d c' _ hchain hstep
    obtain ⟨hd, rfl⟩ := hstep
    exact hchain.on_block hd

/-- **Redelivery.** In every run whose deliveries are all undisturbed, every
    block in the queue is found by hash and by number, and its receipts by
    transaction hash and by index. -/
theorem served_of_undisturbed {chain : H256 → SubstrateBlock} {c : BlockCache N}
    (h : Lts.Reachable ((system N chain).restrict Undisturbed) c) : c.Served := by
  apply Lts.invariant Served _ _ h
  · intro c hc b hb
    rw [hc] at hb
    cases hb
  · intro c d c' hreach hserved hstep
    obtain ⟨hu, hd, rfl⟩ := hstep
    have hchain := ofChain_of_reachable hreach.of_restrict
    exact (served_on_block_iff hchain hd hserved).mpr hu

/-- A chain of blocks `1` and `2`. -/
def sample_chain (h : H256) : SubstrateBlock :=
  if h = (Sample.block 1).hash then Sample.block 1 else Sample.block 2

/-- Block `1`, then block `2` twice, in a cache of two: the second delivery
    of block `2` evicts block `1` and keeps a copy. -/
theorem served_of_undisturbed_sample :
    ((((default : BlockCache 2).on_block (Sample.block 1)).on_block
      (Sample.block 2)).on_block (Sample.block 2)).Served := by
  have h0 : Lts.Reachable ((system 2 sample_chain).restrict Undisturbed) default := .init rfl
  have h1 : Lts.Reachable ((system 2 sample_chain).restrict Undisturbed)
      (default.on_block (Sample.block 1)) :=
    .step (Sample.block 1) h0 ⟨by decide +kernel, by decide +kernel, rfl⟩
  have h2 : Lts.Reachable ((system 2 sample_chain).restrict Undisturbed)
      ((default.on_block (Sample.block 1)).on_block (Sample.block 2)) :=
    .step (Sample.block 2) h1 ⟨by decide +kernel, by decide +kernel, rfl⟩
  exact served_of_undisturbed
    (.step (Sample.block 2) h2 ⟨by decide +kernel, by decide +kernel, rfl⟩)

/-- Block `1` twice, then block `2`, in a cache of two: to make room, the
    first copy of block `1` is evicted, and the second is not found any more. -/
theorem redelivered_block_lost :
    let c := (((default : BlockCache 2).on_block (Sample.block 1)).on_block
      (Sample.block 1)).on_block (Sample.block 2)
    Lts.Reachable (system 2 sample_chain) c ∧ c.buffer = [Sample.block 1, Sample.block 2] ∧
      c.blocks_by_hash.lookup (Sample.block 1).hash = none ∧
      c.blocks_by_number.lookup (Sample.block 1).number = none ∧
      c.receipt (Sample.receipt 1).transaction_hash = none ∧ ¬ c.Served := by
  intro c
  have hlost : c.blocks_by_hash.lookup (Sample.block 1).hash = none := by decide +kernel
  have hbuffer : c.buffer = [Sample.block 1, Sample.block 2] := by decide +kernel
  refine ⟨?_, hbuffer, hlost, by decide +kernel, by decide +kernel, ?_⟩
  · have hsteps := steps_subscribe_blocks (N := 2) sample_chain default
      [.block (Sample.block 1) none, .block (Sample.block 1) none, .block (Sample.block 2) none]
      (by decide +kernel)
    exact hsteps.reachable (.init rfl)
  · intro hserved
    have hfound := (hserved (Sample.block 1) (by rw [hbuffer]; exact List.mem_cons_self)).by_hash
    rw [hlost] at hfound
    cases hfound

end BlockCache

end EthRpc
