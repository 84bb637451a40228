import EthRpc.Rpc.Lookups
import EthRpc.Rpc.ReceiptLookup

/-! # Transaction counts and transaction indices

    The count of a block is the size of its index, and the index is only
    there if the block has a receipt. The indices in it are positions in the
    body of the block, where inherents and native extrinsics have positions
    too.

    * `enumerated_iff`: the indices below the count are those of the
      transactions exactly if these are the first extrinsics of the body.
    * `counts_told_iff`: the counts of the blocks in the queue are told exactly
      if every block has a transaction.
-/

namespace EthRpc

open Routine (get)

/-! ## Requests for counts -/

namespace BlockCache

variable {N : Nat}

/-- What `Client::receipts_count_per_block` returns. -/
def receipts_count_per_block (c : BlockCache N) (block_hash : H256) : Option Nat :=
  (c.receipt_hashes_by_block_and_index.lookup block_hash).map fun v => v.keys.card

end BlockCache

namespace EthRpcServer

variable {N : Nat}

/-- `get_block_transaction_count_by_hash`. -/
def get_block_transaction_count_by_hash (block_hash : Option H256) :
    Op N (Except ClientError (Option U256)) := do
  let block_hash ←
    match block_hash with
    | some block_hash => pure block_hash
    | none =>
      match ← Client.latest_block with
      | some block => pure block.hash
      | none => return .error .BlockNotFound
  let count ← Client.receipts_count_per_block block_hash
  return .ok (count.map (BitVec.ofNat 256))

/-- `Client::evm_block`, as far as its hash goes: the block is made only if
    the runtime answers what the largest weight costs. -/
def evm_block_hash (weight_to_fee : H256 → Except ClientError Balance) (block : SubstrateBlock) :
    Except ClientError H256 := do
  let _ ← weight_to_fee block.hash
  return block.hash

/-- `get_block_transaction_count_by_number`. -/
def get_block_transaction_count_by_number (weight_to_fee : H256 → Except ClientError Balance)
    (block : Option BlockNumberOrTag) : Op N (Except ClientError (Option U256)) := do
  match ← Client.block_by_number_or_tag (block.getD (.BlockTag .Latest)) with
  | .error e => return .error e
  | .ok none => return .ok none
  | .ok (some block) =>
    match evm_block_hash weight_to_fee block with
    | .error e => return .error e
    | .ok hash => do
      let count ← Client.receipts_count_per_block hash
      return .ok (count.map (BitVec.ofNat 256))

section run
variable (node : ∀ q, Answer q) (c : BlockCache N)

theorem run_receipts_count_per_block (h : H256) :
    (Client.receipts_count_per_block h).run node c = (c.receipts_count_per_block h, c) := rfl

theorem run_count_by_hash (h : H256) :
    (get_block_transaction_count_by_hash (some h)).run node c =
      (.ok ((c.receipts_count_per_block h).map (BitVec.ofNat 256)), c) := rfl

/-- The count asked for by number is that of the block that is found, unless
    the block cannot be made. -/
theorem run_count_by_number {weight_to_fee : H256 → Except ClientError Balance}
    {block : Option BlockNumberOrTag} {b : SubstrateBlock}
    (h : (Client.block_by_number_or_tag (block.getD (.BlockTag .Latest))).run node c =
      (.ok (some b), c)) :
    ((get_block_transaction_count_by_number weight_to_fee block).run node c).1 =
      match weight_to_fee b.hash with
      | .error e => .error e
      | .ok _ => .ok ((c.receipts_count_per_block b.hash).map (BitVec.ofNat 256)) := by
  unfold get_block_transaction_count_by_number
  rw [Routine.run_bind, h]
  simp only [evm_block_hash]
  cases weight_to_fee b.hash with
  | error e => rfl
  | ok fee => rfl

end run

end EthRpcServer

/-! ## Receipts and transactions of a block -/

section receipts
variable {Digest : Type} {host : Host Digest} {content : BlockContent}
  {receipts : List ReceiptInfo}

/-- A block has receipts exactly if it has transactions. -/
theorem BlockContent.receipts_eq_nil (h : content.receipt_infos host (.ok receipts)) :
    receipts = [] ↔ content.evm_transactions host = [] := by
  obtain ⟨completed, all, hperm, hall, rfl⟩ := receipt_infos_eq_ok h
  have hlen := (List.mapM_eq_ok.mp hall).length_eq
  rw [Map.collect_eq_nil, ← List.length_eq_zero_iff, ← hlen, hperm.length_eq,
    List.length_eq_zero_iff]

/-- A block has as many receipts as transactions exactly if the hashes of the
    transactions are distinct. -/
theorem BlockContent.length_receipts_eq (h : content.receipt_infos host (.ok receipts)) :
    receipts.length = (content.evm_transactions host).length ↔
      ((content.evm_transactions host).map fun tx => tx.ext.transaction_hash host).Nodup := by
  obtain ⟨completed, all, hperm, hall, rfl⟩ := receipt_infos_eq_ok h
  have hlen := (List.mapM_eq_ok.mp hall).length_eq
  have hhashes := List.map_eq_of_mapM (fun tx => tx.ext.transaction_hash host)
    ReceiptInfo.transaction_hash hall
    fun tx r hr => (ReceiptInfo.of_receipt hr).transaction_hash.symm
  rw [← hperm.length_eq, hlen, Map.length_collect_eq, ← hhashes]
  exact (hperm.map _).nodup_iff

end receipts

namespace BlockCache

variable {N : Nat} {Digest : Type} {host : Host Digest} {chain : ExtractedChain host}
  {c : BlockCache N} {b d : SubstrateBlock} {k : Nat}

theorem card_keys_hashes_by_index (b : SubstrateBlock) :
    b.hashes_by_index.keys.card = b.receipts.length :=
  Map.card_keys_insert_all_empty b.indices_nodup

/-- The number of EVM transactions of a block. -/
def transaction_count (chain : ExtractedChain host) (b : SubstrateBlock) : Nat :=
  ((chain.content b.hash).evm_transactions host).length

/-- No two EVM extrinsics of a block have one transaction hash. -/
def DistinctHashes (chain : ExtractedChain host) (b : SubstrateBlock) : Prop :=
  (((chain.content b.hash).evm_transactions host).map
    fun tx => tx.ext.transaction_hash host).Nodup

instance (chain : ExtractedChain host) (b : SubstrateBlock) :
    Decidable (DistinctHashes chain b) := by
  unfold DistinctHashes
  infer_instance

theorem receipts_of_chain (chain : ExtractedChain host) (hb : chain.block b.hash = b) :
    (chain.content b.hash).receipt_infos host (.ok b.receipts) := by
  have h := (chain.extracted b.hash).receipts
  rwa [hb] at h

/-! ## Counts, over runs of distinct blocks -/

/-- The count of every block in the queue is the number of its transactions,
    no other block has a count, and neither request answers null for a block
    in the queue. -/
structure CountsTold (chain : ExtractedChain host) (c : BlockCache N) : Prop where
  cached : ∀ b ∈ c.buffer, c.receipts_count_per_block b.hash = some (transaction_count chain b)
  unknown : ∀ h, (∀ b ∈ c.buffer, b.hash ≠ h) → c.receipts_count_per_block h = none
  by_hash : ∀ node, ∀ b ∈ c.buffer,
    ((EthRpcServer.get_block_transaction_count_by_hash (some b.hash)).run node c).1 ≠ .ok none
  by_number : ∀ node weight_to_fee block, ∀ b ∈ c.buffer,
    (Client.block_by_number_or_tag (block.getD (.BlockTag .Latest))).run node c =
      (.ok (some b), c) →
    ((EthRpcServer.get_block_transaction_count_by_number weight_to_fee block).run node c).1 ≠
      .ok none

/-- The queue is `w`, and the counts are those of the blocks in it that have
    a receipt. -/
structure CountsOf (c : BlockCache N) (w : List SubstrateBlock) : Prop where
  buffer : c.buffer = w
  count : ∀ h k, c.receipts_count_per_block h = some k ↔
    ∃ b ∈ w, b.hash = h ∧ b.receipts ≠ [] ∧ k = b.receipts.length

theorem countsOf_default : CountsOf (default : BlockCache N) [] where
  buffer := rfl
  count := by simp [BlockCache.receipts_count_per_block, default]

/-- The receipts of a new block bring its count. -/
theorem count_add_receipts {w : List SubstrateBlock} (h : CountsOf c w)
    (hd : ∀ b ∈ w, b.hash ≠ d.hash) (hash : H256) :
    (c.add_receipts d).receipts_count_per_block hash = some k ↔
      ∃ b ∈ w ++ [d], b.hash = hash ∧ b.receipts ≠ [] ∧ k = b.receipts.length := by
  simp only [List.mem_append, List.mem_singleton]
  by_cases hnew : d.receipts ≠ [] ∧ hash = d.hash
  · obtain ⟨hne, rfl⟩ := hnew
    unfold receipts_count_per_block
    rw [index_add_receipts_self hne, Option.map_some, card_keys_hashes_by_index, Option.some.injEq]
    constructor
    · intro hk
      exact ⟨d, Or.inr rfl, rfl, hne, hk.symm⟩
    · intro hb
      obtain ⟨b, hb | rfl, heq, -, hk⟩ := hb
      · exact absurd heq (hd b hb)
      · exact hk.symm
  · have hold : (c.add_receipts d).receipts_count_per_block hash =
        c.receipts_count_per_block hash := by
      unfold receipts_count_per_block
      rw [index_add_receipts_of_ne hnew]
    rw [hold, h.count]
    constructor
    · intro hb
      obtain ⟨b, hb, hrest⟩ := hb
      exact ⟨b, Or.inl hb, hrest⟩
    · intro hb
      obtain ⟨b, hb | rfl, heq, hne, hk⟩ := hb
      · exact ⟨b, hb, heq, hne, hk⟩
      · exact absurd ⟨hne, heq.symm⟩ hnew

/-- The count of the evicted block goes, and no other. -/
theorem count_on_block (hash : H256) :
    (c.on_block d).receipts_count_per_block hash = some k ↔
      (c.add_receipts d).receipts_count_per_block hash = some k ∧
        ∀ p, c.evicted = some p → hash ≠ p.hash := by
  unfold receipts_count_per_block
  simp only [Option.map_eq_some_iff, index_on_block]
  constructor
  · intro h
    obtain ⟨m, ⟨hm, hevict⟩, hk⟩ := h
    exact ⟨⟨m, hm, hk⟩, hevict⟩
  · intro h
    obtain ⟨⟨m, hm, hk⟩, hevict⟩ := h
    exact ⟨m, ⟨hm, hevict⟩, hk⟩

/-- **One delivery** of a block with a new hash. -/
theorem CountsOf.on_block {w : List SubstrateBlock} (h : CountsOf c w)
    (hd : ((w ++ [d]).map SubstrateBlock.hash).Nodup) :
    CountsOf (c.on_block d) (c.staying ++ [d]) := by
  rw [List.map_append, List.map_singleton, List.nodup_append] at hd
  obtain ⟨hw, -, hnew⟩ := hd
  have hne : ∀ b ∈ w, b.hash ≠ d.hash :=
    fun b hb => hnew _ (List.mem_map_of_mem hb) _ (List.mem_singleton_self _)
  refine ⟨buffer_on_block, fun hash k => ?_⟩
  rw [count_on_block, count_add_receipts h hne]
  rcases evicted_cases c with ⟨hevict, hstay, -⟩ | ⟨p, hevict, hcons, -⟩
  · -- nothing is evicted: the blocks are those of `w` and the new one
    rw [hevict, hstay, h.buffer]
    simp
  · -- the first of `w` is evicted, and no other block has its hash
    rw [← h.buffer, hcons, List.map_cons, List.nodup_cons] at hw
    have hp : p.hash ≠ d.hash := hne p (by rw [← h.buffer, hcons]; exact List.mem_cons_self)
    rw [hevict, ← h.buffer, hcons]
    constructor
    · intro hk
      obtain ⟨⟨b, hb, rfl, hrest⟩, hgone⟩ := hk
      rcases List.mem_cons.mp hb with rfl | hb
      · exact absurd rfl (hgone b rfl)
      · exact ⟨b, hb, rfl, hrest⟩
    · intro hk
      obtain ⟨b, hb, rfl, hrest⟩ := hk
      refine ⟨⟨b, List.mem_cons_of_mem _ hb, rfl, hrest⟩, ?_⟩
      intro q hq
      cases hq
      rcases List.mem_append.mp hb with hb | hb
      · intro heq
        exact hw.1 (by rw [← heq]; exact List.mem_map_of_mem hb)
      · cases List.mem_singleton.mp hb
        exact hp.symm

/-- With the new block, the blocks that stay are the last `N`. -/
theorem staying_append (hN : 1 ≤ N) (hlen : c.buffer.length ≤ N) :
    c.staying ++ [d] = (c.buffer ++ [d]).rtake N := by
  unfold staying
  by_cases hfull : c.buffer.length ≥ N
  · rw [if_pos hfull]
    cases hbuffer : c.buffer with
    | nil =>
      rw [hbuffer, List.length_nil] at hfull
      omega
    | cons p rest =>
      rw [hbuffer, List.length_cons] at hfull hlen
      rw [List.tail_cons, List.cons_append, List.rtake_cons_of_length_eq]
      rw [List.length_append, List.length_singleton]
      omega
  · rw [if_neg hfull, List.rtake_of_length_le]
    rw [List.length_append, List.length_singleton]
    omega

/-- The counts of a run. -/
theorem countsOf_foldl (hN : 1 ≤ N) (ds : List SubstrateBlock)
    (hd : (ds.map SubstrateBlock.hash).Nodup) :
    CountsOf (ds.foldl BlockCache.on_block (default : BlockCache N)) (ds.rtake N) := by
  -- from the back: the last delivery meets the blocks of all the others
  induction ds using List.reverseRecOn with
  | nil =>
    rw [List.rtake_nil]
    exact countsOf_default
  | append_singleton ds d ih =>
    have hds := ih ((List.sublist_append_left ds [d]).map _ |>.nodup hd)
    rw [List.foldl_append, List.foldl_cons, List.foldl_nil, List.rtake_concat_rtake,
      ← hds.buffer, ← staying_append hN (by rw [hds.buffer]; exact List.rtake_length_le ds N)]
    refine hds.on_block (List.Nodup.sublist (List.Sublist.map _ ?_) hd)
    exact (List.rtake_sublist ds N).append (List.Sublist.refl _)

/-- **Counts.** After any stream of blocks of a chain that share no hash, the
    counts are told exactly if each of the last `N` blocks taken in has a
    transaction, and none has one hash for two. -/
theorem counts_told_iff (hN : 1 ≤ N) (chain : ExtractedChain host) (items : List StreamItem)
    (hd : ((delivered items).map SubstrateBlock.hash).Nodup)
    (hchain : ∀ d ∈ delivered items, chain.block d.hash = d) :
    CountsTold chain (subscribe_blocks (default : BlockCache N) items).1 ↔
      ∀ b ∈ (delivered items).rtake N,
        (chain.content b.hash).evm_transactions host ≠ [] ∧ DistinctHashes chain b := by
  have hcounts := countsOf_foldl hN (delivered items) hd
  rw [subscribe_blocks_fst]
  have hsub := List.rtake_sublist (delivered items) N
  -- what is known of a block in the queue
  have hreceipts : ∀ b ∈ (delivered items).rtake N,
      (chain.content b.hash).receipt_infos host (.ok b.receipts) :=
    fun b hb => receipts_of_chain chain (hchain b (hsub.subset hb))
  constructor
  · intro h b hb
    have hcount := h.cached b (by rw [hcounts.buffer]; exact hb)
    obtain ⟨a, ha, hhash, hne, hlen⟩ := (hcounts.count _ _).mp hcount
    have hab : a = b := List.inj_on_of_nodup_map ((hsub.map _).nodup hd) ha hb hhash
    subst hab
    exact ⟨fun hnil => hne ((BlockContent.receipts_eq_nil (hreceipts a ha)).mpr hnil),
      (BlockContent.length_receipts_eq (hreceipts a ha)).mp hlen.symm⟩
  · intro h
    have hcached : ∀ b ∈ (delivered items).rtake N,
        ((delivered items).foldl BlockCache.on_block
          (default : BlockCache N)).receipts_count_per_block b.hash =
            some (transaction_count chain b) := by
      intro b hb
      obtain ⟨hne, hhashes⟩ := h b hb
      exact (hcounts.count _ _).mpr ⟨b, hb, rfl,
        fun hnil => hne ((BlockContent.receipts_eq_nil (hreceipts b hb)).mp hnil),
        ((BlockContent.length_receipts_eq (hreceipts b hb)).mpr hhashes).symm⟩
    rw [← hcounts.buffer] at hcached
    refine ⟨hcached, ?_, ?_, ?_⟩
    · intro hash hunknown
      rw [hcounts.buffer] at hunknown
      by_contra hsome
      obtain ⟨k, hk⟩ := Option.ne_none_iff_exists'.mp hsome
      obtain ⟨b, hb, heq, -⟩ := (hcounts.count _ _).mp hk
      exact hunknown b hb heq
    · intro node b hb
      rw [EthRpcServer.run_count_by_hash, hcached b hb]
      simp
    · intro node weight_to_fee block b hb hblock
      rw [EthRpcServer.run_count_by_number node _ hblock, hcached b hb]
      cases weight_to_fee b.hash with
      | error e => simp
      | ok fee => simp

/-! ## Indices below the count -/

/-- The receipts in the cache are receipts of the chain's blocks. -/
theorem receipt_of_chain {chain : H256 → SubstrateBlock} {c : BlockCache N}
    (h : Lts.Reachable (system N chain) c) :
    ∀ t r, c.receipts_by_hash.lookup t = some r →
      r ∈ (chain r.block_hash).receipts ∧ r.transaction_hash = t := by
  apply Lts.invariant (fun c => ∀ t r, c.receipts_by_hash.lookup t = some r →
      r ∈ (chain r.block_hash).receipts ∧ r.transaction_hash = t) _ _ h
  · intro c hc t r hr
    rw [hc] at hr
    cases hr
  · intro c d c' _ hold hstep t r hr
    obtain ⟨hd, rfl⟩ := hstep
    obtain ⟨hadd, -⟩ := receipts_on_block.mp hr
    by_cases ht : d.HasTx t
    · -- a receipt of the new block
      obtain ⟨s, hs, rfl⟩ := ht
      rw [receipts_add_receipts_of_mem hs] at hadd
      rw [← Option.some.inj hadd, d.receipts_block_hash s hs, hd]
      exact ⟨hs, rfl⟩
    · rw [receipts_add_receipts_of_not_hasTx ht] at hadd
      exact hold t r hadd

/-- Asking for the indices below `k` finds every EVM transaction of the block:
    these are the indices for which there is an answer, and the answer for
    the index of a transaction is its receipt. -/
structure Enumerated (chain : ExtractedChain host) (c : BlockCache N) (b : SubstrateBlock)
    (k : Nat) : Prop where
  succeeds : ∀ i, (c.receipt_by_hash_and_index b.hash i).isSome ↔ i.toNat < k
  visits : ∀ i, chain.HasIndex b i → ∃ r, c.receipt_by_hash_and_index b.hash i = some r ∧
    r.block_hash = b.hash ∧ r.transaction_index = i

/-- The condition: the EVM extrinsics are the first of the body, no two of
    them have one transaction hash, and the receipts of the block are still
    under their hashes. -/
structure Leading (chain : ExtractedChain host) (c : BlockCache N) (b : SubstrateBlock) : Prop where
  first : ∀ i, chain.HasIndex b i ↔ i.toNat < transaction_count chain b
  distinct : DistinctHashes chain b
  kept : ∀ r ∈ b.receipts, c.receipt r.transaction_hash = some r

section enumerated
variable {b : SubstrateBlock}

/-- A receipt of a block has the index of one of its transactions. -/
theorem hasIndex_of_receipt (hself : chain.block b.hash = b) (hr : r ∈ b.receipts) :
    chain.HasIndex b r.transaction_index := by
  obtain ⟨tx, htx, hof⟩ := BlockContent.exists_of_mem_receipts (receipts_of_chain chain hself) hr
  exact ⟨tx, htx, hof.transaction_index⟩

/-- The count is the number of receipts. -/
theorem count_eq_length (h : OfChain chain.block c) (hself : chain.block b.hash = b)
    (hk : c.receipts_count_per_block b.hash = some k) : k = b.receipts.length := by
  obtain ⟨m, hm, rfl⟩ := Option.map_eq_some_iff.mp hk
  have hindex := h.index _ _ hm
  rw [hself] at hindex
  rw [hindex]
  exact card_keys_hashes_by_index b

/-- An index is answered for if a receipt of the block has it. -/
theorem receipt_by_hash_and_index_iff (h : OfChain chain.block c)
    (hself : chain.block b.hash = b) (hk : c.receipts_count_per_block b.hash = some k) :
    c.receipt_by_hash_and_index b.hash i = some r ↔
      ∃ s ∈ b.receipts, s.transaction_index = i ∧ c.receipt s.transaction_hash = some r := by
  obtain ⟨m, hm, -⟩ := Option.map_eq_some_iff.mp hk
  have hindex := h.index _ _ hm
  rw [hself] at hindex
  rw [hindex] at hm
  rw [receipt_by_hash_and_index_eq_some]
  constructor
  · intro hex
    obtain ⟨m', t, hm', hi, ht⟩ := hex
    rw [hm] at hm'
    cases hm'
    obtain ⟨s, hs, hsi, rfl⟩ := SubstrateBlock.lookup_hashes_by_index.mp hi
    exact ⟨s, hs, hsi, ht⟩
  · intro hex
    obtain ⟨s, hs, hsi, ht⟩ := hex
    exact ⟨_, _, hm, SubstrateBlock.lookup_hashes_by_index.mpr ⟨s, hs, hsi, rfl⟩, ht⟩

/-- Where every transaction is visited, the receipt that is found under the
    hash of one is its own. -/
theorem Enumerated.kept (h : Lts.Reachable (system N chain.block) c)
    (hself : chain.block b.hash = b) (hk : c.receipts_count_per_block b.hash = some k)
    (henum : Enumerated chain c b k) (hr : r ∈ b.receipts) :
    c.receipt r.transaction_hash = some r := by
  obtain ⟨r', hr', hblock, hri⟩ := henum.visits _ (hasIndex_of_receipt hself hr)
  obtain ⟨s, hs, hsi, ht⟩ :=
    (receipt_by_hash_and_index_iff (ofChain_of_reachable h) hself hk).mp hr'
  have hsr : s = r := List.inj_on_of_nodup_map b.indices_nodup hs hr hsi
  subst hsr
  obtain ⟨hmem, -⟩ := receipt_of_chain h _ _ ht
  rw [hblock, hself] at hmem
  have hrr : r' = s := List.inj_on_of_nodup_map b.indices_nodup hmem hs hri
  rw [ht, hrr]

theorem Enumerated.leading (h : Lts.Reachable (system N chain.block) c)
    (hself : chain.block b.hash = b) (hk : c.receipts_count_per_block b.hash = some k)
    (henum : Enumerated chain c b k) : Leading chain c b := by
  have hchain := ofChain_of_reachable h
  have hown : ∀ i, chain.HasIndex b i → ∃ r ∈ b.receipts, r.transaction_index = i := by
    intro i hi
    obtain ⟨r', hr', -⟩ := henum.visits i hi
    obtain ⟨r, hr, hri, -⟩ := (receipt_by_hash_and_index_iff hchain hself hk).mp hr'
    exact ⟨r, hr, hri⟩
  have hdistinct := (exists_receipt_iff hself).mp hown
  have hlen := (BlockContent.length_receipts_eq (receipts_of_chain chain hself)).mpr hdistinct
  refine ⟨fun i => ?_, hdistinct, fun r hr => henum.kept h hself hk hr⟩
  show _ ↔ i.toNat < ((chain.content b.hash).evm_transactions host).length
  rw [← hlen, ← count_eq_length hchain hself hk, ← henum.succeeds i, Option.isSome_iff_exists]
  constructor
  · intro hi
    obtain ⟨r', hr', -⟩ := henum.visits i hi
    exact ⟨r', hr'⟩
  · intro hi
    obtain ⟨r', hr'⟩ := hi
    obtain ⟨r, hr, rfl, -⟩ := (receipt_by_hash_and_index_iff hchain hself hk).mp hr'
    exact hasIndex_of_receipt hself hr

theorem Leading.enumerated (h : OfChain chain.block c) (hself : chain.block b.hash = b)
    (hk : c.receipts_count_per_block b.hash = some k) (hlead : Leading chain c b) :
    Enumerated chain c b k := by
  have hlen := (BlockContent.length_receipts_eq (receipts_of_chain chain hself)).mpr hlead.distinct
  have hown := (exists_receipt_iff hself).mpr hlead.distinct
  refine ⟨fun i => ?_, fun i hi => ?_⟩
  · rw [count_eq_length h hself hk, hlen, ← transaction_count, ← hlead.first i,
      Option.isSome_iff_exists]
    constructor
    · intro hi
      obtain ⟨r', hr'⟩ := hi
      obtain ⟨r, hr, rfl, -⟩ := (receipt_by_hash_and_index_iff h hself hk).mp hr'
      exact hasIndex_of_receipt hself hr
    · intro hi
      obtain ⟨r, hr, hri⟩ := hown i hi
      exact ⟨r, (receipt_by_hash_and_index_iff h hself hk).mpr ⟨r, hr, hri, hlead.kept r hr⟩⟩
  · obtain ⟨r, hr, hri⟩ := hown i hi
    exact ⟨r, (receipt_by_hash_and_index_iff h hself hk).mpr ⟨r, hr, hri, hlead.kept r hr⟩,
      b.receipts_block_hash r hr, hri⟩

end enumerated

/-- **Enumerating by index.** In every reachable state, for every block in
    the queue that has a count: the indices below the count are those of the
    block's transactions exactly if the transactions are the first
    extrinsics of the body, with distinct hashes and receipts still there. -/
theorem enumerated_iff (h : Lts.Reachable (system N chain.block) c) (hb : b ∈ c.buffer)
    (hk : c.receipts_count_per_block b.hash = some k) :
    Enumerated chain c b k ↔ Leading chain c b := by
  have hself := (ofChain_of_reachable h).buffer b hb
  exact ⟨fun henum => henum.leading h hself hk,
    fun hlead => hlead.enumerated (ofChain_of_reachable h) hself hk⟩

end BlockCache

/-! ## Sample bodies -/

namespace Sample

/-- An extrinsic that is no EVM extrinsic: an inherent, or a native one. -/
def native_details : ExtrinsicDetails where
  bytes := no_bytes
  address_bytes := none
  as_eth_instantiate := .ok none
  as_eth_call := .ok none
  events := .ok []

/-- Block `1` with this body. -/
def content_of (extrinsics : List (Except ClientError ExtrinsicDetails))
    (h : extrinsics.length ≤ 2 ^ 32) : BlockContent where
  hash := be_low 32 1
  number := 1
  extrinsics := .ok extrinsics
  length_le := by
    intro l hl
    cases hl
    exact h

/-- A body with one native extrinsic. -/
def native_content : BlockContent := content_of [.ok native_details] (by decide)

/-- A body with a call of the contracts pallet behind an inherent. -/
def content_after_inherent : BlockContent :=
  content_of [.ok native_details, .ok (eth_call_details no_bytes succeeded)] (by decide)

/-- The receipt of that call: its index is its position in the body. -/
def receipt_after_inherent : ReceiptInfo :=
  { eth_call_receipt 1 (List.Vector.replicate 32 0) with transaction_index := 1 }

theorem receipt_infos_native : native_content.receipt_infos table.host (.ok []) :=
  ⟨[], .refl _, rfl⟩

theorem receipt_infos_after_inherent :
    content_after_inherent.receipt_infos table.host (.ok [receipt_after_inherent]) :=
  ⟨_, .refl _, by decide +kernel⟩

/-- A chain of one block. -/
def one_block_chain {content : BlockContent} {receipts : List ReceiptInfo}
    (h : content.receipt_infos table.host (.ok receipts)) : ExtractedChain table.host where
  content _ := content
  block _ := content.substrate_block receipts h
  extracted _ := BlockContent.extracted h

/-- Bytes of different lengths. -/
def bytes_of (k : Fin 6) : Scale.Vec := ⟨List.replicate k 0, by simp; omega⟩

/-- A block with two calls of the contracts pallet, and with a native extrinsic
    behind them. -/
def long_content (i : Fin 3) : BlockContent where
  hash := be_low 32 i
  number := BitVec.ofNat 32 i
  extrinsics := .ok [.ok (eth_call_details (bytes_of (2 * i.castLE (by decide))) succeeded),
    .ok (eth_call_details (bytes_of (2 * i.castLE (by decide) + 1)) succeeded), .ok native_details]
  length_le := by
    intro l hl
    cases hl
    simp

/-- The receipt of the call with these bytes. -/
def long_receipt (i : Fin 3) (k : Fin 6) (index : U256) : ReceiptInfo :=
  { eth_call_receipt i (length_host.blake2_256 (Scale.vec_encode (bytes_of k))) with
    transaction_index := index }

def long_receipts (i : Fin 3) : List ReceiptInfo :=
  [long_receipt i (2 * i.castLE (by decide)) 0, long_receipt i (2 * i.castLE (by decide) + 1) 1]

theorem receipt_infos_long (i : Fin 3) :
    (long_content i).receipt_infos length_host (.ok (long_receipts i)) := by
  refine ⟨_, .refl _, ?_⟩
  match i with
  | 0 => decide +kernel
  | 1 => decide +kernel
  | 2 => decide +kernel

def long_block (i : Fin 3) : SubstrateBlock :=
  (long_content i).substrate_block _ (receipt_infos_long i)

/-- The block of this hash. -/
def block_index (h : H256) : Fin 3 :=
  if h = be_low 32 0 then 0 else if h = be_low 32 1 then 1 else 2

theorem block_index_hash (i : Fin 3) : block_index (be_low 32 i) = i := by
  match i with
  | 0 => decide +kernel
  | 1 => decide +kernel
  | 2 => decide +kernel

/-- A chain of three such blocks. -/
def long_chain : ExtractedChain length_host where
  content h := long_content (block_index h)
  block h := long_block (block_index h)
  extracted _ := BlockContent.extracted (receipt_infos_long _)

theorem long_chain_block (i : Fin 3) : long_chain.block (long_block i).hash = long_block i :=
  congrArg long_block (block_index_hash i)

theorem long_block_counted (i : Fin 3) :
    (long_chain.content (long_block i).hash).evm_transactions length_host ≠ [] ∧
      BlockCache.DistinctHashes long_chain (long_block i) := by
  match i with
  | 0 => exact ⟨by decide +kernel, by decide +kernel⟩
  | 1 => exact ⟨by decide +kernel, by decide +kernel⟩
  | 2 => exact ⟨by decide +kernel, by decide +kernel⟩

/-- The blocks in their order, with the connection lost in between. -/
def long_items : List BlockCache.StreamItem :=
  [.block (long_block 0) none, .disconnected_will_reconnect, .block (long_block 1) none,
    .block (long_block 2) none]

end Sample

namespace BlockCache

/-- After three blocks, the second is one of two in the cache: its two calls
    are in front of its native extrinsic. -/
theorem enumerated_iff_sample :
    Enumerated Sample.long_chain (subscribe_blocks (default : BlockCache 2) Sample.long_items).1
      (Sample.long_block 1) 2 := by
  have hstep (i : Fin 3) {c : BlockCache 2}
      (h : Lts.Reachable (system 2 Sample.long_chain.block) c) :
      Lts.Reachable (system 2 Sample.long_chain.block) (c.on_block (Sample.long_block i)) :=
    h.step (Sample.long_block i) ⟨Sample.long_chain_block i, rfl⟩
  have hreach : Lts.Reachable (system 2 Sample.long_chain.block)
      (subscribe_blocks (default : BlockCache 2) Sample.long_items).1 :=
    hstep 2 (hstep 1 (hstep 0 (.init rfl)))
  refine (enumerated_iff hreach (by decide +kernel) (by decide +kernel)).mpr
    ⟨fun i => ?_, by decide +kernel, by decide +kernel⟩
  have hcount : transaction_count Sample.long_chain (Sample.long_block 1) = 2 := by decide +kernel
  have hindices : ((Sample.long_chain.content (Sample.long_block 1).hash).evm_transactions
      Sample.length_host).map (fun tx => tx.index.setWidth 256) = ([0, 1] : List U256) := by
    decide +kernel
  have hindex : Sample.long_chain.HasIndex (Sample.long_block 1) i ↔ i ∈ ([0, 1] : List U256) := by
    rw [← hindices, List.mem_map]
    exact exists_congr fun tx => and_congr_right fun _ => eq_comm
  rw [hindex, hcount, List.mem_pair]
  constructor
  · rintro (rfl | rfl)
    · decide
    · decide
  · intro hi
    bv_omega

/-- A call behind an inherent: the count is one, nothing is found at index
    zero, and the receipt is found at index one. -/
theorem transaction_not_enumerated :
    let chain := Sample.one_block_chain Sample.receipt_infos_after_inherent
    let b := Sample.content_after_inherent.substrate_block _ Sample.receipt_infos_after_inherent
    let c := (default : BlockCache 2).on_block b
    Lts.Reachable (system 2 chain.block) c ∧ b ∈ c.buffer ∧
      c.receipts_count_per_block b.hash = some 1 ∧
      c.receipt_by_hash_and_index b.hash 0 = none ∧
      c.receipt_by_hash_and_index b.hash 1 = some Sample.receipt_after_inherent ∧
      ¬ Enumerated chain c b 1 := by
  intro chain b c
  have hnone : c.receipt_by_hash_and_index b.hash 0 = none := by decide +kernel
  refine ⟨(Lts.Reachable.init rfl).step b ⟨rfl, rfl⟩, by decide +kernel, by decide +kernel, hnone,
    by decide +kernel, ?_⟩
  intro h
  have hsome := (h.succeeds 0).mpr (by decide)
  rw [hnone] at hsome
  cases hsome

/-- After three blocks with calls, the counts of the last two are told. -/
theorem counts_told_iff_sample :
    CountsTold Sample.long_chain
      (subscribe_blocks (default : BlockCache 2) Sample.long_items).1 := by
  refine (counts_told_iff (by omega) Sample.long_chain Sample.long_items (by decide +kernel)
    ?_).mpr ?_
  · intro d hd
    obtain ⟨i, -, rfl⟩ := List.mem_map.mp
      (show d ∈ [0, 1, 2].map Sample.long_block from hd)
    exact Sample.long_chain_block i
  · intro d hd
    obtain ⟨i, -, rfl⟩ := List.mem_map.mp (show d ∈ [1, 2].map Sample.long_block from hd)
    exact Sample.long_block_counted i

/-- A block without a call: it is in the cache, and no count is told. -/
theorem empty_block_not_counted :
    let chain := Sample.one_block_chain Sample.receipt_infos_native
    let b := Sample.native_content.substrate_block _ Sample.receipt_infos_native
    let c := (subscribe_blocks (default : BlockCache 2) [.block b none]).1
    chain.block b.hash = b ∧ b ∈ c.buffer ∧ c.blocks_by_hash.lookup b.hash = some b ∧
      transaction_count chain b = 0 ∧ c.receipts_count_per_block b.hash = none ∧
      (∀ node, ((EthRpcServer.get_block_transaction_count_by_hash (some b.hash)).run node c).1 =
        .ok none) ∧ ¬ CountsTold chain c := by
  intro chain b c
  have hnone : c.receipts_count_per_block b.hash = none := by decide +kernel
  refine ⟨rfl, by decide +kernel, by decide +kernel, rfl, hnone, fun node => ?_, ?_⟩
  · rw [EthRpcServer.run_count_by_hash, hnone]
    rfl
  · intro h
    have hsome := h.cached b (by decide +kernel)
    rw [hnone] at hsome
    cases hsome

end BlockCache

end EthRpc
