import EthRpc.Rpc.Receipts
import EthRpc.Rpc.Redelivery

/-! # Receipts by block hash and index

    The index of a block leads to transaction hashes, and those to receipts
    in a map that all blocks share. One extrinsic in two blocks is one
    entry there: the later block overwrites it, and when either block is
    evicted, the entry goes.

    `ExtractedChain` ties the blocks of the cache to the extrinsics their
    receipts are made from. `answered_of_fresh`: as long as no delivered
    block has a transaction hash of its own twice, or one in common with a
    block in the queue, every EVM extrinsic of a block in the queue has its
    receipt, and a further delivery changes none.
-/

namespace EthRpc

/-! ## Blocks and their extrinsics -/

/-- A block of the cache is extracted from the extrinsics of a block. -/
structure Extracted {Digest : Type} (host : Host Digest) (content : BlockContent)
    (b : SubstrateBlock) : Prop where
  hash : b.hash = content.hash
  number : b.number = content.number
  receipts : content.receipt_infos host (.ok b.receipts)

section extracted
variable {Digest : Type} {host : Host Digest} {content : BlockContent}
  {receipts : List ReceiptInfo}

theorem BlockContent.nodup_receipt_index (h : content.receipt_infos host (.ok receipts)) :
    (receipts.map ReceiptInfo.transaction_index).Nodup := by
  refine List.Nodup.map_on ?_ (nodup_receipts h).of_map
  -- two receipts with one index are of one extrinsic, so they have one hash
  intro r hr r' hr' heq
  obtain ⟨tx, htx, hof⟩ := exists_of_mem_receipts h hr
  have hof' := of_index h hr' htx (heq.symm.trans hof.transaction_index)
  exact List.inj_on_of_nodup_map (nodup_receipts h) hr hr'
    (hof.transaction_hash.trans hof'.transaction_hash.symm)

/-- The block of the cache that is extracted from given receipts. -/
def BlockContent.substrate_block (content : BlockContent) (receipts : List ReceiptInfo)
    (h : content.receipt_infos host (.ok receipts)) : SubstrateBlock where
  hash := content.hash
  number := content.number
  receipts := receipts
  hashes_nodup := nodup_receipts h
  indices_nodup := nodup_receipt_index h
  receipts_block_hash := by
    intro r hr
    obtain ⟨tx, -, hof⟩ := exists_of_mem_receipts h hr
    exact hof.block_hash

theorem BlockContent.extracted (h : content.receipt_infos host (.ok receipts)) :
    Extracted host content (content.substrate_block receipts h) :=
  ⟨rfl, rfl, h⟩

end extracted

/-- A hash stands for the content of a block, and for the block the client
    extracts from it. -/
structure ExtractedChain {Digest : Type} (host : Host Digest) where
  content : H256 → BlockContent
  block : H256 → SubstrateBlock
  extracted : ∀ h, Extracted host (content h) (block h)

/-- The index `i` is that of an EVM extrinsic of the block. -/
def ExtractedChain.HasIndex {Digest : Type} {host : Host Digest} (chain : ExtractedChain host)
    (b : SubstrateBlock) (i : U256) : Prop :=
  ∃ tx ∈ (chain.content b.hash).evm_transactions host, i = tx.index.setWidth 256

namespace BlockCache

variable {N : Nat} {Digest : Type} {host : Host Digest} {chain : ExtractedChain host}
  {c : BlockCache N} {b d p q : SubstrateBlock}

/-! ## What is asked for -/

/-- Every EVM extrinsic of every block in the queue has a receipt, which is
    of that block and that index. -/
def Answered (chain : ExtractedChain host) (c : BlockCache N) : Prop :=
  ∀ b ∈ c.buffer, ∀ i, chain.HasIndex b i →
    ∃ r, c.receipt_by_hash_and_index b.hash i = some r ∧ r.block_hash = b.hash ∧
      r.transaction_index = i

/-- The next delivery changes no answer for a block that stays in the queue. -/
def Unchanged (chain : ExtractedChain host) (c : BlockCache N) (d : SubstrateBlock) : Prop :=
  ∀ b ∈ c.buffer, b ∈ (c.on_block d).buffer → ∀ i, chain.HasIndex b i →
    (c.on_block d).receipt_by_hash_and_index b.hash i = c.receipt_by_hash_and_index b.hash i

/-- The condition: no two EVM extrinsics of `d` have one transaction hash,
    and no block in the queue has one in common with `d`. -/
structure Fresh (chain : ExtractedChain host) (c : BlockCache N) (d : SubstrateBlock) : Prop where
  own : (((chain.content d.hash).evm_transactions host).map
    fun tx => tx.ext.transaction_hash host).Nodup
  others : ∀ q ∈ c.buffer, ¬ q.SharesTx d

/-! ## The invariant -/

/-- The receipts of a block are found in both ways. -/
def Kept (c : BlockCache N) (b : SubstrateBlock) : Prop :=
  ∀ r ∈ b.receipts, c.receipt r.transaction_hash = some r ∧
    c.receipt_by_hash_and_index b.hash r.transaction_index = some r

/-- The receipts of all blocks in the queue are found, each is that of an
    extrinsic and no extrinsic is without one, and no two blocks have a
    transaction hash in common. -/
structure Separate (chain : ExtractedChain host) (c : BlockCache N) : Prop where
  kept : ∀ b ∈ c.buffer, c.Kept b
  own : ∀ b ∈ c.buffer, ∀ i, chain.HasIndex b i → ∃ r ∈ b.receipts, r.transaction_index = i
  apart : c.buffer.Pairwise fun a b => ¬ a.SharesTx b

theorem Separate.answered (h : Separate chain c) : Answered chain c := by
  intro b hb i hi
  obtain ⟨r, hr, rfl⟩ := h.own b hb i hi
  exact ⟨r, (h.kept b hb r hr).2, b.receipts_block_hash r hr, rfl⟩

/-- The evicted block has no transaction hash in common with one that stays. -/
theorem Separate.evicted_apart (h : Separate chain c) (hp : c.evicted = some p)
    (hq : q ∈ c.staying) : ¬ p.SharesTx q := by
  rcases evicted_cases c with ⟨hnone, -, -⟩ | ⟨p', hsome, hcons, -⟩
  · rw [hp] at hnone
    cases hnone
  · rw [hp] at hsome
    cases hsome
    have hapart := h.apart
    rw [hcons, List.pairwise_cons] at hapart
    exact hapart.1 q hq

theorem staying_sublist (c : BlockCache N) : c.staying.Sublist c.buffer := by
  rcases evicted_cases c with ⟨-, hstay, -⟩ | ⟨p, -, hcons, -⟩
  · rw [hstay]
  · rw [hcons]
    exact List.sublist_cons_self _ _

/-- Every index of an extracted block has a receipt, if its transaction
    hashes are distinct. -/
theorem exists_receipt_iff (hd : chain.block d.hash = d) :
    (∀ i, chain.HasIndex d i → ∃ r ∈ d.receipts, r.transaction_index = i) ↔
      (((chain.content d.hash).evm_transactions host).map
        fun tx => tx.ext.transaction_hash host).Nodup := by
  have hreceipts := (chain.extracted d.hash).receipts
  rw [hd] at hreceipts
  rw [← BlockContent.all_receipts_iff hreceipts]
  constructor
  · intro h tx htx
    exact h _ ⟨tx, htx, rfl⟩
  · intro h i hi
    obtain ⟨tx, htx, rfl⟩ := hi
    exact h tx htx

/-! ## One delivery -/

/-- A block that stays keeps its receipts. -/
theorem kept_staying (h : Separate chain c) (hchain : OfChain chain.block c)
    (hd : chain.block d.hash = d) (hfresh : Fresh chain c d) (hq : q ∈ c.staying) :
    (c.on_block d).Kept q := by
  intro r hr
  have hqb := mem_of_staying hq
  obtain ⟨hreceipt, hindex⟩ := h.kept q hqb r hr
  -- `d` has none of its transactions, so it is another block
  have hdt : ¬ d.HasTx r.transaction_hash := fun hdt => hfresh.others q hqb ⟨r, hr, hdt⟩
  have hne : q.hash ≠ d.hash := by
    intro heq
    have hqd : q = d := by rw [← hchain.buffer q hqb, heq, hd]
    subst hqd
    exact hdt (.of_mem hr)
  have hkept : (c.on_block d).receipts_by_hash.lookup r.transaction_hash = some r := by
    refine receipts_on_block.mpr ⟨?_, ?_⟩
    · rw [receipts_add_receipts_of_not_hasTx hdt]
      exact hreceipt
    · intro p hp entries hentries i hi
      exact h.evicted_apart hp hq ((hchain.hasTx_of_evicted hd hp hentries hi).shares (.of_mem hr))
  refine ⟨hkept, ?_⟩
  obtain ⟨m, t, hm, hi, ht⟩ := receipt_by_hash_and_index_eq_some.mp hindex
  have hmq := hchain.index _ _ hm
  rw [hchain.buffer q hqb] at hmq
  subst hmq
  -- the index leads to the hash of `r`
  have hself : q.hashes_by_index.lookup r.transaction_index = some r.transaction_hash :=
    SubstrateBlock.lookup_hashes_by_index.mpr ⟨r, hr, rfl, rfl⟩
  refine receipt_by_hash_and_index_eq_some.mpr
    ⟨_, r.transaction_hash, index_on_block.mpr ⟨?_, ?_⟩, hself, hkept⟩
  · rw [index_add_receipts_of_ne fun hd => hne hd.2]
    exact hm
  · -- the evicted block is no copy of `q`, which has a transaction
    intro p hp heq
    have hpq : p = q := by
      rw [← hchain.buffer p (mem_of_evicted hp), ← heq, hchain.buffer q hqb]
    subst hpq
    exact h.evicted_apart hp hq ⟨r, hr, .of_mem hr⟩

/-- **One delivery** keeps the blocks separate. -/
theorem Separate.on_block (h : Separate chain c) (hchain : OfChain chain.block c)
    (hd : chain.block d.hash = d) (hfresh : Fresh chain c d) :
    Separate chain (c.on_block d) where
  kept := by
    intro b hb
    rw [buffer_on_block, List.mem_append, List.mem_singleton] at hb
    rcases hb with hb | rfl
    · exact kept_staying h hchain hd hfresh hb
    · have hfound := found_new hchain hd fun p hp => hfresh.others p (mem_of_evicted hp)
      exact fun r hr => ⟨hfound.receipt r hr, hfound.receipt_by_index r hr⟩
  own := by
    intro b hb
    rw [buffer_on_block, List.mem_append, List.mem_singleton] at hb
    rcases hb with hb | rfl
    · exact h.own b (mem_of_staying hb)
    · exact (exists_receipt_iff hd).mpr hfresh.own
  apart := by
    rw [buffer_on_block, List.pairwise_append]
    refine ⟨h.apart.sublist (staying_sublist c), List.pairwise_singleton _ _, ?_⟩
    intro q hq d' hd'
    cases List.mem_singleton.mp hd'
    exact hfresh.others q (mem_of_staying hq)

/-- No answer for a block that stays is changed. -/
theorem Separate.unchanged (h : Separate chain c) (h' : Separate chain (c.on_block d)) :
    Unchanged chain c d := by
  intro b hb hb' i hi
  obtain ⟨r, hr, rfl⟩ := h.own b hb i hi
  rw [(h.kept b hb r hr).2, (h'.kept b hb' r hr).2]

/-! ## Runs -/

theorem separate_of_reachable
    (h : Lts.Reachable ((system N chain.block).restrict (Fresh chain)) c) : Separate chain c := by
  apply Lts.invariant (Separate chain) _ _ h
  · intro c hc
    rw [hc]
    exact ⟨by simp [default], by simp [default], by simp [default]⟩
  · intro c d c' hreach hsep hstep
    obtain ⟨hfresh, hd, rfl⟩ := hstep
    exact hsep.on_block (ofChain_of_reachable hreach.of_restrict) hd hfresh

/-- **Receipts belong to their block.** In every run whose deliveries are all
    fresh, every EVM extrinsic of every block in the queue has its receipt,
    and the next delivery of the run changes none of those that stay. -/
theorem answered_of_fresh
    (h : Lts.Reachable ((system N chain.block).restrict (Fresh chain)) c) :
    Answered chain c ∧ ∀ d c', ((system N chain.block).restrict (Fresh chain)).step c d c' →
      Unchanged chain c d := by
  have hsep := separate_of_reachable h
  refine ⟨hsep.answered, ?_⟩
  intro d c' hstep
  have hsep' := separate_of_reachable (h.step d hstep)
  obtain ⟨-, -, rfl⟩ := hstep
  exact hsep.unchanged hsep'

/-! ## The condition is exact -/

/-- What is answered at the index of a receipt, if it is of the block that
    was asked for: the transaction hash leads to a receipt of the block. -/
theorem Answered.receipt_of (h : Answered chain c) (hchain : OfChain chain.block c)
    (hb : b ∈ c.buffer) {t : H256} (ht : b.HasTx t) :
    ∃ r, c.receipts_by_hash.lookup t = some r ∧ r.block_hash = b.hash := by
  obtain ⟨s, hs, rfl⟩ := ht
  have hreceipts := (chain.extracted b.hash).receipts
  rw [hchain.buffer b hb] at hreceipts
  obtain ⟨tx, htx, hof⟩ := BlockContent.exists_of_mem_receipts hreceipts hs
  obtain ⟨r, hr, hblock, -⟩ := h b hb _ ⟨tx, htx, hof.transaction_index⟩
  obtain ⟨m, t, hm, hi, ht⟩ := receipt_by_hash_and_index_eq_some.mp hr
  have hmb := hchain.index _ _ hm
  rw [hchain.buffer b hb] at hmb
  subst hmb
  -- the index has one hash at one place
  have hself : b.hashes_by_index.lookup s.transaction_index = some s.transaction_hash :=
    SubstrateBlock.lookup_hashes_by_index.mpr ⟨s, hs, rfl, rfl⟩
  rw [hself] at hi
  cases hi
  exact ⟨r, ht, hblock⟩

/-- **One delivery of a new block.** It leaves every extrinsic with its
    receipt only if it is fresh. -/
theorem fresh_of_answered (h : Separate chain c) (hchain : OfChain chain.block c)
    (hd : chain.block d.hash = d) (hnew : ∀ q ∈ c.buffer, q.hash ≠ d.hash)
    (hanswered : Answered chain (c.on_block d)) : Fresh chain c d := by
  have hchain' := hchain.on_block hd
  have hd_mem : d ∈ (c.on_block d).buffer := by
    rw [buffer_on_block]
    exact List.mem_append_right _ (List.mem_singleton_self d)
  constructor
  · -- what is found at an index of `d` is listed in the index of `d`
    refine (exists_receipt_iff hd).mp fun i hi => ?_
    obtain ⟨r, hr, -, -⟩ := hanswered d hd_mem i hi
    obtain ⟨m, t, hm, hmi, -⟩ := receipt_by_hash_and_index_eq_some.mp hr
    rw [hchain'.index _ _ hm, hd] at hmi
    obtain ⟨r', hr', hindex, -⟩ := SubstrateBlock.lookup_hashes_by_index.mp hmi
    exact ⟨r', hr', hindex⟩
  · intro q hq hshares
    obtain ⟨s, hs, hdt⟩ := hshares
    obtain ⟨r, hr, hrd⟩ := hanswered.receipt_of hchain' hd_mem hdt
    by_cases hstay : q ∈ c.staying
    · -- one entry cannot be of two blocks
      have hq_mem : q ∈ (c.on_block d).buffer := by
        rw [buffer_on_block]
        exact List.mem_append_left _ hstay
      obtain ⟨r', hr', hrq⟩ := hanswered.receipt_of hchain' hq_mem (.of_mem hs)
      rw [hr] at hr'
      cases hr'
      exact hnew q hq (hrq.symm.trans hrd)
    · -- the entry goes with the evicted block
      rcases evicted_cases c with ⟨-, hall, -⟩ | ⟨p, hp, hcons, -⟩
      · rw [hall] at hstay
        exact hstay hq
      · have hqp : q = p := by
          rw [hcons, List.mem_cons] at hq
          exact hq.resolve_right hstay
        subst hqp
        obtain ⟨m, t, hm, hi, -⟩ := receipt_by_hash_and_index_eq_some.mp (h.kept q hq s hs).2
        have hmq := hchain.index _ _ hm
        rw [hchain.buffer q hq] at hmq
        subst hmq
        obtain ⟨-, herase⟩ := receipts_on_block.mp hr
        refine herase q hp q.hashes_by_index ?_ s.transaction_index ?_
        · rw [index_add_receipts_of_ne fun h => hnew q hq h.2]
          exact hm
        · exact SubstrateBlock.lookup_hashes_by_index.mpr ⟨s, hs, rfl, rfl⟩

end BlockCache

/-! ## One extrinsic in two blocks -/

namespace Sample

/-- A host that tells extrinsics apart by their length. -/
def length_host : Host TableDigest :=
  { table.host with blake2_256 := fun input => be_low 32 input.length }

/-- Block `n`, extracted from one extrinsic with the given bytes. -/
def extracted_block (n : Nat) (bytes : Scale.Vec) : SubstrateBlock :=
  (content n bytes succeeded).substrate_block _ (receipt_infos_content length_host n bytes)

/-- A chain of blocks `1` and `2`, each with one extrinsic. -/
def extracted_chain (bytes1 bytes2 : Scale.Vec) : ExtractedChain length_host where
  content h := if h = be_low 32 1 then content 1 bytes1 succeeded else content 2 bytes2 succeeded
  block h := if h = be_low 32 1 then extracted_block 1 bytes1 else extracted_block 2 bytes2
  extracted h := by
    by_cases hh : h = be_low 32 1
    · rw [if_pos hh, if_pos hh]
      exact BlockContent.extracted _
    · rw [if_neg hh, if_neg hh]
      exact BlockContent.extracted _

theorem extracted_chain_block (bytes1 bytes2 : Scale.Vec) :
    (extracted_chain bytes1 bytes2).block (extracted_block 1 bytes1).hash =
        extracted_block 1 bytes1 ∧
      (extracted_chain bytes1 bytes2).block (extracted_block 2 bytes2).hash =
        extracted_block 2 bytes2 := by
  have hne : be_low 32 2 ≠ be_low 32 1 := by decide +kernel
  constructor
  · show (if be_low 32 1 = be_low 32 1 then extracted_block 1 bytes1
      else extracted_block 2 bytes2) = _
    rw [if_pos rfl]
  · show (if be_low 32 2 = be_low 32 1 then extracted_block 1 bytes1
      else extracted_block 2 bytes2) = _
    rw [if_neg hne]

end Sample

namespace BlockCache

/-- Two blocks with one extrinsic each, of different lengths. -/
theorem answered_of_fresh_sample :
    Answered (Sample.extracted_chain ⟨[], by decide⟩ ⟨[0], by decide⟩)
      (((default : BlockCache 2).on_block (Sample.extracted_block 1 ⟨[], by decide⟩)).on_block
        (Sample.extracted_block 2 ⟨[0], by decide⟩)) := by
  obtain ⟨hblock1, hblock2⟩ := Sample.extracted_chain_block ⟨[], by decide⟩ ⟨[0], by decide⟩
  have h0 : Lts.Reachable ((system 2 (Sample.extracted_chain ⟨[], by decide⟩
      ⟨[0], by decide⟩).block).restrict (Fresh (Sample.extracted_chain ⟨[], by decide⟩
        ⟨[0], by decide⟩))) default := .init rfl
  have h1 := h0.step (Sample.extracted_block 1 ⟨[], by decide⟩)
    ⟨⟨by decide +kernel, by decide +kernel⟩, hblock1, rfl⟩
  have h2 := h1.step (Sample.extracted_block 2 ⟨[0], by decide⟩)
    ⟨⟨by decide +kernel, by decide +kernel⟩, hblock2, rfl⟩
  exact (answered_of_fresh h2).1

/-- One extrinsic in blocks `1` and `2`, both in a cache of two: asked for
    the receipt in block `1`, the cache returns that in block `2`. -/
theorem receipt_of_other_block :
    let chain := Sample.extracted_chain ⟨[], by decide⟩ ⟨[], by decide⟩
    let first := Sample.extracted_block 1 ⟨[], by decide⟩
    let second := Sample.extracted_block 2 ⟨[], by decide⟩
    let c := (default : BlockCache 2).on_block first
    Lts.Reachable (system 2 chain.block) (c.on_block second) ∧ first.hash ≠ second.hash ∧
      (c.on_block second).buffer = [first, second] ∧ chain.HasIndex first 0 ∧
      (c.on_block second).receipt_by_hash_and_index first.hash 0 =
        some (Sample.eth_call_receipt 2 (be_low 32 1)) ∧
      ¬ Answered chain (c.on_block second) ∧ ¬ Unchanged chain c second := by
  intro chain first second c
  obtain ⟨hblock1, hblock2⟩ := Sample.extracted_chain_block ⟨[], by decide⟩ ⟨[], by decide⟩
  have h0 : Lts.Reachable (system 2 chain.block) default := .init rfl
  have h1 : Lts.Reachable (system 2 chain.block) c := h0.step first ⟨hblock1, rfl⟩
  have h2 := h1.step second ⟨hblock2, rfl⟩
  have hne : first.hash ≠ second.hash := by decide +kernel
  have hbuffer : (c.on_block second).buffer = [first, second] := by decide +kernel
  have hindex : chain.HasIndex first 0 :=
    ⟨Sample.eth_call_transaction ⟨[], by decide⟩ Sample.succeeded, List.mem_cons_self, rfl⟩
  have hreceipt : (c.on_block second).receipt_by_hash_and_index first.hash 0 =
      some (Sample.eth_call_receipt 2 (be_low 32 1)) := by
    decide +kernel
  have hmem : first ∈ (c.on_block second).buffer := by
    rw [hbuffer]
    exact List.mem_cons_self
  refine ⟨h2, hne, hbuffer, hindex, hreceipt, ?_, ?_⟩
  · intro hanswered
    obtain ⟨r, hr, hblock, -⟩ := hanswered first hmem 0 hindex
    rw [hreceipt] at hr
    cases hr
    exact hne hblock.symm
  · intro hsame
    have hsame := hsame first (by decide +kernel) hmem 0 hindex
    rw [hreceipt] at hsame
    exact absurd hsame (by decide +kernel)

end BlockCache

end EthRpc
