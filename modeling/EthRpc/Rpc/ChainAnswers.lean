import EthRpc.Rpc.Counts
import EthRpc.Rpc.Serving

/-! # Answers about a chain

    Where the delivered blocks are those of a finalized chain of the node,
    with gaps and repeats, what is answered about a block is about the block
    of the chain that has this number or hash, or nothing.

    A handler that finds a block first and then its receipts or their count
    names it by its hash in between. So nothing of a block that came in
    meanwhile is mixed in, and all that can happen is that the receipts are
    gone.

    * `Delivered`: the invariant of the cache, for any deliveries.
    * `told_of_chain`: the answers, in all runs.
-/

namespace EthRpc

open RwLock (Config)

/-! ## What is in the cache -/

namespace BlockCache

variable {N : Nat} {blocks : Set SubstrateBlock} {c : BlockCache N} {d : SubstrateBlock}

/-- **All that is in the cache comes from the blocks.** -/
structure Delivered (blocks : Set SubstrateBlock) (c : BlockCache N) : Prop where
  buffer : ∀ b ∈ c.buffer, b ∈ blocks
  index : ∀ h m, c.receipt_hashes_by_block_and_index.lookup h = some m →
    ∃ b ∈ blocks, b.hash = h ∧ m = b.hashes_by_index
  receipts : ∀ t r, c.receipts_by_hash.lookup t = some r →
    r.transaction_hash = t ∧ ∃ b ∈ blocks, r ∈ b.receipts

theorem delivered_default : Delivered blocks (default : BlockCache N) where
  buffer := by simp [default]
  index := by simp [default]
  receipts := by simp [default]

/-- **One delivery** brings in its own block only. -/
theorem Delivered.on_block (h : Delivered blocks c) (hd : d ∈ blocks) :
    Delivered blocks (c.on_block d) where
  buffer := by
    intro b hb
    rcases mem_buffer_on_block.mp hb with hb | rfl
    · exact h.buffer b (mem_of_staying hb)
    · exact hd
  index := by
    intro k m hm
    have hadd := (index_on_block.mp hm).1
    by_cases hself : d.receipts ≠ [] ∧ k = d.hash
    · obtain ⟨hne, rfl⟩ := hself
      rw [index_add_receipts_self hne] at hadd
      cases hadd
      exact ⟨d, hd, rfl, rfl⟩
    · rw [index_add_receipts_of_ne hself] at hadd
      exact h.index k m hadd
  receipts := by
    intro t r hr
    have hadd := (receipts_on_block.mp hr).1
    by_cases ht : d.HasTx t
    · obtain ⟨s, hs, rfl⟩ := ht
      rw [receipts_add_receipts_of_mem hs] at hadd
      cases hadd
      exact ⟨rfl, d, hd, hs⟩
    · rw [receipts_add_receipts_of_not_hasTx ht] at hadd
      exact h.receipts t r hadd

variable {node : ∀ q, Answer q} {chain : FinalizedChain node}

theorem delivered_of_reachable (h : Lts.Reachable (deliveries N chain) c) :
    Delivered chain.blocks c := by
  apply Lts.invariant (Delivered chain.blocks) _ _ h
  · intro c hc
    rw [hc]
    exact delivered_default
  · intro c d c' _ hc hstep
    obtain ⟨hd, rfl⟩ := hstep
    exact hc.on_block hd

/-- A receipt that is found by its block and index. -/
theorem Delivered.receipt_by_hash_and_index (h : Delivered blocks c) {k : H256} {i : U256}
    {r : ReceiptInfo} (hr : c.receipt_by_hash_and_index k i = some r) :
    ∃ b ∈ blocks, b.hash = k ∧ b.hashes_by_index.lookup i = some r.transaction_hash ∧
      ∃ b' ∈ blocks, r ∈ b'.receipts := by
  obtain ⟨m, t, hm, hi, ht⟩ := receipt_by_hash_and_index_eq_some.mp hr
  obtain ⟨b, hb, hk, rfl⟩ := h.index k m hm
  obtain ⟨rfl, hr⟩ := h.receipts t r ht
  exact ⟨b, hb, hk, hi, hr⟩

end BlockCache

/-! ## What is told -/

section told
variable {node : ∀ q, Answer q} (chain : FinalizedChain node) (header : SubstrateBlock → Header)

/-- A number names the block of the chain that has it, and a tag a block of
    the chain, if any. -/
def Finds (block : BlockNumberOrTag) (found : Except ClientError (Option SubstrateBlock)) : Prop :=
  match block with
  | .U256 n => ∀ b ∈ chain.blocks, b.number.setWidth 256 = n → found = .ok (some b)
  | .BlockTag _ => found = .ok none ∨ ∃ b ∈ chain.blocks, found = .ok (some b)

def ToldReceipt (transaction_hash : H256) (receipt : Option ReceiptInfo) : Prop :=
  ∀ r, receipt = some r → r.transaction_hash = transaction_hash ∧ ∃ b ∈ chain.blocks, r ∈ b.receipts

/-- No count, or that of the block with this hash. -/
def ToldCount (block_hash : H256) (answer : Except ClientError (Option U256)) : Prop :=
  answer = .ok none ∨ ∃ b ∈ chain.blocks, b.hash = block_hash ∧
    answer = .ok (some (BitVec.ofNat 256 b.receipts.length))

/-- No transaction, or the one that the block with this hash has there. -/
def ToldTransaction (block_hash : H256) (transaction_index : U256)
    (answer : Except ClientError (Option RpcTypes.TransactionInfo)) : Prop :=
  answer = .ok none ∨ ∃ b ∈ chain.blocks, b.hash = block_hash ∧ ∃ r,
    b.hashes_by_index.lookup transaction_index = some r.transaction_hash ∧
      (∃ b' ∈ chain.blocks, r ∈ b'.receipts) ∧ answer = .ok (some (.from_receipt r))

/-- What is answered to a request, in terms of the chain. -/
def Told : (r : ServerRequest) → r.Answer → Prop
  | .block_number, answer =>
    answer = .error .CacheEmpty ∨ ∃ b ∈ chain.blocks, answer = .ok (b.number.setWidth 256)
  | .get_transaction_receipt transaction_hash, answer =>
    ∃ receipt, ToldReceipt chain transaction_hash receipt ∧ answer = .ok receipt
  | .get_transaction_by_hash transaction_hash, answer =>
    ∃ receipt, ToldReceipt chain transaction_hash receipt ∧
      answer = .ok (receipt.map .from_receipt)
  | .get_transaction_by_block_hash_and_index block_hash transaction_index, answer =>
    ToldTransaction chain block_hash transaction_index answer
  | .get_transaction_by_block_number_and_index block transaction_index, answer =>
    ∃ found, Finds chain block found ∧
      match found with
      | .error e => answer = .error e
      | .ok none => answer = .ok none
      | .ok (some block) => ToldTransaction chain block.hash transaction_index answer
  | .get_block_transaction_count_by_hash (some block_hash), answer =>
    ToldCount chain block_hash answer
  | .get_block_transaction_count_by_hash none, answer =>
    answer = .error .BlockNotFound ∨ ∃ b ∈ chain.blocks, ToldCount chain b.hash answer
  | .get_block_transaction_count_by_number block, answer =>
    ∃ found, Finds chain (block.getD (.BlockTag .Latest)) found ∧
      ∃ served, ServedBlock header found served ∧
      match served with
      | .error e => answer = .error e
      | .ok none => answer = .ok none
      | .ok (some block) => ToldCount chain block.hash answer
  | .get_block_by_hash block_hash, answer =>
    ∃ found, (∀ b ∈ chain.blocks, b.hash = block_hash → found = .ok (some b)) ∧
      ServedBlock header found answer
  | .get_block_by_number block, answer =>
    ∃ found, Finds chain block found ∧ ServedBlock header found answer

end told

/-! ## Answers from a cache of the chain -/

theorem Client.run_block_number {N : Nat} (node : ∀ q, Answer q) (c : BlockCache N) :
    Client.block_number.run node c = (match c.latest_block with
      | some block => .ok block.number
      | none => .error .CacheEmpty, c) := by
  unfold Client.block_number
  simp only [Routine.run_guarded, Routine.run_bind, Routine.run_get]
  cases c.latest_block with
  | some block => rfl
  | none => rfl

section answers
variable {N : Nat} {node : ∀ q, Answer q} {chain : FinalizedChain node}
  {header : SubstrateBlock → Header} {S : Set (BlockCache N)}

/-- A cache that was filled from the chain. -/
def FromChain (chain : FinalizedChain node) (c : BlockCache N) : Prop :=
  Lts.Reachable (BlockCache.deliveries N chain) c

theorem Returned.eq_run {α : Type} {op : Op N α} {a : α} (h : Returned (.only node) S op a) :
    ∃ c ∈ S, (op.run node c).1 = a := by
  obtain ⟨c, hc, ha⟩ := h
  exact ⟨c, hc, Routine.run_of_returns_rename (fun _ answer => answer.property) ha⟩

variable (hS : ∀ c ∈ S, FromChain chain c)
include hS

theorem finds_of_returned {block : BlockNumberOrTag}
    {found : Except ClientError (Option SubstrateBlock)}
    (h : Returned (.only node) S (Client.block_by_number_or_tag block) found) :
    Finds chain block found := by
  obtain ⟨c, hc, hfound⟩ := h.eq_run
  cases block with
  | U256 n =>
    rintro b hb rfl
    have hnumber : try_into 32 (b.number.setWidth 256) = some b.number := by
      have hlt := b.number.isLt
      rw [try_into, BitVec.toNat_setWidth, Nat.mod_eq_of_lt (by omega), if_pos hlt]
      simp
    rw [← hfound, Client.block_by_number_or_tag]
    simp only [hnumber]
    rw [Client.block_by_number_of_agrees (BlockCache.agrees_of_reachable (hS c hc))]
    simp only [Client.block_of_node, chain.hash_at b hb, chain.block_at b hb, Client.of_block_at]
  | BlockTag tag =>
    have hfound : Except.ok c.latest_block = found := hfound
    cases hlatest : c.latest_block with
    | none =>
      rw [hlatest] at hfound
      exact Or.inl hfound.symm
    | some b =>
      rw [hlatest] at hfound
      have hb := (BlockCache.delivered_of_reachable (hS c hc)).buffer b
        (List.mem_of_getLast? hlatest)
      exact Or.inr ⟨b, hb, hfound.symm⟩

theorem told_of_served_count {block_hash : H256} {answer : Except ClientError (Option U256)}
    (h : ServedCount S block_hash answer) : ToldCount chain block_hash answer := by
  obtain ⟨c, hc, rfl⟩ := h
  cases hm : c.receipt_hashes_by_block_and_index.lookup block_hash with
  | none => exact Or.inl rfl
  | some m =>
    obtain ⟨b, hb, hk, rfl⟩ := (BlockCache.delivered_of_reachable (hS c hc)).index _ _ hm
    refine Or.inr ⟨b, hb, hk, ?_⟩
    rw [Option.map_some, BlockCache.card_keys_hashes_by_index]

theorem told_of_served_transaction {block_hash : H256} {i : U256}
    {answer : Except ClientError (Option RpcTypes.TransactionInfo)}
    (h : ServedTransaction S block_hash i answer) : ToldTransaction chain block_hash i answer := by
  obtain ⟨c, hc, rfl⟩ := h
  cases hr : c.receipt_by_hash_and_index block_hash i with
  | none => exact Or.inl rfl
  | some r =>
    obtain ⟨b, hb, hk, hi, hother⟩ :=
      (BlockCache.delivered_of_reachable (hS c hc)).receipt_by_hash_and_index hr
    exact Or.inr ⟨b, hb, hk, r, hi, hother, rfl⟩

theorem told_receipt {c : BlockCache N} (hc : c ∈ S) (t : H256) :
    ToldReceipt chain t (c.receipt t) := fun r hr =>
  (BlockCache.delivered_of_reachable (hS c hc)).receipts t r hr

/-- **Each answer** that is put together from caches of the chain. -/
theorem told_of_answered {r : ServerRequest} {answer : r.Answer}
    (h : Answered (.only node) header S r answer) : Told chain header r answer := by
  cases r with
  | block_number =>
    obtain ⟨number, hnumber, rfl⟩ := h
    obtain ⟨c, hc, rfl⟩ := hnumber.eq_run
    rw [Client.run_block_number]
    cases hlatest : c.latest_block with
    | none => exact Or.inl rfl
    | some b =>
      have hb := (BlockCache.delivered_of_reachable (hS c hc)).buffer b
        (List.mem_of_getLast? hlatest)
      exact Or.inr ⟨b, hb, rfl⟩
  | get_transaction_receipt t =>
    obtain ⟨c, hc, rfl⟩ := h
    exact ⟨_, told_receipt hS hc t, rfl⟩
  | get_transaction_by_hash t =>
    obtain ⟨c, hc, rfl⟩ := h
    exact ⟨_, told_receipt hS hc t, rfl⟩
  | get_transaction_by_block_hash_and_index k i => exact told_of_served_transaction hS h
  | get_transaction_by_block_number_and_index block i =>
    obtain ⟨found, hfound, hanswer⟩ := h
    refine ⟨found, finds_of_returned hS hfound, ?_⟩
    match found, hanswer with
    | .error e, hanswer => exact hanswer
    | .ok none, hanswer => exact hanswer
    | .ok (some b), hanswer => exact told_of_served_transaction hS hanswer
  | get_block_transaction_count_by_hash block_hash =>
    cases block_hash with
    | some k => exact told_of_served_count hS h
    | none =>
      obtain ⟨found, hfound, hanswer⟩ := h
      obtain ⟨c, hc, hrun⟩ := hfound.eq_run
      have hlatest : c.latest_block = found := hrun
      cases found with
      | none => exact Or.inl hanswer
      | some b =>
        have hb := (BlockCache.delivered_of_reachable (hS c hc)).buffer b
          (List.mem_of_getLast? hlatest)
        exact Or.inr ⟨b, hb, told_of_served_count hS hanswer⟩
  | get_block_transaction_count_by_number block =>
    obtain ⟨found, hfound, served, hserved, hanswer⟩ := h
    refine ⟨found, finds_of_returned hS hfound, served, hserved, ?_⟩
    match served, hanswer with
    | .error e, hanswer => exact hanswer
    | .ok none, hanswer => exact hanswer
    | .ok (some b), hanswer => exact told_of_served_count hS hanswer
  | get_block_by_hash k =>
    obtain ⟨found, hfound, hanswer⟩ := h
    refine ⟨found, ?_, hanswer⟩
    rintro b hb rfl
    obtain ⟨c, hc, hrun⟩ := hfound.eq_run
    rw [Client.block_by_hash_of_agrees (BlockCache.agrees_of_reachable (hS c hc))] at hrun
    rw [← hrun]
    simp only [chain.block_at b hb, Client.of_block_at]
  | get_block_by_number block =>
    obtain ⟨found, hfound, hanswer⟩ := h
    exact ⟨found, finds_of_returned hS hfound, hanswer⟩

end answers

/-! ## Answers in all runs -/

/-- What is delivered before some item is delivered. -/
theorem BlockCache.delivered_subset {before items : List StreamItem} (h : before <+: items) :
    delivered before ⊆ delivered items := by
  induction before generalizing items with
  | nil => exact List.nil_subset _
  | cons item before ih =>
    obtain ⟨rest, rfl⟩ := h
    have hrest := ih (List.prefix_append before rest)
    cases item with
    | block b receipts_error =>
      cases receipts_error with
      | none => exact List.cons_subset_cons b hrest
      | some e => exact List.Subset.refl _
    | disconnected_will_reconnect => exact hrest
    | error e => exact List.Subset.refl _

namespace EthRpcServer

variable {N : Nat} {ι : Type} [DecidableEq ι] {node : ∀ q, Answer q} {chain : FinalizedChain node}
  {header : SubstrateBlock → Header} {items : List BlockCache.StreamItem}
  {c : Config (TaskId ι) (BlockCache N) (Query ⊕ ServerQuery) (Replies (.only node))}

theorem fromChain_of_reachable (hitems : ∀ d ∈ BlockCache.delivered items, d ∈ chain.blocks)
    (h : Lts.Reachable (system ι (.only node) header .default items) c) :
    FromChain chain c.data := by
  obtain ⟨before, hbefore, hdata⟩ := cache_of_reachable h
  rw [hdata]
  exact (BlockCache.steps_deliveries chain .default before
    fun d hd => hitems d (BlockCache.delivered_subset hbefore hd)).reachable (.init rfl)

/-- **Answers about the chain.** However requests and the subscription take
    turns, every answer is about the blocks of the chain. -/
theorem told_of_chain {i : ι} {r : ServerRequest} {answer : r.Answer}
    {k : Unit → ServerOp N (.only node) Unit}
    (hitems : ∀ d ∈ BlockCache.delivered items, d ∈ chain.blocks)
    (h : Lts.Reachable (system ι (.only node) header .default items) c)
    (hask : c.routine (.request i) = .ask (.inr (.respond r answer)) k) :
    Told chain header r answer := by
  have hanswer : Answers (Told chain header) (.inr (.respond r answer)) := by
    refine RwLock.asked_of_reachable (S := {s | FromChain chain s}) initial_bracketed
      initial_writesGuarded ops_bracketed ops_writesGuarded
      (fun _ => fromChain_of_reachable hitems) ?_ ?_ h hask
    · exact trivial
    · rintro t (⟨r, rfl⟩ | ⟨r, rfl⟩) s hs
      · exact respond_ensures hs r fun _ hanswer => told_of_answered (fun _ => id) hanswer
      · exact (Client.serve_reader r).read_only.rename.ensures
          (Routine.asks_rename (fun _ => trivial) _)
  exact hanswer

/-- The latest block is counted; a later one is imported meanwhile. -/
theorem told_of_chain_sample :
    ∃ c : SampleConfig, c.data.latest_block = some (Sample.block 2) ∧
      c.routine (.request 0) =
          .ask (.inr (.respond sample_request (.ok (some (1 : U256))))) .done ∧
        Told Client.sample_finalized sample_header sample_request (.ok (some (1 : U256))) := by
  obtain ⟨c, c₁, c', ls, hreach, hstart, hsteps, -, -, hafter, hask⟩ := sample_run
  have hreach' := hsteps.reachable (hreach.step _ hstart)
  have htold : Told Client.sample_finalized sample_header sample_request
      (.ok (some (1 : U256))) :=
    told_of_chain (by simp [sample_items, BlockCache.delivered, Client.sample_finalized])
      hreach' hask
  exact ⟨c', hafter, hask, htold⟩

end EthRpcServer

end EthRpc
