import EthRpc.Framework.Maps
import EthRpc.Rpc.Send

/-! # The block cache

    The client keeps the last `N` finalized blocks it was delivered, with
    four maps beside the queue: blocks by number and by hash, receipts by
    transaction hash, and the transaction hashes of a block by index.

    A delivery changes all five in two places: `subscribe_blocks` adds the
    receipts first, then `insert` prunes the oldest block with everything it
    still has in the maps, then adds the new one. `on_block` is the three in
    that order.
-/

namespace EthRpc

/-! ## Blocks and receipts -/

/-- `ReceiptInfo`, the fields the client sets. -/
structure ReceiptInfo where
  block_hash : H256
  block_number : U256
  contract_address : Option Address
  effective_gas_price : U256
  «from» : Address
  gas_used : U256
  status : Option U256
  «to» : Option Address
  transaction_hash : H256
  transaction_index : U256
  deriving DecidableEq

/-- A block, with the receipts that `receipt_infos` extracts from it: a map
    by transaction hash, here the list of its values. The receipts are made
    for this block, one for each extrinsic, so no two have one index. -/
structure SubstrateBlock where
  hash : H256
  number : BitVec 32
  receipts : List ReceiptInfo
  hashes_nodup : (receipts.map ReceiptInfo.transaction_hash).Nodup
  indices_nodup : (receipts.map ReceiptInfo.transaction_index).Nodup
  receipts_block_hash : ∀ r ∈ receipts, r.block_hash = hash
  deriving DecidableEq

namespace SubstrateBlock

/-- The transaction hashes of a block by index. -/
def hashes_by_index (b : SubstrateBlock) : Map U256 H256 :=
  Map.insert_all ReceiptInfo.transaction_index ReceiptInfo.transaction_hash b.receipts ∅

theorem lookup_hashes_by_index {b : SubstrateBlock} {i : U256} {t : H256} :
    b.hashes_by_index.lookup i = some t ↔
      ∃ r ∈ b.receipts, r.transaction_index = i ∧ r.transaction_hash = t :=
  Map.lookup_insert_all_empty b.indices_nodup

/-- A transaction hash of the block. -/
def HasTx (b : SubstrateBlock) (t : H256) : Prop := ∃ r ∈ b.receipts, r.transaction_hash = t

/-- The index of a block covers exactly its transactions. -/
theorem hasTx_iff_index {b : SubstrateBlock} {t : H256} :
    b.HasTx t ↔ ∃ i, b.hashes_by_index.lookup i = some t := by
  constructor
  · intro ht
    obtain ⟨r, hr, rfl⟩ := ht
    exact ⟨r.transaction_index, lookup_hashes_by_index.mpr ⟨r, hr, rfl, rfl⟩⟩
  · intro hi
    obtain ⟨i, hi⟩ := hi
    obtain ⟨r, hr, -, ht⟩ := lookup_hashes_by_index.mp hi
    exact ⟨r, hr, ht⟩

instance (b : SubstrateBlock) (t : H256) : Decidable (b.HasTx t) := by
  unfold HasTx
  infer_instance

/-- Two blocks with a transaction hash in common. -/
def SharesTx (a b : SubstrateBlock) : Prop := ∃ r ∈ a.receipts, b.HasTx r.transaction_hash

instance (a b : SubstrateBlock) : Decidable (a.SharesTx b) := by
  unfold SharesTx
  infer_instance

theorem HasTx.shares {a b : SubstrateBlock} {t : H256} (ha : a.HasTx t) (hb : b.HasTx t) :
    a.SharesTx b := by
  obtain ⟨r, hr, rfl⟩ := ha
  exact ⟨r, hr, hb⟩

theorem HasTx.of_mem {b : SubstrateBlock} {r : ReceiptInfo} (h : r ∈ b.receipts) :
    b.HasTx r.transaction_hash := ⟨r, h, rfl⟩

end SubstrateBlock

/-! ## The cache -/

@[ext] structure BlockCache (N : Nat) where
  /-- The most recent block is at the back, the oldest at the front. -/
  buffer : List SubstrateBlock
  blocks_by_number : Map (BitVec 32) SubstrateBlock
  blocks_by_hash : Map H256 SubstrateBlock
  receipts_by_hash : Map H256 ReceiptInfo
  receipt_hashes_by_block_and_index : Map H256 (Map U256 H256)

namespace BlockCache

variable {N : Nat}

/-- `BlockCache::default()`. -/
def default : BlockCache N where
  buffer := []
  blocks_by_number := ∅
  blocks_by_hash := ∅
  receipts_by_hash := ∅
  receipt_hashes_by_block_and_index := ∅

def latest_block (c : BlockCache N) : Option SubstrateBlock := c.buffer.getLast?

/-- `Client::receipt`. -/
def receipt (c : BlockCache N) (tx_hash : H256) : Option ReceiptInfo :=
  c.receipts_by_hash.lookup tx_hash

/-- `Client::receipt_by_hash_and_index`. -/
def receipt_by_hash_and_index (c : BlockCache N) (block_hash : H256) (transaction_index : U256) :
    Option ReceiptInfo := do
  let hashes ← c.receipt_hashes_by_block_and_index.lookup block_hash
  let receipt_hash ← hashes.lookup transaction_index
  c.receipts_by_hash.lookup receipt_hash

/-- Remove the popped block from the maps, with the receipts that are
    indexed under its hash. -/
def evict (c : BlockCache N) (block : SubstrateBlock) (buffer : List SubstrateBlock) :
    BlockCache N where
  buffer := buffer
  blocks_by_hash := c.blocks_by_hash.erase block.hash
  blocks_by_number := c.blocks_by_number.erase block.number
  receipt_hashes_by_block_and_index := c.receipt_hashes_by_block_and_index.erase block.hash
  receipts_by_hash :=
    -- the index says which receipts are the block's, not the receipts themselves
    match c.receipt_hashes_by_block_and_index.lookup block.hash with
    | some entries => Map.erase_values entries c.receipts_by_hash
    | none => c.receipts_by_hash

/-- The first part of `BlockCache::insert`: prune the oldest entry if the
    cache is full. -/
def prune (c : BlockCache N) : BlockCache N :=
  if c.buffer.length ≥ N then
    match c.buffer with
    | block :: buffer => c.evict block buffer
    | [] => c
  else c

/-- The second part: add the new block at the back. -/
def push_back (c : BlockCache N) (block : SubstrateBlock) : BlockCache N :=
  { c with
    buffer := c.buffer ++ [block]
    blocks_by_number := c.blocks_by_number.insert block.number block
    blocks_by_hash := c.blocks_by_hash.insert block.hash block }

/-- `BlockCache::insert`. -/
def insert (c : BlockCache N) (block : SubstrateBlock) : BlockCache N :=
  c.prune.push_back block

/-- What `subscribe_blocks` adds before it inserts a block: its receipts,
    and their index if there are any. -/
def add_receipts (c : BlockCache N) (block : SubstrateBlock) : BlockCache N :=
  if block.receipts.isEmpty then c
  else { c with
    receipts_by_hash :=
      Map.insert_all ReceiptInfo.transaction_hash id block.receipts c.receipts_by_hash
    receipt_hashes_by_block_and_index :=
      c.receipt_hashes_by_block_and_index.insert block.hash block.hashes_by_index }

/-- One delivered block. -/
def on_block (c : BlockCache N) (block : SubstrateBlock) : BlockCache N :=
  (c.add_receipts block).insert block

/-! ## The subscription -/

/-- An item of the block stream. The receipts of a delivered block may fail
    to be fetched. -/
inductive StreamItem where
  | block (b : SubstrateBlock) (receipts_error : Option ClientError)
  | disconnected_will_reconnect
  | error (e : ClientError)

/-- The loop of `Client::subscribe_blocks`, from a given cache: the cache
    it leaves, and how it ends. -/
def subscribe_blocks : BlockCache N → List StreamItem → BlockCache N × Except ClientError Unit
  | c, [] => (c, .ok ())
  | c, .block b none :: items => subscribe_blocks (c.on_block b) items
  -- the block is lost with its receipts, and the subscription ends
  | c, .block _ (some e) :: _ => (c, .error e)
  -- blocks may have been missed, or come again
  | c, .disconnected_will_reconnect :: items => subscribe_blocks c items
  | c, .error e :: _ => (c, .error e)

/-- The blocks the loop takes in, up to the first error. -/
def delivered : List StreamItem → List SubstrateBlock
  | [] => []
  | .block b none :: items => b :: delivered items
  | .block _ (some _) :: _ => []
  | .disconnected_will_reconnect :: items => delivered items
  | .error _ :: _ => []

/-- The cache a subscription leaves depends on the delivered blocks only. -/
theorem subscribe_blocks_fst (c : BlockCache N) (items : List StreamItem) :
    (subscribe_blocks c items).1 = (delivered items).foldl on_block c := by
  -- by the recursion of `subscribe_blocks`; the cache changes from item to item
  induction items generalizing c with
  | nil => rfl
  | cons item items ih =>
    cases item with
    | block b receipts_error =>
      cases receipts_error with
      | none => exact ih (c.on_block b)
      | some e => rfl
    | disconnected_will_reconnect => exact ih c
    | error e => rfl

/-! ## What the parts of a delivery change -/

section lemmas
variable {c : BlockCache N} {b p : SubstrateBlock} {buffer : List SubstrateBlock}

@[simp] theorem buffer_add_receipts : (c.add_receipts b).buffer = c.buffer := by
  unfold add_receipts
  split
  · rfl
  · rfl

@[simp] theorem blocks_by_number_add_receipts :
    (c.add_receipts b).blocks_by_number = c.blocks_by_number := by
  unfold add_receipts
  split
  · rfl
  · rfl

@[simp] theorem blocks_by_hash_add_receipts :
    (c.add_receipts b).blocks_by_hash = c.blocks_by_hash := by
  unfold add_receipts
  split
  · rfl
  · rfl

/-- A receipt of the block is found by its hash. -/
theorem receipts_add_receipts_of_mem {r : ReceiptInfo} (hr : r ∈ b.receipts) :
    (c.add_receipts b).receipts_by_hash.lookup r.transaction_hash = some r := by
  unfold add_receipts
  rw [if_neg (by simpa using List.ne_nil_of_mem hr)]
  exact Map.lookup_insert_all_of_mem b.hashes_nodup hr

/-- Any other hash is left as it was. -/
theorem receipts_add_receipts_of_not_hasTx {t : H256} (ht : ¬ b.HasTx t) :
    (c.add_receipts b).receipts_by_hash.lookup t = c.receipts_by_hash.lookup t := by
  unfold add_receipts
  split
  · rfl
  · exact Map.lookup_insert_all_of_forall_ne fun r hr heq => ht ⟨r, hr, heq⟩

/-- A block with receipts gets the index the client makes of them. -/
theorem index_add_receipts_self (hb : b.receipts ≠ []) :
    (c.add_receipts b).receipt_hashes_by_block_and_index.lookup b.hash =
      some b.hashes_by_index := by
  unfold add_receipts
  rw [if_neg (by simpa using hb)]
  exact Finmap.lookup_insert _

/-- Without receipts the index of a block is not touched, not even one that
    an earlier delivery left. -/
theorem index_add_receipts_of_ne {h : H256} (hne : ¬ (b.receipts ≠ [] ∧ h = b.hash)) :
    (c.add_receipts b).receipt_hashes_by_block_and_index.lookup h =
      c.receipt_hashes_by_block_and_index.lookup h := by
  unfold add_receipts
  by_cases hempty : b.receipts = []
  · rw [if_pos (by simpa using hempty)]
  · rw [if_neg (by simpa using hempty)]
    exact Finmap.lookup_insert_of_ne _ fun heq => hne ⟨hempty, heq⟩

/-- What an eviction leaves of the receipts: those not indexed under the
    evicted hash. -/
theorem receipts_evict {t : H256} {r : ReceiptInfo} :
    (c.evict p buffer).receipts_by_hash.lookup t = some r ↔
      c.receipts_by_hash.lookup t = some r ∧
        ∀ entries, c.receipt_hashes_by_block_and_index.lookup p.hash = some entries →
          ∀ i, entries.lookup i ≠ some t := by
  unfold evict
  cases hentries : c.receipt_hashes_by_block_and_index.lookup p.hash with
  | none => simp
  | some entries =>
    simp only [Map.lookup_erase_values, Option.some.injEq, forall_eq']

theorem prune_of_length_lt (h : c.buffer.length < N) : c.prune = c := by
  unfold prune
  rw [if_neg (by omega)]

theorem prune_of_cons (h : N ≤ c.buffer.length) (hcons : c.buffer = p :: buffer) :
    c.prune = c.evict p buffer := by
  unfold prune
  rw [if_pos h]
  split
  · next block rest hbuffer =>
    rw [hcons] at hbuffer
    injection hbuffer with hblock hrest
    rw [hblock, hrest]
  · next hbuffer =>
    rw [hcons] at hbuffer
    injection hbuffer

/-- An empty queue is left alone, even where it counts as full. -/
theorem prune_of_nil (h : c.buffer = []) : c.prune = c := by
  unfold prune
  split
  · rw [h]
  · rfl

end lemmas

end BlockCache

/-! ## Sample blocks -/

/-- The receipt of a transfer, the first EVM transaction of block `n`. -/
def Sample.receipt (n : Nat) : ReceiptInfo where
  block_hash := be_low 32 n
  block_number := BitVec.ofNat 256 n
  contract_address := none
  effective_gas_price := 1000
  «from» := signer
  gas_used := 21000
  status := some 1
  «to» := some recipient
  transaction_hash := be_low 32 (1000 + n)
  transaction_index := 1

/-- Block `n`, with one receipt. -/
def Sample.block (n : Nat) : SubstrateBlock where
  hash := be_low 32 n
  number := BitVec.ofNat 32 n
  receipts := [receipt n]
  hashes_nodup := List.nodup_singleton _
  indices_nodup := List.nodup_singleton _
  receipts_block_hash := by simp [receipt]

end EthRpc
