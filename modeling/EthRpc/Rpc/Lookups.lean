import EthRpc.Framework.RwLock
import EthRpc.Rpc.Retention

/-! # The operations of the client

    The cache is shared by the requests the server handles and by the
    subscription, behind a read-write lock. Each operation of the client is
    a routine over it: it takes a guard for the rest of the function, looks
    at the cache, and asks the node for what is not there.

    `block_by_number` keeps its guard while it calls `get_block_hash` and
    `block_by_hash`, which take guards of their own.

    The `bracketed` lemmas say that all guards nest; the `run` lemmas what an
    operation returns when it has the cache to itself.
-/

namespace EthRpc

open Routine (get modify guarded)

/-! ## What is asked of the node -/

/-- `subxt::Error`, as far as `block_by_hash` tells them apart. -/
inductive BlockAtError where
  /-- `BlockError::NotFound`. -/
  | NotFound
  | Other (e : ClientError)
  deriving DecidableEq, Repr

inductive Query where
  /-- `rpc.chain_get_block_hash`. -/
  | chain_get_block_hash (n : BitVec 32)
  /-- `api.blocks().at`. -/
  | block_at (hash : H256)
  /-- The block of `at_latest`. -/
  | latest
  /-- The calls behind `receipt_infos`; what they yield is in the stream's item. -/
  | receipt_infos (block : SubstrateBlock)

def Answer : Query → Type
  | .chain_get_block_hash _ => Except ClientError (Option H256)
  | .block_at _ => Except BlockAtError SubstrateBlock
  | .latest => Except ClientError H256
  | .receipt_infos _ => Unit

instance (q : Query) : Nonempty (Answer q) := by
  cases q with
  | chain_get_block_hash n => exact ⟨.ok none⟩
  | block_at hash => exact ⟨.error .NotFound⟩
  | latest => exact ⟨.error .BlockNotFound⟩
  | receipt_infos block => exact ⟨()⟩

/-- An operation on a cache of `N` blocks. -/
abbrev Op (N : Nat) := Routine (BlockCache N) Query Answer

namespace Query

variable {N : Nat}

def ask (q : Query) : Op N (Answer q) := Routine.query q

end Query

/-! ## Operations -/

namespace Client

variable {N : Nat}

/-- Get the most recent block stored in the cache. -/
def latest_block : Op N (Option SubstrateBlock) :=
  guarded .read do
    let cache ← get
    return cache.latest_block

/-- Get an EVM transaction receipt by hash. -/
def receipt (tx_hash : H256) : Op N (Option ReceiptInfo) :=
  guarded .read do
    let cache ← get
    return cache.receipt tx_hash

def receipt_by_hash_and_index (block_hash : H256) (transaction_index : U256) :
    Op N (Option ReceiptInfo) :=
  guarded .read do
    let cache ← get
    return cache.receipt_by_hash_and_index block_hash transaction_index

/-- Get receipts count per block. -/
def receipts_count_per_block (block_hash : H256) : Op N (Option Nat) :=
  guarded .read do
    let cache ← get
    return (cache.receipt_hashes_by_block_and_index.lookup block_hash).map fun v => v.keys.card

/-- Get the block number of the latest block. -/
def block_number : Op N (Except ClientError (BitVec 32)) :=
  guarded .read do
    let cache ← get
    match cache.latest_block with
    | some block => return .ok block.number
    | none => return .error .CacheEmpty

/-- Get a block hash for the given block number. -/
def get_block_hash (block_number : BitVec 32) : Op N (Except ClientError (Option H256)) :=
  guarded .read do
    let cache ← get
    match cache.blocks_by_number.lookup block_number with
    | some block => return .ok (some block.hash)
    -- the guard is held while the node is asked
    | none => Query.ask (.chain_get_block_hash block_number)

/-- Get a block by hash. -/
def block_by_hash (hash : H256) : Op N (Except ClientError (Option SubstrateBlock)) :=
  guarded .read do
    let cache ← get
    match cache.blocks_by_hash.lookup hash with
    | some block => return .ok (some block)
    | none =>
      match (← Query.ask (.block_at hash) : Except BlockAtError SubstrateBlock) with
      | .ok block => return .ok (some block)
      | .error .NotFound => return .ok none
      | .error (.Other e) => return .error e

/-- Get a block by number. -/
def block_by_number (block_number : BitVec 32) :
    Op N (Except ClientError (Option SubstrateBlock)) :=
  guarded .read do
    let cache ← get
    match cache.blocks_by_number.lookup block_number with
    | some block => return .ok (some block)
    | none =>
      -- both calls take the lock again, inside this guard
      match ← get_block_hash block_number with
      | .ok (some hash) => block_by_hash hash
      | .ok none => return .ok none
      | .error e => return .error e

/-- Get a block for the specified hash or number. -/
def block_by_number_or_tag (block : BlockNumberOrTag) :
    Op N (Except ClientError (Option SubstrateBlock)) :=
  match block with
  | .U256 n =>
    match try_into 32 n with
    | some n => block_by_number n
    | none => return .error .ConversionFailed
  | .BlockTag _ =>
    guarded .read do
      let cache ← get
      return .ok cache.latest_block

/-- The block that `storage_api` and `runtime_api` select. -/
def select_block («at» : BlockNumberOrTagOrHash) : Op N (Except ClientError H256) :=
  match «at» with
  | .U256 block_number =>
    match try_into 32 block_number with
    | some n => do
      match ← get_block_hash n with
      | .ok (some hash) => return .ok hash
      | .ok none => return .error .BlockNotFound
      | .error e => return .error e
    | none => return .error .ConversionFailed
  | .H256 hash => return .ok hash
  | .BlockTag _ => do
    -- the guard is gone by the time the node is asked
    match ← latest_block with
    | some block => return .ok block.hash
    | none => Query.ask .latest

/-- Expose the storage API, at a block. -/
def storage_api («at» : BlockNumberOrTagOrHash) : Op N (Except ClientError H256) := select_block «at»

/-- Expose the runtime API, at a block. -/
def runtime_api («at» : BlockNumberOrTagOrHash) : Op N (Except ClientError H256) := select_block «at»

/-- Subscribe to new blocks and update the cache. The write guard of a block
    is held while its receipts are fetched. -/
def subscribe_blocks : List BlockCache.StreamItem → Op N (Except ClientError Unit)
  | [] => return .ok ()
  | .block b receipts_error :: items => do
    let inserted ← guarded .write do
      let _ ← Query.ask (.receipt_infos b)
      match receipts_error with
      | some e => return (.error e : Except ClientError Unit)
      | none => do
        modify fun cache => cache.on_block b
        return .ok ()
    match inserted with
    | .ok () => subscribe_blocks items
    | .error e => return .error e
  | .disconnected_will_reconnect :: items => subscribe_blocks items
  | .error e :: _ => return .error e

/-! ## Guards nest -/

section bracketed
variable {g : List Mode}

/-- A block under a read guard that starts with a look at the cache. -/
theorem bracketed_look {α : Type} {f : BlockCache N → Op N α} (hg : .write ∉ g)
    (h : ∀ cache, (f cache).Bracketed (.read :: g) (.read :: g)) :
    (guarded .read (get >>= f)).Bracketed g g :=
  .guarded hg (by simp) (Routine.bracketed_get.bind h)

theorem latest_block_bracketed (hg : .write ∉ g) : (latest_block (N := N)).Bracketed g g :=
  bracketed_look hg fun _ => Routine.bracketed_pure _

theorem receipt_bracketed (t : H256) (hg : .write ∉ g) : (receipt (N := N) t).Bracketed g g :=
  bracketed_look hg fun _ => Routine.bracketed_pure _

theorem receipt_by_hash_and_index_bracketed (h : H256) (i : U256) (hg : .write ∉ g) :
    (receipt_by_hash_and_index (N := N) h i).Bracketed g g :=
  bracketed_look hg fun _ => Routine.bracketed_pure _

theorem receipts_count_per_block_bracketed (h : H256) (hg : .write ∉ g) :
    (receipts_count_per_block (N := N) h).Bracketed g g :=
  bracketed_look hg fun _ => Routine.bracketed_pure _

theorem block_number_bracketed (hg : .write ∉ g) : (block_number (N := N)).Bracketed g g := by
  refine bracketed_look hg fun cache => ?_
  cases cache.latest_block with
  | none => exact Routine.bracketed_pure _
  | some block => exact Routine.bracketed_pure _

theorem get_block_hash_bracketed (n : BitVec 32) (hg : .write ∉ g) :
    (get_block_hash (N := N) n).Bracketed g g := by
  refine bracketed_look hg fun cache => ?_
  cases cache.blocks_by_number.lookup n with
  | none => exact Routine.bracketed_query _
  | some block => exact Routine.bracketed_pure _

theorem block_by_hash_bracketed (h : H256) (hg : .write ∉ g) :
    (block_by_hash (N := N) h).Bracketed g g := by
  refine bracketed_look hg fun cache => ?_
  cases cache.blocks_by_hash.lookup h with
  | some block => exact Routine.bracketed_pure _
  | none =>
    refine (Routine.bracketed_query _).bind fun answer => ?_
    match answer with
    | .ok block => exact Routine.bracketed_pure _
    | .error .NotFound => exact Routine.bracketed_pure _
    | .error (.Other e) => exact Routine.bracketed_pure _

/-- The guards that `block_by_number` takes inside its own are read guards too. -/
theorem block_by_number_bracketed (n : BitVec 32) (hg : .write ∉ g) :
    (block_by_number (N := N) n).Bracketed g g := by
  have hg' : .write ∉ Mode.read :: g := by simpa using hg
  refine bracketed_look hg fun cache => ?_
  cases cache.blocks_by_number.lookup n with
  | some block => exact Routine.bracketed_pure _
  | none =>
    refine (get_block_hash_bracketed n hg').bind fun answer => ?_
    match answer with
    | .ok (some hash) => exact block_by_hash_bracketed hash hg'
    | .ok none => exact Routine.bracketed_pure _
    | .error e => exact Routine.bracketed_pure _

theorem block_by_number_or_tag_bracketed (b : BlockNumberOrTag) (hg : .write ∉ g) :
    (block_by_number_or_tag (N := N) b).Bracketed g g := by
  cases b with
  | U256 n =>
    unfold block_by_number_or_tag
    simp only
    cases try_into 32 n with
    | some n => exact block_by_number_bracketed n hg
    | none => exact Routine.bracketed_pure _
  | BlockTag tag => exact bracketed_look hg fun _ => Routine.bracketed_pure _

theorem select_block_bracketed («at» : BlockNumberOrTagOrHash) (hg : .write ∉ g) :
    (select_block (N := N) «at»).Bracketed g g := by
  cases «at» with
  | U256 n =>
    unfold select_block
    simp only
    cases try_into 32 n with
    | some n =>
      refine (get_block_hash_bracketed n hg).bind fun answer => ?_
      match answer with
      | .ok (some hash) => exact Routine.bracketed_pure _
      | .ok none => exact Routine.bracketed_pure _
      | .error e => exact Routine.bracketed_pure _
    | none => exact Routine.bracketed_pure _
  | H256 hash => exact Routine.bracketed_pure _
  | BlockTag tag =>
    refine (latest_block_bracketed hg).bind fun block => ?_
    cases block with
    | some block => exact Routine.bracketed_pure _
    | none => exact Routine.bracketed_query _

/-- The subscription takes its write guards one after the other. -/
theorem subscribe_blocks_bracketed (items : List BlockCache.StreamItem) :
    (subscribe_blocks (N := N) items).Bracketed [] [] := by
  -- by the recursion of `subscribe_blocks`
  induction items with
  | nil => exact Routine.bracketed_pure _
  | cons item items ih =>
    cases item with
    | block b receipts_error =>
      have hblock : ∀ inserted : Except ClientError Unit,
          (match inserted with
            | .ok () => subscribe_blocks (N := N) items
            | .error e => return .error e).Bracketed [] [] := by
        intro inserted
        match inserted with
        | .ok () => exact ih
        | .error e => exact Routine.bracketed_pure _
      refine Routine.Bracketed.bind (.guarded (by simp) (by simp) ?_) hblock
      refine (Routine.bracketed_query _).bind fun _ => ?_
      cases receipts_error with
      | some e => exact Routine.bracketed_pure _
      | none => exact (Routine.bracketed_modify _).bind fun _ => Routine.bracketed_pure _
    | disconnected_will_reconnect => exact ih
    | error e => exact Routine.bracketed_pure _

end bracketed

/-! ## Operations by themselves -/

section run
variable (node : ∀ q, Answer q) (c : BlockCache N)

theorem run_get_block_hash (n : BitVec 32) :
    (get_block_hash n).run node c = (match c.blocks_by_number.lookup n with
      | some block => .ok (some block.hash)
      | none => node (.chain_get_block_hash n), c) := by
  unfold get_block_hash
  simp only [Routine.run_guarded, Routine.run_bind, Routine.run_get]
  cases c.blocks_by_number.lookup n with
  | some block => rfl
  | none => rfl

/-- What the node answers for a hash, as the client passes it on. -/
def of_block_at (answer : Except BlockAtError SubstrateBlock) :
    Except ClientError (Option SubstrateBlock) :=
  match answer with
  | .ok block => .ok (some block)
  | .error .NotFound => .ok none
  | .error (.Other e) => .error e

theorem run_block_by_hash (h : H256) :
    (block_by_hash h).run node c = (match c.blocks_by_hash.lookup h with
      | some block => .ok (some block)
      | none => of_block_at (node (.block_at h)), c) := by
  unfold block_by_hash
  simp only [Routine.run_guarded, Routine.run_bind, Routine.run_get]
  cases c.blocks_by_hash.lookup h with
  | some block => rfl
  | none =>
    simp only [Query.ask, Routine.run_bind, Routine.run_query]
    generalize (node (.block_at h) : Except BlockAtError SubstrateBlock) = answer
    match answer with
    | .ok block => rfl
    | .error .NotFound => rfl
    | .error (.Other e) => rfl

theorem run_block_by_number (n : BitVec 32) :
    (block_by_number n).run node c = (match c.blocks_by_number.lookup n with
      | some block => .ok (some block)
      | none =>
        match ((get_block_hash n).run node c).1 with
        | .ok (some hash) => ((block_by_hash hash).run node c).1
        | .ok none => .ok none
        | .error e => .error e, c) := by
  unfold block_by_number
  simp only [Routine.run_guarded, Routine.run_bind, Routine.run_get]
  cases c.blocks_by_number.lookup n with
  | some block => rfl
  | none =>
    have hkeep : ((get_block_hash n).run node c).2 = c := by rw [run_get_block_hash]
    simp only [Routine.run_bind, hkeep]
    match ((get_block_hash n).run node c).1 with
    | .ok (some hash) =>
      simp only
      rw [run_block_by_hash]
    | .ok none => rfl
    | .error e => rfl

/-- By itself, the subscription leaves the cache that the loop leaves. -/
theorem run_subscribe_blocks (items : List BlockCache.StreamItem) :
    (subscribe_blocks items).run node c =
      ((BlockCache.subscribe_blocks c items).2, (BlockCache.subscribe_blocks c items).1) := by
  induction items generalizing c with
  | nil => rfl
  | cons item items ih =>
    cases item with
    | block b receipts_error =>
      cases receipts_error with
      | none => exact ih (c.on_block b)
      | some e => rfl
    | disconnected_will_reconnect => exact ih c
    | error e => rfl

end run

end Client

end EthRpc
