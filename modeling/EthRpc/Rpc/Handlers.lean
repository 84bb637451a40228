import EthRpc.Api.RpcObjects
import EthRpc.Framework.Interleaving
import EthRpc.Rpc.Deadlock
import EthRpc.Rpc.SendTransaction

/-! # The handlers of requests

    A handler calls operations of the client one after the other, and asks
    the node in between.

    * `handle`: the requests that are answered from the cache, about blocks,
      receipts and transactions.
    * The `section` lemmas: each operation of the client is a single section
      behind the lock, which changes nothing. `block_by_number` is one as
      well, though it takes three guards.
-/

namespace EthRpc

/-! ## What is served -/

/-- A header, as far as it is served. -/
structure Header where
  parent_hash : H256
  state_root : H256
  extrinsics_root : H256
  deriving DecidableEq

/-- `Block::default()`. -/
def RpcTypes.Block.default : RpcTypes.Block where
  base_fee_per_gas := none
  blob_gas_used := none
  difficulty := none
  excess_blob_gas := none
  extra_data := .default
  gas_limit := 0
  gas_used := 0
  hash := List.Vector.replicate 32 0
  logs_bloom := List.Vector.replicate 256 0
  miner := List.Vector.replicate 20 0
  mix_hash := List.Vector.replicate 32 0
  nonce := ""
  number := 0
  parent_beacon_block_root := none
  parent_hash := List.Vector.replicate 32 0
  receipts_root := List.Vector.replicate 32 0
  sha_3_uncles := List.Vector.replicate 32 0
  size := 0
  state_root := List.Vector.replicate 32 0
  timestamp := 0
  total_difficulty := none
  transactions := .H256s []
  transactions_root := List.Vector.replicate 32 0
  uncles := []
  withdrawals := none
  withdrawals_root := none

/-- The block that is served: `max_fee` is the fee of a full block, `now` what
    the timestamp extrinsic sets, in milliseconds. -/
def to_evm_block (header : Header) (block : SubstrateBlock) (max_fee : Balance)
    (now : Option (BitVec 64)) : RpcTypes.Block :=
  { RpcTypes.Block.default with
    hash := block.hash
    parent_hash := header.parent_hash
    state_root := header.state_root
    transactions_root := header.extrinsics_root
    number := block.number.setWidth 256
    timestamp := ((now.map fun now : BitVec 64 => now.udiv 1000).getD 0).setWidth 256
    gas_limit := (max_fee.udiv GAS_PRICE).setWidth 256
    logs_bloom := List.Vector.replicate 256 0
    receipts_root := header.extrinsics_root }

/-- `TransactionLegacySigned::default()`. -/
def TransactionLegacySigned.default : TransactionLegacySigned where
  transaction_legacy_unsigned := {
    chain_id := none, gas := 0, gas_price := 0, input := .default, nonce := 0,
    «to» := none, type := .mk, value := 0 }
  r := 0
  s := 0
  v := 0

/-- `TransactionInfo::from`. -/
def RpcTypes.TransactionInfo.from_receipt (receipt : EthRpc.ReceiptInfo) :
    RpcTypes.TransactionInfo where
  block_hash := receipt.block_hash
  block_number := receipt.block_number
  «from» := receipt.from
  hash := receipt.transaction_hash
  transaction_index := receipt.transaction_index
  -- the transaction itself is not kept
  transaction_signed := .TransactionLegacySigned .default

/-! ## Requests and answers -/

/-- The methods that are answered from the cache. -/
inductive ServerRequest where
  | block_number
  | get_transaction_receipt (transaction_hash : H256)
  | get_transaction_by_hash (transaction_hash : H256)
  | get_transaction_by_block_hash_and_index (block_hash : H256) (transaction_index : U256)
  | get_transaction_by_block_number_and_index (block : BlockNumberOrTag)
      (transaction_index : U256)
  | get_block_transaction_count_by_hash (block_hash : Option H256)
  | get_block_transaction_count_by_number (block : Option BlockNumberOrTag)
  | get_block_by_hash (block_hash : H256)
  | get_block_by_number (block : BlockNumberOrTag)

/-- The type of an answer; a request may fail. -/
def ServerRequest.Result : ServerRequest → Type
  | .block_number => U256
  | .get_transaction_receipt _ => Option ReceiptInfo
  | .get_transaction_by_hash _ => Option RpcTypes.TransactionInfo
  | .get_transaction_by_block_hash_and_index _ _ => Option RpcTypes.TransactionInfo
  | .get_transaction_by_block_number_and_index _ _ => Option RpcTypes.TransactionInfo
  | .get_block_transaction_count_by_hash _ => Option U256
  | .get_block_transaction_count_by_number _ => Option U256
  | .get_block_by_hash _ => Option RpcTypes.Block
  | .get_block_by_number _ => Option RpcTypes.Block

abbrev ServerRequest.Answer (r : ServerRequest) : Type := Except ClientError r.Result

/-- What a handler asks for, besides the questions of the client. -/
inductive ServerQuery where
  /-- The fee of a full block, in the runtime of a block. -/
  | weight_to_fee (block_hash : H256)
  /-- What the timestamp extrinsic of a block sets. -/
  | timestamp (block_hash : H256)
  /-- The answer goes out. -/
  | respond (r : ServerRequest) (answer : r.Answer)

def ServerQuery.Reply : ServerQuery → Type
  | .weight_to_fee _ => Except ClientError Balance
  | .timestamp _ => Option (BitVec 64)
  | .respond _ _ => Unit

/-- What the node may answer to the questions of the client. -/
abbrev Allowed := ∀ q, Answer q → Prop

/-- The answers of a node that answers the same at all times. -/
abbrev Allowed.only (node : ∀ q, Answer q) : Allowed := fun q answer => answer = node q

/-- The questions of the server, and what is answered to them. -/
abbrev Replies (allowed : Allowed) : Query ⊕ ServerQuery → Type :=
  Sum.elim (fun q => { a : Answer q // allowed q a }) ServerQuery.Reply

abbrev ServerOp (N : Nat) (allowed : Allowed) :=
  Routine (BlockCache N) (Query ⊕ ServerQuery) (Replies allowed)

/-! ## The handlers -/

section handlers
variable {N : Nat} {allowed : Allowed} {α : Type}

/-- An operation of the client. -/
def call (op : Op N α) : ServerOp N allowed α := op.rename Sum.inl fun _ a => a.val

def ServerQuery.ask (q : ServerQuery) : ServerOp N allowed q.Reply :=
  (Routine.query (Sum.inr q) : ServerOp N allowed (Replies allowed (.inr q)))

/-- `Client::evm_block`. -/
def evm_block (header : SubstrateBlock → Header) (block : SubstrateBlock) :
    ServerOp N allowed (Except ClientError RpcTypes.Block) := do
  match (← (ServerQuery.weight_to_fee block.hash).ask : Except ClientError Balance) with
  | .error e => return .error e
  | .ok max_fee => do
    let now ← (ServerQuery.timestamp block.hash).ask
    return .ok (to_evm_block (header block) block max_fee now)

/-- A block that was looked up, as it is served. -/
def serve_block (header : SubstrateBlock → Header)
    (found : Except ClientError (Option SubstrateBlock)) :
    ServerOp N allowed (Except ClientError (Option RpcTypes.Block)) :=
  match found with
  | .error e => return .error e
  | .ok none => return .ok none
  | .ok (some block) => do
    let served ← evm_block header block
    return served.map some

/-- `receipts_count_per_block`, as it is served. -/
def serve_count (block_hash : H256) : ServerOp N allowed (Except ClientError (Option U256)) := do
  let count ← call (Client.receipts_count_per_block block_hash)
  return .ok (count.map (BitVec.ofNat 256))

def serve_transaction (block_hash : H256) (transaction_index : U256) :
    ServerOp N allowed (Except ClientError (Option RpcTypes.TransactionInfo)) := do
  let receipt ← call (Client.receipt_by_hash_and_index block_hash transaction_index)
  return .ok (receipt.map .from_receipt)

/-- The handler of a request. -/
def handle (header : SubstrateBlock → Header) : (r : ServerRequest) → ServerOp N allowed r.Answer
  | .block_number => do
    let number ← call Client.block_number
    return (number.map (BitVec.setWidth 256) : Except ClientError U256)
  | .get_transaction_receipt transaction_hash => do
    let receipt ← call (Client.receipt transaction_hash)
    return (.ok receipt : Except ClientError (Option ReceiptInfo))
  | .get_transaction_by_hash transaction_hash => do
    let receipt ← call (Client.receipt transaction_hash)
    return (.ok (receipt.map .from_receipt) : Except ClientError (Option RpcTypes.TransactionInfo))
  | .get_transaction_by_block_hash_and_index block_hash transaction_index =>
    serve_transaction block_hash transaction_index
  | .get_transaction_by_block_number_and_index block transaction_index => do
    match ← call (Client.block_by_number_or_tag block) with
    | .error e => return (.error e : Except ClientError (Option RpcTypes.TransactionInfo))
    | .ok none => return (.ok none : Except ClientError (Option RpcTypes.TransactionInfo))
    | .ok (some block) => serve_transaction block.hash transaction_index
  | .get_block_transaction_count_by_hash (some block_hash) => serve_count block_hash
  | .get_block_transaction_count_by_hash none => do
    match ← call Client.latest_block with
    | none => return (.error .BlockNotFound : Except ClientError (Option U256))
    | some block => serve_count block.hash
  | .get_block_transaction_count_by_number block => do
    let found ← call (Client.block_by_number_or_tag (block.getD (.BlockTag .Latest)))
    match ← serve_block header found with
    | .error e => return (.error e : Except ClientError (Option U256))
    | .ok none => return (.ok none : Except ClientError (Option U256))
    | .ok (some block) => serve_count block.hash
  | .get_block_by_hash block_hash => do
    let found ← call (Client.block_by_hash block_hash)
    serve_block header found
  | .get_block_by_number block => do
    let found ← call (Client.block_by_number_or_tag block)
    serve_block header found

/-- The task of a request: handle it, and send the answer. -/
def respond (header : SubstrateBlock → Header) (r : ServerRequest) : ServerOp N allowed Unit := do
  let answer ← handle header r
  (ServerQuery.respond r answer).ask

end handlers

/-! ## The operations are sections -/

namespace Client

variable {N : Nat} {α : Type}

/-- One section under a read guard, or none. -/
structure ReadSection (op : Op N α) : Prop where
  atomic : op.Atomic
  bracketed : op.Bracketed [] []

theorem ReadSection.reader {op : Op N α} (h : ReadSection op) : op.Reader :=
  ⟨h.bracketed, h.atomic.readOnly⟩

theorem atomic_look {f : BlockCache N → Op N α} (h : ∀ cache, (f cache).Nested 0) :
    (Routine.guarded .read (Routine.get >>= f)).Atomic :=
  .guarded .read _ h

theorem latest_block_section : ReadSection (latest_block (N := N)) :=
  ⟨atomic_look fun _ => Routine.nested_pure _, latest_block_bracketed (by simp)⟩

theorem receipt_section (t : H256) : ReadSection (receipt (N := N) t) :=
  ⟨atomic_look fun _ => Routine.nested_pure _, receipt_bracketed t (by simp)⟩

theorem receipt_by_hash_and_index_section (h : H256) (i : U256) :
    ReadSection (receipt_by_hash_and_index (N := N) h i) :=
  ⟨atomic_look fun _ => Routine.nested_pure _, receipt_by_hash_and_index_bracketed h i (by simp)⟩

theorem receipts_count_per_block_section (h : H256) :
    ReadSection (receipts_count_per_block (N := N) h) :=
  ⟨atomic_look fun _ => Routine.nested_pure _, receipts_count_per_block_bracketed h (by simp)⟩

theorem block_number_section : ReadSection (block_number (N := N)) := by
  refine ⟨atomic_look fun cache => ?_, block_number_bracketed (by simp)⟩
  cases cache.latest_block with
  | none => exact Routine.nested_pure _
  | some block => exact Routine.nested_pure _

theorem get_block_hash_section (n : BitVec 32) : ReadSection (get_block_hash (N := N) n) := by
  refine ⟨atomic_look fun cache => ?_, get_block_hash_bracketed n (by simp)⟩
  cases cache.blocks_by_number.lookup n with
  | none => exact Routine.nested_query _
  | some block => exact Routine.nested_pure _

theorem block_by_hash_section (h : H256) : ReadSection (block_by_hash (N := N) h) := by
  refine ⟨atomic_look fun cache => ?_, block_by_hash_bracketed h (by simp)⟩
  cases cache.blocks_by_hash.lookup h with
  | some block => exact Routine.nested_pure _
  | none =>
    refine (Routine.nested_query _).bind fun answer => ?_
    match answer with
    | .ok block => exact Routine.nested_pure _
    | .error .NotFound => exact Routine.nested_pure _
    | .error (.Other e) => exact Routine.nested_pure _

/-- The outer guard is held all along, so the two inner sections see the
    cache of the same moment. -/
theorem block_by_number_section (n : BitVec 32) : ReadSection (block_by_number (N := N) n) := by
  refine ⟨atomic_look fun cache => ?_, block_by_number_bracketed n (by simp)⟩
  cases cache.blocks_by_number.lookup n with
  | some block => exact Routine.nested_pure _
  | none =>
    refine (get_block_hash_section n).atomic.nested.bind fun answer => ?_
    match answer with
    | .ok (some hash) => exact (block_by_hash_section hash).atomic.nested
    | .ok none => exact Routine.nested_pure _
    | .error e => exact Routine.nested_pure _

theorem block_by_number_or_tag_section (b : BlockNumberOrTag) :
    ReadSection (block_by_number_or_tag (N := N) b) := by
  refine ⟨?_, block_by_number_or_tag_bracketed b (by simp)⟩
  cases b with
  | U256 n =>
    unfold block_by_number_or_tag
    simp only
    cases try_into 32 n with
    | some n => exact (block_by_number_section n).atomic
    | none => exact .done _
  | BlockTag tag => exact atomic_look fun _ => Routine.nested_pure _

/-- Two sections, and the node between or after them. -/
theorem select_block_reader («at» : BlockNumberOrTagOrHash) :
    (select_block (N := N) «at»).Reader := by
  cases «at» with
  | U256 n =>
    unfold select_block
    simp only
    cases try_into 32 n with
    | some n =>
      refine (get_block_hash_section n).reader.bind fun answer => ?_
      match answer with
      | .ok (some hash) => exact Routine.reader_pure _
      | .ok none => exact Routine.reader_pure _
      | .error e => exact Routine.reader_pure _
    | none => exact Routine.reader_pure _
  | H256 hash => exact Routine.reader_pure _
  | BlockTag tag =>
    refine latest_block_section.reader.bind fun block => ?_
    cases block with
    | some block => exact Routine.reader_pure _
    | none => exact Routine.reader_query _

theorem discard_reader {op : Op N α} (h : op.Reader) : (discard op).Reader :=
  h.bind fun _ => Routine.reader_pure _

theorem serve_reader (r : Request) : (serve (N := N) r).Reader := by
  cases r with
  | latest_block => exact discard_reader latest_block_section.reader
  | receipt t => exact discard_reader (receipt_section t).reader
  | receipt_by_hash_and_index h i =>
    exact discard_reader (receipt_by_hash_and_index_section h i).reader
  | receipts_count_per_block h => exact discard_reader (receipts_count_per_block_section h).reader
  | block_number => exact discard_reader block_number_section.reader
  | get_block_hash n => exact discard_reader (get_block_hash_section n).reader
  | block_by_hash h => exact discard_reader (block_by_hash_section h).reader
  | block_by_number n => exact discard_reader (block_by_number_section n).reader
  | block_by_number_or_tag b => exact discard_reader (block_by_number_or_tag_section b).reader
  | storage_api «at» => exact discard_reader (select_block_reader «at»)
  | runtime_api «at» => exact discard_reader (select_block_reader «at»)

end Client

/-! ## Handlers change nothing -/

section readers
variable {N : Nat} {allowed : Allowed} {α : Type} {header : SubstrateBlock → Header}

theorem call_reader {op : Op N α} (h : Client.ReadSection op) :
    (call op : ServerOp N allowed α).Reader :=
  h.reader.rename

theorem evm_block_reader {block : SubstrateBlock} :
    (evm_block header block : ServerOp N allowed _).Reader := by
  refine (Routine.reader_query _).bind fun max_fee => ?_
  match (max_fee : Except ClientError Balance) with
  | .error e => exact Routine.reader_pure _
  | .ok max_fee => exact (Routine.reader_query _).bind fun _ => Routine.reader_pure _

theorem serve_block_reader {found : Except ClientError (Option SubstrateBlock)} :
    (serve_block header found : ServerOp N allowed _).Reader := by
  match found with
  | .error e => exact Routine.reader_pure _
  | .ok none => exact Routine.reader_pure _
  | .ok (some block) => exact evm_block_reader.bind fun _ => Routine.reader_pure _

theorem serve_count_reader (block_hash : H256) :
    (serve_count block_hash : ServerOp N allowed _).Reader :=
  (call_reader (Client.receipts_count_per_block_section block_hash)).bind fun _ =>
    Routine.reader_pure _

theorem serve_transaction_reader (block_hash : H256) (transaction_index : U256) :
    (serve_transaction block_hash transaction_index : ServerOp N allowed _).Reader :=
  (call_reader (Client.receipt_by_hash_and_index_section block_hash transaction_index)).bind
    fun _ => Routine.reader_pure _

theorem handle_reader (r : ServerRequest) : (handle header r : ServerOp N allowed _).Reader := by
  cases r with
  | block_number =>
    exact (call_reader Client.block_number_section).bind fun _ => Routine.reader_pure _
  | get_transaction_receipt t =>
    exact (call_reader (Client.receipt_section t)).bind fun _ => Routine.reader_pure _
  | get_transaction_by_hash t =>
    exact (call_reader (Client.receipt_section t)).bind fun _ => Routine.reader_pure _
  | get_transaction_by_block_hash_and_index h i => exact serve_transaction_reader h i
  | get_transaction_by_block_number_and_index b i =>
    refine (call_reader (Client.block_by_number_or_tag_section b)).bind fun found => ?_
    match found with
    | .error e => exact Routine.reader_pure _
    | .ok none => exact Routine.reader_pure _
    | .ok (some block) => exact serve_transaction_reader block.hash i
  | get_block_transaction_count_by_hash block_hash =>
    cases block_hash with
    | some h => exact serve_count_reader h
    | none =>
      refine (call_reader Client.latest_block_section).bind fun found => ?_
      cases found with
      | none => exact Routine.reader_pure _
      | some block => exact serve_count_reader block.hash
  | get_block_transaction_count_by_number b =>
    refine (call_reader (Client.block_by_number_or_tag_section _)).bind fun found => ?_
    refine serve_block_reader.bind fun served => ?_
    match served with
    | .error e => exact Routine.reader_pure _
    | .ok none => exact Routine.reader_pure _
    | .ok (some block) => exact serve_count_reader block.hash
  | get_block_by_hash h =>
    exact (call_reader (Client.block_by_hash_section h)).bind fun _ => serve_block_reader
  | get_block_by_number b =>
    exact (call_reader (Client.block_by_number_or_tag_section b)).bind fun _ => serve_block_reader

theorem respond_reader (r : ServerRequest) : (respond header r : ServerOp N allowed _).Reader :=
  (handle_reader r).bind fun _ => Routine.reader_query _

end readers

end EthRpc
