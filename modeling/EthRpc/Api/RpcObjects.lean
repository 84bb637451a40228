import EthRpc.Api.HexStrings
import EthRpc.Api.UntaggedEnums

/-! # JSON forms of requests and answers

    The structs that travel whole in a request or in an answer: the generic
    transaction, receipts and their logs, and blocks.

    * `objects_round_trip`: requests and receipts are read back as they were
      written.
    * `block_round_trips_iff`: a block is read back as it was written unless
      it has an empty list of full transactions, since what is written then
      is read as an empty list of hashes.
-/

namespace EthRpc

open Serde

namespace RpcTypes

/-! ## The generic transaction -/

/-- Transaction object generic to all types. -/
structure GenericTransaction where
  access_list : Option AccessList
  blob_versioned_hashes : Option (List H256)
  blobs : Option (List Bytes)
  chain_id : Option U256
  «from» : Option Address
  gas : Option U256
  gas_price : Option U256
  input : Option Bytes
  max_fee_per_blob_gas : Option U256
  max_fee_per_gas : Option U256
  max_priority_fee_per_gas : Option U256
  nonce : Option U256
  «to» : Option Address
  type : Option UInt8
  value : Option U256
  deriving DecidableEq

/-- `GenericTransaction::default()`. -/
def GenericTransaction.default : GenericTransaction where
  access_list := none
  blob_versioned_hashes := none
  blobs := none
  chain_id := none
  «from» := none
  gas := none
  gas_price := none
  input := none
  max_fee_per_blob_gas := none
  max_fee_per_gas := none
  max_priority_fee_per_gas := none
  nonce := none
  «to» := none
  type := none
  value := none

/-! ## Receipts and logs -/

/-- log -/
structure Log where
  address : Option Address
  block_hash : Option H256
  block_number : Option U256
  data : Option Bytes
  log_index : Option U256
  removed : Option Bool
  topics : Option (List H256)
  transaction_hash : H256
  transaction_index : Option U256
  deriving DecidableEq

/-- Receipt information, with all fields. -/
structure ReceiptInfo where
  blob_gas_price : Option U256
  blob_gas_used : Option U256
  block_hash : H256
  block_number : U256
  contract_address : Option Address
  cumulative_gas_used : U256
  effective_gas_price : U256
  «from» : Address
  gas_used : U256
  logs : List Log
  logs_bloom : Bytes256
  root : Option H256
  status : Option U256
  «to» : Option Address
  transaction_hash : H256
  transaction_index : U256
  type : Option UInt8
  deriving DecidableEq

/-! ## Blocks -/

/-- Validator withdrawal. -/
structure Withdrawal where
  address : Address
  amount : U256
  index : U256
  validator_index : U256
  deriving DecidableEq

/-- Block object. The transactions are a parameter, since they are read in a
    second step. -/
structure BlockOf (Transactions : Type) where
  base_fee_per_gas : Option U256
  blob_gas_used : Option U256
  difficulty : Option U256
  excess_blob_gas : Option U256
  extra_data : Bytes
  gas_limit : U256
  gas_used : U256
  hash : H256
  logs_bloom : Bytes256
  miner : Address
  mix_hash : H256
  nonce : String
  number : U256
  parent_beacon_block_root : Option H256
  parent_hash : H256
  receipts_root : H256
  sha_3_uncles : H256
  size : U256
  state_root : H256
  timestamp : U256
  total_difficulty : Option U256
  transactions : Transactions
  transactions_root : H256
  uncles : List H256
  withdrawals : Option (List Withdrawal)
  withdrawals_root : Option H256
  deriving DecidableEq

abbrev Block := BlockOf H256OrTransactionInfo

end RpcTypes

def Bytes256.codec : Codec Bytes256 :=
  .of_str Bytes256.to_hex Bytes256.from_hex Bytes256.from_hex_to_hex

theorem Bytes.codec_ne_null (b : Bytes) : Bytes.codec.write b ≠ .null := nofun

theorem Byte.codec_ne_null (b : UInt8) : Byte.codec.write b ≠ .null := nofun

namespace EthereumTypes

variable (E : EthereumTypes)

theorem h256_ne_null (h : H256) : E.h256.write h ≠ .null := nofun

theorem vec_ne_null {α : Type} (c : Codec α) (l : List α) : c.vec.write l ≠ .null := nofun

/-- A field `Option<H256>` that is skipped when it is `None`. -/
def h256? (name : String) : Record (Option H256) := .skipped name E.h256 E.h256_ne_null

/-- A field `Option<Address>` that is skipped when it is `None`. -/
def address? (name : String) : Record (Option Address) := .skipped name E.address E.address_ne_null

/-- A field `Option<Vec<T>>` that is skipped when it is `None`. -/
def vec? {α : Type} (name : String) (c : Codec α) : Record (Option (List α)) :=
  .skipped name c.vec (vec_ne_null c)

/-- The field `type` of a transaction or of a receipt, when it is optional. -/
def type? : Record (Option UInt8) := .skipped "type" Byte.codec Byte.codec_ne_null

def generic_transaction : Record RpcTypes.GenericTransaction :=
  ((vec? "accessList" E.access_list_entry.codec).and <|
    (vec? "blobVersionedHashes" E.h256).and <|
    (vec? "blobs" Bytes.codec).and <|
    (E.num? "chainId").and <|
    (E.address? "from").and <|
    (E.num? "gas").and <|
    (E.num? "gasPrice").and <|
    (Record.aliased "input" "data" Bytes.codec Bytes.codec_ne_null).and <|
    (E.num? "maxFeePerBlobGas").and <|
    (E.num? "maxFeePerGas").and <|
    (E.num? "maxPriorityFeePerGas").and <|
    (E.num? "nonce").and <|
    E.recipient.and <|
    type?.and
    (E.num? "value")).iso
    (fun (access_list, blob_versioned_hashes, blobs, chain_id, «from», gas, gas_price, input,
      max_fee_per_blob_gas, max_fee_per_gas, max_priority_fee_per_gas, nonce, «to», type, value) =>
      { access_list, blob_versioned_hashes, blobs, chain_id, «from», gas, gas_price, input,
        max_fee_per_blob_gas, max_fee_per_gas, max_priority_fee_per_gas, nonce, «to», type, value })
    (fun t => (t.access_list, t.blob_versioned_hashes, t.blobs, t.chain_id, t.from, t.gas,
      t.gas_price, t.input, t.max_fee_per_blob_gas, t.max_fee_per_gas, t.max_priority_fee_per_gas,
      t.nonce, t.to, t.type, t.value))
    fun _ => rfl

def log : Record RpcTypes.Log :=
  ((E.address? "address").and <|
    (E.h256? "blockHash").and <|
    (E.num? "blockNumber").and <|
    (Record.skipped "data" Bytes.codec Bytes.codec_ne_null).and <|
    (E.num? "logIndex").and <|
    (Record.skipped "removed" Codec.bool nofun).and <|
    (vec? "topics" E.h256).and <|
    (Record.field "transactionHash" E.h256).and
    (E.num? "transactionIndex")).iso
    (fun (address, block_hash, block_number, data, log_index, removed, topics, transaction_hash,
      transaction_index) =>
      { address, block_hash, block_number, data, log_index, removed, topics, transaction_hash,
        transaction_index })
    (fun l => (l.address, l.block_hash, l.block_number, l.data, l.log_index, l.removed, l.topics,
      l.transaction_hash, l.transaction_index))
    fun _ => rfl

def receipt_info : Record RpcTypes.ReceiptInfo :=
  ((E.num? "blobGasPrice").and <|
    (E.num? "blobGasUsed").and <|
    (Record.field "blockHash" E.h256).and <|
    (E.num "blockNumber").and <|
    (Record.nullable "contractAddress" E.address E.address_ne_null).and <|
    (E.num "cumulativeGasUsed").and <|
    (E.num "effectiveGasPrice").and <|
    (Record.field "from" E.address).and <|
    (E.num "gasUsed").and <|
    (Record.field "logs" E.log.codec.vec).and <|
    (Record.field "logsBloom" Bytes256.codec).and <|
    (E.h256? "root").and <|
    (E.num? "status").and <|
    E.recipient.and <|
    (Record.field "transactionHash" E.h256).and <|
    (E.num "transactionIndex").and
    type?).iso
    (fun (blob_gas_price, blob_gas_used, block_hash, block_number, contract_address,
      cumulative_gas_used, effective_gas_price, «from», gas_used, logs, logs_bloom, root, status,
      «to», transaction_hash, transaction_index, type) =>
      { blob_gas_price, blob_gas_used, block_hash, block_number, contract_address,
        cumulative_gas_used, effective_gas_price, «from», gas_used, logs, logs_bloom, root, status,
        «to», transaction_hash, transaction_index, type })
    (fun r => (r.blob_gas_price, r.blob_gas_used, r.block_hash, r.block_number, r.contract_address,
      r.cumulative_gas_used, r.effective_gas_price, r.from, r.gas_used, r.logs, r.logs_bloom,
      r.root, r.status, r.to, r.transaction_hash, r.transaction_index, r.type))
    fun _ => rfl

def withdrawal : Record RpcTypes.Withdrawal :=
  ((Record.field "address" E.address).and <|
    (E.num "amount").and <|
    (E.num "index").and
    (E.num "validatorIndex")).iso
    (fun (address, amount, index, validator_index) => { address, amount, index, validator_index })
    (fun w => (w.address, w.amount, w.index, w.validator_index))
    fun _ => rfl

/-- The members of a block, the transactions still as a document. -/
def block_members : Record (RpcTypes.BlockOf Json) :=
  ((E.num? "baseFeePerGas").and <|
    (E.num? "blobGasUsed").and <|
    (E.num? "difficulty").and <|
    (E.num? "excessBlobGas").and <|
    (Record.field "extraData" Bytes.codec).and <|
    (E.num "gasLimit").and <|
    (E.num "gasUsed").and <|
    (Record.field "hash" E.h256).and <|
    (Record.field "logsBloom" Bytes256.codec).and <|
    (Record.field "miner" E.address).and <|
    (Record.field "mixHash" E.h256).and <|
    (Record.field "nonce" Codec.string).and <|
    (E.num "number").and <|
    (E.h256? "parentBeaconBlockRoot").and <|
    (Record.field "parentHash" E.h256).and <|
    (Record.field "receiptsRoot" E.h256).and <|
    (Record.field "sha3Uncles" E.h256).and <|
    (E.num "size").and <|
    (Record.field "stateRoot" E.h256).and <|
    (E.num "timestamp").and <|
    (E.num? "totalDifficulty").and <|
    (Record.field "transactions" Codec.raw).and <|
    (Record.field "transactionsRoot" E.h256).and <|
    (Record.field "uncles" E.h256.vec).and <|
    (vec? "withdrawals" E.withdrawal.codec).and
    (E.h256? "withdrawalsRoot")).iso
    (fun (base_fee_per_gas, blob_gas_used, difficulty, excess_blob_gas, extra_data, gas_limit,
      gas_used, hash, logs_bloom, miner, mix_hash, nonce, number, parent_beacon_block_root,
      parent_hash, receipts_root, sha_3_uncles, size, state_root, timestamp, total_difficulty,
      transactions, transactions_root, uncles, withdrawals, withdrawals_root) =>
      { base_fee_per_gas, blob_gas_used, difficulty, excess_blob_gas, extra_data, gas_limit,
        gas_used, hash, logs_bloom, miner, mix_hash, nonce, number, parent_beacon_block_root,
        parent_hash, receipts_root, sha_3_uncles, size, state_root, timestamp, total_difficulty,
        transactions, transactions_root, uncles, withdrawals, withdrawals_root })
    (fun b => (b.base_fee_per_gas, b.blob_gas_used, b.difficulty, b.excess_blob_gas, b.extra_data,
      b.gas_limit, b.gas_used, b.hash, b.logs_bloom, b.miner, b.mix_hash, b.nonce, b.number,
      b.parent_beacon_block_root, b.parent_hash, b.receipts_root, b.sha_3_uncles, b.size,
      b.state_root, b.timestamp, b.total_difficulty, b.transactions, b.transactions_root, b.uncles,
      b.withdrawals, b.withdrawals_root))
    fun _ => rfl

/-- **Requests and receipts** are read back as they were written. -/
theorem objects_round_trip (t : RpcTypes.GenericTransaction) (r : RpcTypes.ReceiptInfo) :
    E.generic_transaction.codec.read (E.generic_transaction.codec.write t) = some t ∧
      E.receipt_info.codec.read (E.receipt_info.codec.write r) = some r :=
  ⟨Codec.read_write _ t, Codec.read_write _ r⟩

end EthereumTypes

/-! ## Blocks and their transactions -/

/-- The same block, with its transactions in another form. -/
def RpcTypes.BlockOf.map {T T' : Type} (f : T → T') (b : RpcTypes.BlockOf T) : RpcTypes.BlockOf T' :=
  { b with transactions := f b.transactions }

namespace EthereumTypes

variable (E : EthereumTypes)

/-- `Serialize` of a block. -/
def block_write (b : RpcTypes.Block) : Json :=
  E.block_members.codec.write (b.map E.h256_or_transaction_info.write)

/-- `Deserialize` of a block. -/
def block_read (j : Json) : Option RpcTypes.Block := do
  let b ← E.block_members.codec.read j
  let transactions ← E.h256_or_transaction_info.read b.transactions
  return b.map fun _ => transactions

/-- **Blocks.** A block is read back unless it has an empty list of full
    transactions. -/
theorem block_round_trips_iff (b : RpcTypes.Block) :
    E.block_read (E.block_write b) = some b ↔ b.transactions ≠ .TransactionInfos [] := by
  rw [← E.h256_or_transaction_info_round_trips_iff, Untagged.RoundTrips, block_read, block_write,
    Codec.read_write, Option.bind_eq_bind, Option.bind_some]
  show (E.h256_or_transaction_info.read (E.h256_or_transaction_info.write b.transactions)).bind _ =
    _ ↔ _
  constructor
  · intro h
    obtain ⟨transactions, hread, hb⟩ := Option.bind_eq_some_iff.mp h
    have hsame := congrArg RpcTypes.BlockOf.transactions (Option.some.inj hb)
    rw [hread]
    exact congrArg some hsame
  · intro h
    rw [h]
    rfl

end EthereumTypes

end EthRpc
