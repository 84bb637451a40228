import EthRpc.Api.JsonTypes

/-! # JSON forms of transactions

    The structs of `rpc_types.rs` that an untagged enum can hold, with all
    their fields: for each the record of its members, in the order and under
    the names in which they are written. A field is `skipped` when `None` is
    left out, and `nullable` when it is written as null.
-/

namespace EthRpc

open Serde

/-! ## Access lists -/

/-- Access list entry. -/
structure AccessListEntry where
  address : Address
  storage_keys : List H256
  deriving DecidableEq

/-- Access list. -/
abbrev AccessList := List AccessListEntry

namespace EthereumTypes

variable (E : EthereumTypes)

theorem u256_ne_null (n : U256) : E.u256.write n ≠ .null := nofun

theorem address_ne_null (a : Address) : E.address.write a ≠ .null := nofun

def access_list_entry : Record AccessListEntry :=
  ((Record.field "address" E.address).and
    (.field "storageKeys" E.h256.vec)).iso
    (fun (address, storage_keys) => { address, storage_keys })
    (fun e => (e.address, e.storage_keys))
    fun _ => rfl

def access_list : Codec AccessList := E.access_list_entry.codec.vec

/-- A field `U256`. -/
def num (name : String) : Record U256 := .field name E.u256

/-- A field `Option<U256>` that is skipped when it is `None`. -/
def num? (name : String) : Record (Option U256) := .skipped name E.u256 E.u256_ne_null

/-- The recipient of a transaction, null for a deployment. -/
def recipient : Record (Option Address) := .nullable "to" E.address E.address_ne_null

end EthereumTypes

/-! ## Unsigned transactions -/

/-- EIP-4844 transaction. -/
structure Transaction4844Unsigned where
  access_list : AccessList
  blob_versioned_hashes : List H256
  chain_id : U256
  gas : U256
  input : Bytes
  max_fee_per_blob_gas : U256
  max_fee_per_gas : U256
  max_priority_fee_per_gas : U256
  nonce : U256
  «to» : Address
  type : UInt8
  value : U256
  deriving DecidableEq

/-- EIP-1559 transaction. -/
structure Transaction1559Unsigned where
  access_list : AccessList
  chain_id : U256
  gas : U256
  gas_price : U256
  input : Bytes
  max_fee_per_gas : U256
  max_priority_fee_per_gas : U256
  nonce : U256
  «to» : Option Address
  type : Type2
  value : U256
  deriving DecidableEq

/-- EIP-2930 transaction. -/
structure Transaction2930Unsigned where
  access_list : AccessList
  chain_id : U256
  gas : U256
  gas_price : U256
  input : Bytes
  nonce : U256
  «to» : Option Address
  type : Type1
  value : U256
  deriving DecidableEq

namespace EthereumTypes

variable (E : EthereumTypes)

def transaction_4844_unsigned : Record Transaction4844Unsigned :=
  ((Record.field "accessList" E.access_list).and <|
    (Record.field "blobVersionedHashes" E.h256.vec).and <|
    (E.num "chainId").and <|
    (E.num "gas").and <|
    (Record.field "input" Bytes.codec).and <|
    (E.num "maxFeePerBlobGas").and <|
    (E.num "maxFeePerGas").and <|
    (E.num "maxPriorityFeePerGas").and <|
    (E.num "nonce").and <|
    (Record.field "to" E.address).and <|
    (Record.field "type" Byte.codec).and
    (E.num "value")).iso
    (fun (access_list, blob_versioned_hashes, chain_id, gas, input, max_fee_per_blob_gas,
      max_fee_per_gas, max_priority_fee_per_gas, nonce, «to», type, value) =>
      { access_list, blob_versioned_hashes, chain_id, gas, input, max_fee_per_blob_gas,
        max_fee_per_gas, max_priority_fee_per_gas, nonce, «to», type, value })
    (fun t => (t.access_list, t.blob_versioned_hashes, t.chain_id, t.gas, t.input,
      t.max_fee_per_blob_gas, t.max_fee_per_gas, t.max_priority_fee_per_gas, t.nonce, t.to,
      t.type, t.value))
    fun _ => rfl

def transaction_1559_unsigned : Record Transaction1559Unsigned :=
  ((Record.field "accessList" E.access_list).and <|
    (E.num "chainId").and <|
    (E.num "gas").and <|
    (E.num "gasPrice").and <|
    (Record.field "input" Bytes.codec).and <|
    (E.num "maxFeePerGas").and <|
    (E.num "maxPriorityFeePerGas").and <|
    (E.num "nonce").and <|
    E.recipient.and <|
    (Record.field "type" Type2.codec).and
    (E.num "value")).iso
    (fun (access_list, chain_id, gas, gas_price, input, max_fee_per_gas, max_priority_fee_per_gas,
      nonce, «to», type, value) =>
      { access_list, chain_id, gas, gas_price, input, max_fee_per_gas, max_priority_fee_per_gas,
        nonce, «to», type, value })
    (fun t => (t.access_list, t.chain_id, t.gas, t.gas_price, t.input, t.max_fee_per_gas,
      t.max_priority_fee_per_gas, t.nonce, t.to, t.type, t.value))
    fun _ => rfl

def transaction_2930_unsigned : Record Transaction2930Unsigned :=
  ((Record.field "accessList" E.access_list).and <|
    (E.num "chainId").and <|
    (E.num "gas").and <|
    (E.num "gasPrice").and <|
    (Record.field "input" Bytes.codec).and <|
    (E.num "nonce").and <|
    E.recipient.and <|
    (Record.field "type" Type1.codec).and
    (E.num "value")).iso
    (fun (access_list, chain_id, gas, gas_price, input, nonce, «to», type, value) =>
      { access_list, chain_id, gas, gas_price, input, nonce, «to», type, value })
    (fun t => (t.access_list, t.chain_id, t.gas, t.gas_price, t.input, t.nonce, t.to, t.type,
      t.value))
    fun _ => rfl

def transaction_legacy_unsigned : Record TransactionLegacyUnsigned :=
  ((E.num? "chainId").and <|
    (E.num "gas").and <|
    (E.num "gasPrice").and <|
    (Record.field "input" Bytes.codec).and <|
    (E.num "nonce").and <|
    E.recipient.and <|
    (Record.field "type" Type0.codec).and
    (E.num "value")).iso
    (fun (chain_id, gas, gas_price, input, nonce, «to», type, value) =>
      { chain_id, gas, gas_price, input, nonce, «to», type, value })
    (fun t => (t.chain_id, t.gas, t.gas_price, t.input, t.nonce, t.to, t.type, t.value))
    fun _ => rfl

end EthereumTypes

/-! ## Signed transactions -/

/-- Signed 4844 transaction. -/
structure Transaction4844Signed where
  transaction_4844_unsigned : Transaction4844Unsigned
  r : U256
  s : U256
  y_parity : Option U256
  deriving DecidableEq

/-- Signed 1559 transaction. -/
structure Transaction1559Signed where
  transaction_1559_unsigned : Transaction1559Unsigned
  r : U256
  s : U256
  v : Option U256
  y_parity : Option U256
  deriving DecidableEq

/-- Signed 2930 transaction. -/
structure Transaction2930Signed where
  transaction_2930_unsigned : Transaction2930Unsigned
  r : U256
  s : U256
  v : Option U256
  y_parity : U256
  deriving DecidableEq

namespace EthereumTypes

variable (E : EthereumTypes)

def transaction_4844_signed : Record Transaction4844Signed :=
  (E.transaction_4844_unsigned.and <|
    (E.num "r").and <|
    (E.num "s").and
    (E.num? "yParity")).iso
    (fun (transaction_4844_unsigned, r, s, y_parity) =>
      { transaction_4844_unsigned, r, s, y_parity })
    (fun t => (t.transaction_4844_unsigned, t.r, t.s, t.y_parity))
    fun _ => rfl

def transaction_1559_signed : Record Transaction1559Signed :=
  (E.transaction_1559_unsigned.and <|
    (E.num "r").and <|
    (E.num "s").and <|
    (E.num? "v").and
    (E.num? "yParity")).iso
    (fun (transaction_1559_unsigned, r, s, v, y_parity) =>
      { transaction_1559_unsigned, r, s, v, y_parity })
    (fun t => (t.transaction_1559_unsigned, t.r, t.s, t.v, t.y_parity))
    fun _ => rfl

def transaction_2930_signed : Record Transaction2930Signed :=
  (E.transaction_2930_unsigned.and <|
    (E.num "r").and <|
    (E.num "s").and <|
    (E.num? "v").and
    (E.num "yParity")).iso
    (fun (transaction_2930_unsigned, r, s, v, y_parity) =>
      { transaction_2930_unsigned, r, s, v, y_parity })
    (fun t => (t.transaction_2930_unsigned, t.r, t.s, t.v, t.y_parity))
    fun _ => rfl

def transaction_legacy_signed : Record TransactionLegacySigned :=
  (E.transaction_legacy_unsigned.and <|
    (E.num "r").and <|
    (E.num "s").and
    (E.num "v")).iso
    (fun (transaction_legacy_unsigned, r, s, v) =>
      { transaction_legacy_unsigned, r, s, v })
    (fun t => (t.transaction_legacy_unsigned, t.r, t.s, t.v))
    fun _ => rfl

end EthereumTypes

end EthRpc
