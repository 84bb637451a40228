import EthRpc.Framework.ScaleFormat
import EthRpc.Api.RpcObjects

/-! # SCALE forms of the API types

    What goes between the server and the node: the generic transaction, as
    the argument of a dry run, and the outcome of the dry run.
-/

namespace EthRpc

open Scale

/-! ## Numbers, hashes, bytes -/

namespace ScaleTypes

def u256 : Format U256 := .word 32

def u128 : Format Balance := .word 16

def h160 : Format H160 := .fixed 20

def h256 : Format H256 := .fixed 32

theorem vec_length_le_usize : 2 ^ 32 ≤ 2 ^ 63 := by decide

/-- `Bytes`. -/
def byte_vec : Format Bytes := .bytes (2 ^ 63) vec_length_le_usize

/-- `Compact<u32>`. -/
def compact_u32 : Format (BitVec 32) := .compact 4

/-- `Compact<u64>`. -/
def compact_u64 : Format (BitVec 64) := .compact 8

/-- `Compact<u128>`. -/
def compact_u128 : Format (BitVec 128) := .compact 16

/-- `Weight`, both parts compact. -/
def weight : Format Weight :=
  (compact_u64.pair compact_u64).iso
    (fun (ref_time, proof_size) => ⟨ref_time, proof_size⟩) (fun w => (w.ref_time, w.proof_size))
    (fun _ => rfl) (fun _ => rfl)

@[simp] theorem u256_fits (n : U256) : u256.fits n = true := rfl

@[simp] theorem u128_fits (n : Balance) : u128.fits n = true := rfl

@[simp] theorem h160_fits (a : H160) : h160.fits a = true := rfl

@[simp] theorem h256_fits (h : H256) : h256.fits h = true := rfl

@[simp] theorem byte_vec_fits (b : Bytes) : byte_vec.fits b = decide (b.data.length < 2 ^ 32) := rfl

@[simp] theorem compact_u32_fits (n : BitVec 32) : compact_u32.fits n = true := rfl

@[simp] theorem compact_u64_fits (n : BitVec 64) : compact_u64.fits n = true := rfl

@[simp] theorem compact_u128_fits (n : BitVec 128) : compact_u128.fits n = true := rfl

@[simp] theorem weight_fits (w : Weight) : weight.fits w = true := rfl

/-! ## The generic transaction -/

def access_list_entry : Format AccessListEntry :=
  (h160.pair h256.vec).iso (fun (address, storage_keys) => ⟨address, storage_keys⟩)
    (fun e => (e.address, e.storage_keys)) (fun _ => rfl) (fun _ => rfl)

def generic_transaction : Format RpcTypes.GenericTransaction :=
  (access_list_entry.vec.option.pair <|
    h256.vec.option.pair <|
    byte_vec.vec.option.pair <|
    u256.option.pair <|
    h160.option.pair <|
    u256.option.pair <|
    u256.option.pair <|
    byte_vec.option.pair <|
    u256.option.pair <|
    u256.option.pair <|
    u256.option.pair <|
    u256.option.pair <|
    h160.option.pair <|
    Format.byte.option.pair
    u256.option).iso
    (fun (access_list, blob_versioned_hashes, blobs, chain_id, «from», gas, gas_price, input,
      max_fee_per_blob_gas, max_fee_per_gas, max_priority_fee_per_gas, nonce, «to», type, value) =>
      { access_list, blob_versioned_hashes, blobs, chain_id, «from», gas, gas_price, input,
        max_fee_per_blob_gas, max_fee_per_gas, max_priority_fee_per_gas, nonce, «to», type, value })
    (fun t => (t.access_list, t.blob_versioned_hashes, t.blobs, t.chain_id, t.from, t.gas,
      t.gas_price, t.input, t.max_fee_per_blob_gas, t.max_fee_per_gas, t.max_priority_fee_per_gas,
      t.nonce, t.to, t.type, t.value))
    (fun _ => rfl) (fun _ => rfl)

/-! ## The outcome of a dry run -/

/-- `Vec<u8>`, as a list. -/
def bytes_list : Format (List UInt8) := Format.byte.vec

/-- `DryRunInfo<Balance>`. -/
def dry_run_info : Format DryRunInfo :=
  (weight.pair <| u128.option.pair bytes_list).iso
    (fun (gas_limit, storage_deposit_limit, return_data) =>
      { gas_limit, storage_deposit_limit, return_data })
    (fun i => (i.gas_limit, i.storage_deposit_limit, i.return_data)) (fun _ => rfl) (fun _ => rfl)

/-- Of the outcome of a dry run, only the return data can be too long. -/
@[simp] theorem dry_run_info_fits (i : DryRunInfo) :
    dry_run_info.fits i = decide (i.return_data.length < 2 ^ 32) := by
  have hdata : bytes_list.fits i.return_data = decide (i.return_data.length < 2 ^ 32) := by
    simp [bytes_list]
  simp [dry_run_info, Format.iso, hdata, Option.all_eq_true]

end ScaleTypes

end EthRpc
