import EthRpc.Api.UntaggedEnums
import EthRpc.Rpc.Lookups

/-! # A block named by its hash

    A request names a block by a JSON document, which is read as a
    `BlockNumberOrTagOrHash` and handed to `storage_api` or `runtime_api`.
    Both have an arm for a hash. No hash reaches it: it is read as a number,
    and a number of 256 bits is a block number too large, unless the hash
    starts with 28 zero bytes.

    `untagged_round_trips_iff` says of all untagged enums which values are
    read back as they were written.
-/

namespace EthRpc

open Serde

namespace EthereumTypes

variable (E : EthereumTypes)

/-! ## Round trips -/

/-- **Untagged enums.** Every value is read back as it was written, except
    for the hashes among the names of a block, and for the empty list of
    transactions. -/
theorem untagged_round_trips_iff :
    (∀ x, E.block_number_or_tag.RoundTrips x) ∧
      (∀ x, E.block_number_or_tag_or_hash.RoundTrips x ↔ ∀ hash, x ≠ .H256 hash) ∧
      (∀ x, E.h256_or_transaction_info.RoundTrips x ↔ x ≠ .TransactionInfos []) ∧
      (∀ x, E.transaction_unsigned.RoundTrips x) ∧
      (∀ x, E.transaction_signed.RoundTrips x) :=
  ⟨E.block_number_or_tag_round_trips, E.block_number_or_tag_or_hash_round_trips_iff,
    E.h256_or_transaction_info_round_trips_iff, E.transaction_unsigned_round_trips,
    E.transaction_signed_round_trips⟩

/-! ## The arm for a hash -/

/-- What a request that names a block by `hash` is read as. -/
def requested (hash : H256) : Option BlockNumberOrTagOrHash :=
  E.block_number_or_tag_or_hash.read (E.block_number_or_tag_or_hash.write (.H256 hash))

/-- **No hash is looked up as one.** A request that names a block by its
    hash asks for the block of a number, and fails if the number does not
    fit into 32 bits. -/
theorem requested_is_number (hash : H256) :
    ∃ n, E.requested hash = some (.U256 n) ∧
      (2 ^ 32 ≤ of_be hash.toList → ∀ {N : Nat},
        Client.storage_api (N := N) (.U256 n) = pure (.error .ConversionFailed) ∧
        Client.runtime_api (N := N) (.U256 n) = pure (.error .ConversionFailed)) := by
  refine ⟨_, E.block_number_or_tag_or_hash_read_hash hash, ?_⟩
  intro hlarge N
  have hlt : of_be hash.toList < 2 ^ 256 := by
    have := of_be_lt hash.toList
    rw [hash.toList_length] at this
    norm_num at this ⊢
    exact this
  have hnone : try_into 32 (BitVec.ofNat 256 (of_be hash.toList)) = none := by
    rw [try_into, BitVec.toNat_ofNat, Nat.mod_eq_of_lt hlt, if_neg (by omega)]
  simp only [Client.storage_api, Client.runtime_api, Client.select_block, hnone, and_self]

end EthereumTypes

/-! ## A sample hash -/

namespace Sample

/-- The string forms, read with the `0x` in front only. -/
def ethereum_types : EthereumTypes where
  u256_to_str n := .ofList ('0' :: 'x' :: Hex.of_nat n.toNat)
  u256_from_str s :=
    match s.toList with
    | '0' :: 'x' :: s =>
      if 1 ≤ s.length ∧ s.length ≤ 64 then (Hex.to_nat s).map (BitVec.ofNat 256) else none
    | _ => none
  hash_to_str h := .ofList ('0' :: 'x' :: Hex.encode h.toList)
  hash_from_str {n} s :=
    match s.toList with
    | '0' :: 'x' :: s => (Hex.decode s).bind fun l => if h : l.length = n then some ⟨l, h⟩ else none
    | _ => none
  u256_to_str_eq _ := rfl
  u256_from_str_eq s := by simp only [String.toList_ofList]
  digit_of_u256_from_str s n h := by
    rw [String.toList_ofList] at h
    split at h
    · exact Or.inl ⟨_, rfl⟩
    · cases h
  hash_to_str_eq _ := rfl
  hash_from_str_eq s := by simp only [String.toList_ofList]

end Sample

/-- The hash of 32 bytes `0xff`: it is read as the largest number, and
    neither API is given. With the hash itself, either would be. -/
theorem hash_read_as_number :
    let hash : H256 := List.Vector.replicate 32 0xff
    ¬ Sample.ethereum_types.block_number_or_tag_or_hash.RoundTrips (.H256 hash) ∧
      Sample.ethereum_types.requested hash = some (.U256 (BitVec.allOnes 256)) ∧
      Client.storage_api (N := 1) (.U256 (BitVec.allOnes 256)) = pure (.error .ConversionFailed) ∧
      Client.storage_api (N := 1) (.H256 hash) = pure (.ok hash) := by
  refine ⟨?_, by decide +kernel, rfl, rfl⟩
  intro h
  exact (Sample.ethereum_types.block_number_or_tag_or_hash_round_trips_iff _).mp h _ rfl

end EthRpc
