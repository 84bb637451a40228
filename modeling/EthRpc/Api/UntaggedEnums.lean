import EthRpc.Api.RpcTypes

/-! # Untagged enums

    The enums that the generator emits for a `oneOf` or `anyOf` schema, with
    their variants in the order in which they are printed, which is the
    order of the schema.

    All their values are read back as they were written, except for every
    block hash, since a hash is also a number and numbers come first, and
    for the empty list of transactions, since it is also an empty list of
    hashes.
-/

namespace EthRpc

open Serde

/-! ## The enums -/

namespace RpcTypes

/-- An unsigned transaction of any type, with all fields. -/
inductive TransactionUnsigned where
  | Transaction4844Unsigned (tx : Transaction4844Unsigned)
  | Transaction1559Unsigned (tx : Transaction1559Unsigned)
  | Transaction2930Unsigned (tx : Transaction2930Unsigned)
  | TransactionLegacyUnsigned (tx : TransactionLegacyUnsigned)
  deriving DecidableEq

/-- A signed transaction of any type. -/
inductive TransactionSigned where
  | Transaction4844Signed (tx : Transaction4844Signed)
  | Transaction1559Signed (tx : Transaction1559Signed)
  | Transaction2930Signed (tx : Transaction2930Signed)
  | TransactionLegacySigned (tx : TransactionLegacySigned)
  deriving DecidableEq

/-- Transaction information. -/
structure TransactionInfo where
  block_hash : H256
  block_number : U256
  «from» : Address
  hash : H256
  transaction_index : U256
  transaction_signed : TransactionSigned
  deriving DecidableEq

/-- The transactions of a block: their hashes, or all about them. -/
inductive H256OrTransactionInfo where
  | H256s (hashes : List H256)
  | TransactionInfos (infos : List TransactionInfo)
  deriving DecidableEq

end RpcTypes

open RpcTypes

namespace EthereumTypes

variable (E : EthereumTypes)

def block_number_or_tag : Untagged BlockNumberOrTag where
  variants := [E.u256.variant "U256" .U256, BlockTag.codec.variant "BlockTag" .BlockTag]
  write
    | .U256 n => E.u256.write n
    | .BlockTag tag => BlockTag.codec.write tag
  read_write x := by
    cases x with
    | U256 n => simp
    | BlockTag tag => simp

def block_number_or_tag_or_hash : Untagged BlockNumberOrTagOrHash where
  variants := [E.u256.variant "U256" .U256, BlockTag.codec.variant "BlockTag" .BlockTag,
    E.h256.variant "H256" .H256]
  write
    | .U256 n => E.u256.write n
    | .BlockTag tag => BlockTag.codec.write tag
    | .H256 hash => E.h256.write hash
  read_write x := by
    cases x with
    | U256 n => simp
    | BlockTag tag => simp
    | H256 hash => simp

def transaction_unsigned : Untagged RpcTypes.TransactionUnsigned where
  variants := [
    E.transaction_4844_unsigned.codec.variant "Transaction4844Unsigned" .Transaction4844Unsigned,
    E.transaction_1559_unsigned.codec.variant "Transaction1559Unsigned" .Transaction1559Unsigned,
    E.transaction_2930_unsigned.codec.variant "Transaction2930Unsigned" .Transaction2930Unsigned,
    E.transaction_legacy_unsigned.codec.variant "TransactionLegacyUnsigned"
      .TransactionLegacyUnsigned]
  write
    | .Transaction4844Unsigned tx => E.transaction_4844_unsigned.codec.write tx
    | .Transaction1559Unsigned tx => E.transaction_1559_unsigned.codec.write tx
    | .Transaction2930Unsigned tx => E.transaction_2930_unsigned.codec.write tx
    | .TransactionLegacyUnsigned tx => E.transaction_legacy_unsigned.codec.write tx
  read_write x := by
    cases x with
    | Transaction4844Unsigned tx => simp
    | Transaction1559Unsigned tx => simp
    | Transaction2930Unsigned tx => simp
    | TransactionLegacyUnsigned tx => simp

def transaction_signed : Untagged RpcTypes.TransactionSigned where
  variants := [
    E.transaction_4844_signed.codec.variant "Transaction4844Signed" .Transaction4844Signed,
    E.transaction_1559_signed.codec.variant "Transaction1559Signed" .Transaction1559Signed,
    E.transaction_2930_signed.codec.variant "Transaction2930Signed" .Transaction2930Signed,
    E.transaction_legacy_signed.codec.variant "TransactionLegacySigned" .TransactionLegacySigned]
  write
    | .Transaction4844Signed tx => E.transaction_4844_signed.codec.write tx
    | .Transaction1559Signed tx => E.transaction_1559_signed.codec.write tx
    | .Transaction2930Signed tx => E.transaction_2930_signed.codec.write tx
    | .TransactionLegacySigned tx => E.transaction_legacy_signed.codec.write tx
  read_write x := by
    cases x with
    | Transaction4844Signed tx => simp
    | Transaction1559Signed tx => simp
    | Transaction2930Signed tx => simp
    | TransactionLegacySigned tx => simp

/-- The members of a signed transaction, where it is flattened into another
    object. -/
def transaction_signed_members : Record RpcTypes.TransactionSigned :=
  (E.transaction_4844_signed.or <|
    E.transaction_1559_signed.or <|
    E.transaction_2930_signed.or
    E.transaction_legacy_signed).iso
    (fun
      | .inl tx => .Transaction4844Signed tx
      | .inr (.inl tx) => .Transaction1559Signed tx
      | .inr (.inr (.inl tx)) => .Transaction2930Signed tx
      | .inr (.inr (.inr tx)) => .TransactionLegacySigned tx)
    (fun
      | .Transaction4844Signed tx => .inl tx
      | .Transaction1559Signed tx => .inr (.inl tx)
      | .Transaction2930Signed tx => .inr (.inr (.inl tx))
      | .TransactionLegacySigned tx => .inr (.inr (.inr tx)))
    fun tx => by
      cases tx with
      | Transaction4844Signed tx => rfl
      | Transaction1559Signed tx => rfl
      | Transaction2930Signed tx => rfl
      | TransactionLegacySigned tx => rfl

/-- Flattened or alone, a signed transaction is read by the same variants. -/
theorem transaction_signed_read (ms : List (String × Json)) :
    E.transaction_signed_members.read ms = E.transaction_signed.read (.obj ms) := by
  simp only [transaction_signed_members, transaction_signed, Record.iso, Record.or, Untagged.read,
    List.findSome?_cons, List.findSome?_nil, Codec.variant, Record.codec]
  cases E.transaction_4844_signed.read ms with
  | some tx => rfl
  | none =>
    cases E.transaction_1559_signed.read ms with
    | some tx => rfl
    | none =>
      cases E.transaction_2930_signed.read ms with
      | some tx => rfl
      | none =>
        cases E.transaction_legacy_signed.read ms with
        | some tx => rfl
        | none => rfl

def transaction_info : Record TransactionInfo :=
  ((Record.field "blockHash" E.h256).and <|
    (E.num "blockNumber").and <|
    (Record.field "from" E.address).and <|
    (Record.field "hash" E.h256).and <|
    (E.num "transactionIndex").and
    E.transaction_signed_members).iso
    (fun (block_hash, block_number, «from», hash, transaction_index, transaction_signed) =>
      { block_hash, block_number, «from», hash, transaction_index, transaction_signed })
    (fun t => (t.block_hash, t.block_number, t.from, t.hash, t.transaction_index,
      t.transaction_signed))
    fun _ => rfl

def h256_or_transaction_info : Untagged H256OrTransactionInfo where
  variants := [E.h256.vec.variant "H256s" .H256s,
    E.transaction_info.codec.vec.variant "TransactionInfos" .TransactionInfos]
  write
    | .H256s hashes => E.h256.vec.write hashes
    | .TransactionInfos infos => E.transaction_info.codec.vec.write infos
  read_write x := by
    cases x with
    | H256s hashes => simp
    | TransactionInfos infos => simp

/-! ## Round trips -/

theorem block_number_or_tag_round_trips (x : BlockNumberOrTag) :
    E.block_number_or_tag.RoundTrips x := by
  cases x with
  | U256 n => exact Untagged.round_trips_of_none [] rfl (Codec.variant_read_write ..) (by simp)
  | BlockTag tag =>
    refine Untagged.round_trips_of_none [_] rfl (Codec.variant_read_write ..) ?_
    rw [List.forall_mem_singleton]
    exact Codec.variant_read_eq_none (BlockTag.u256_read_write E tag)

/-- The hash is read as a number. -/
theorem block_number_or_tag_or_hash_read_hash (hash : H256) :
    E.block_number_or_tag_or_hash.read (E.block_number_or_tag_or_hash.write (.H256 hash)) =
      some (.U256 (BitVec.ofNat 256 (of_be hash.toList))) :=
  Untagged.read_of_head rfl (Codec.variant_read_eq_some (E.u256_read_h256 hash))

theorem block_number_or_tag_or_hash_round_trips_iff (x : BlockNumberOrTagOrHash) :
    E.block_number_or_tag_or_hash.RoundTrips x ↔ ∀ hash, x ≠ .H256 hash := by
  cases x with
  | U256 n =>
    simp only [ne_eq, reduceCtorEq, not_false_eq_true, implies_true, iff_true]
    exact Untagged.round_trips_of_none [] rfl (Codec.variant_read_write ..) (by simp)
  | BlockTag tag =>
    simp only [ne_eq, reduceCtorEq, not_false_eq_true, implies_true, iff_true]
    refine Untagged.round_trips_of_none [_] rfl (Codec.variant_read_write ..) ?_
    rw [List.forall_mem_singleton]
    exact Codec.variant_read_eq_none (BlockTag.u256_read_write E tag)
  | H256 hash =>
    -- the numbers come first, and accept the hash
    rw [Untagged.RoundTrips, E.block_number_or_tag_or_hash_read_hash]
    simp

theorem transaction_unsigned_round_trips (x : RpcTypes.TransactionUnsigned) :
    E.transaction_unsigned.RoundTrips x := by
  cases x with
  | Transaction4844Unsigned tx =>
    exact Untagged.round_trips_of_none [] rfl (Codec.variant_read_write ..) (by simp)
  | Transaction1559Unsigned tx =>
    refine Untagged.round_trips_of_none [_] rfl (Codec.variant_read_write ..) ?_
    rw [List.forall_mem_singleton]
    exact Record.variant_read_eq_none ..
  | Transaction2930Unsigned tx =>
    refine Untagged.round_trips_of_none [_, _] rfl (Codec.variant_read_write ..) ?_
    rw [List.forall_mem_cons, List.forall_mem_singleton]
    exact ⟨Record.variant_read_eq_none .., Record.variant_read_eq_none ..⟩
  | TransactionLegacyUnsigned tx =>
    refine Untagged.round_trips_of_none [_, _, _] rfl (Codec.variant_read_write ..) ?_
    rw [List.forall_mem_cons, List.forall_mem_cons, List.forall_mem_singleton]
    exact ⟨Record.variant_read_eq_none .., Record.variant_read_eq_none ..,
      Record.variant_read_eq_none ..⟩

theorem transaction_signed_round_trips (x : RpcTypes.TransactionSigned) :
    E.transaction_signed.RoundTrips x := by
  -- the members of a signed transaction are read back as the one it was
  have hwrite : E.transaction_signed.write x = .obj (E.transaction_signed_members.write x) := by
    cases x with
    | Transaction4844Signed tx => rfl
    | Transaction1559Signed tx => rfl
    | Transaction2930Signed tx => rfl
    | TransactionLegacySigned tx => rfl
  rw [Untagged.RoundTrips, hwrite, ← E.transaction_signed_read, Record.read_write]

theorem h256_or_transaction_info_round_trips_iff (x : H256OrTransactionInfo) :
    E.h256_or_transaction_info.RoundTrips x ↔ x ≠ .TransactionInfos [] := by
  cases x with
  | H256s hashes =>
    simp only [ne_eq, reduceCtorEq, not_false_eq_true, iff_true]
    exact Untagged.round_trips_of_none [] rfl (Codec.variant_read_write ..) (by simp)
  | TransactionInfos infos =>
    cases infos with
    | nil =>
      -- the hashes come first, and there may be none of them
      have hread : E.h256_or_transaction_info.read
          (E.h256_or_transaction_info.write (.TransactionInfos [])) = some (.H256s []) := rfl
      rw [Untagged.RoundTrips, hread]
      simp
    | cons info infos =>
      simp only [ne_eq, H256OrTransactionInfo.TransactionInfos.injEq, reduceCtorEq,
        not_false_eq_true, iff_true]
      refine Untagged.round_trips_of_none [_] rfl (Codec.variant_read_write ..) ?_
      rw [List.forall_mem_singleton]
      -- an object is no hash
      exact Codec.variant_read_eq_none rfl

end EthereumTypes

end EthRpc
