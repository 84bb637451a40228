import EthRpc.Framework.Bytes
import EthRpc.Framework.Scale

/-! # Types of the Ethereum JSON-RPC API

    The value types the RPC server and the runtime share. A transaction's
    `input` is a `Bytes`, a Rust vector, which never holds `2 ^ 63` bytes;
    vectors that came out of a SCALE decoder are `Scale.Vec`.
-/

namespace EthRpc

/-! ## Numbers, hashes, addresses -/

abbrev U256 := BitVec 256

/-- The native balance, `u128`. -/
abbrev Balance := BitVec 128

abbrev H160 := List.Vector UInt8 20

abbrev H256 := List.Vector UInt8 32

abbrev Address := H160

/-- `Bytes(Vec<u8>)`. -/
abbrev Bytes := ByteVec (2 ^ 63)

theorem length_nil_lt_usize : ([] : List UInt8).length < 2 ^ 63 := by decide

/-- `Bytes::default()`. -/
def Bytes.default : Bytes := ⟨[], length_nil_lt_usize⟩

/-- The number `n` of a wider type, when it fits into `w` bits (`try_into`). -/
def try_into {v : Nat} (w : Nat) (n : BitVec v) : Option (BitVec w) :=
  if n.toNat < 2 ^ w then some (BitVec.ofNat w n.toNat) else none

/-- Widening a number that was narrowed gives it back. -/
theorem setWidth_try_into {v w : Nat} {n : BitVec v} {m : BitVec w}
    (h : try_into w n = some m) : m.setWidth v = n := by
  unfold try_into at h
  split at h
  · next hlt =>
    cases h
    apply BitVec.eq_of_toNat_eq
    rw [BitVec.toNat_setWidth, BitVec.toNat_ofNat, Nat.mod_eq_of_lt hlt,
      Nat.mod_eq_of_lt n.isLt]
  · cases h

theorem toNat_try_into {v w : Nat} {n : BitVec v} {m : BitVec w}
    (h : try_into w n = some m) : m.toNat = n.toNat := by
  unfold try_into at h
  split at h
  · next hlt =>
    cases h
    rw [BitVec.toNat_ofNat, Nat.mod_eq_of_lt hlt]
  · cases h

/-- Two-dimensional weight. -/
structure Weight where
  ref_time : BitVec 64
  proof_size : BitVec 64
  deriving DecidableEq, Repr

/-- `u64::saturating_add`. -/
def saturating_add_u64 (a b : BitVec 64) : BitVec 64 :=
  if a.toNat + b.toNat < 2 ^ 64 then a + b else BitVec.allOnes 64

def Weight.saturating_add (a b : Weight) : Weight where
  ref_time := saturating_add_u64 a.ref_time b.ref_time
  proof_size := saturating_add_u64 a.proof_size b.proof_size

/-! ## Names of blocks -/

/-- Block tag. -/
inductive BlockTag where
  | Earliest
  | Finalized
  | Safe
  | Latest
  | Pending
  deriving DecidableEq, Repr

/-- Block number or tag. -/
inductive BlockNumberOrTag where
  | U256 (n : U256)
  | BlockTag (tag : BlockTag)
  deriving DecidableEq

/-- Block number, tag, or block hash. -/
inductive BlockNumberOrTagOrHash where
  | U256 (n : U256)
  | BlockTag (tag : BlockTag)
  | H256 (hash : H256)
  deriving DecidableEq

/-! ## Transactions -/

/-- Transaction type identifier 0. -/
inductive Type0 where
  | mk
  deriving DecidableEq, Repr

/-- Legacy transaction. -/
structure TransactionLegacyUnsigned where
  chain_id : Option U256
  gas : U256
  gas_price : U256
  input : Bytes
  nonce : U256
  «to» : Option Address
  type : Type0
  value : U256
  deriving DecidableEq

/-- Signed legacy transaction. -/
structure TransactionLegacySigned where
  transaction_legacy_unsigned : TransactionLegacyUnsigned
  r : U256
  s : U256
  v : U256
  deriving DecidableEq

/-- An unsigned transaction of any type. The payloads of the typed
    transactions are kept as encoded bytes. -/
inductive TransactionUnsigned where
  | Transaction4844Unsigned (payload : List UInt8)
  | Transaction1559Unsigned (payload : List UInt8)
  | Transaction2930Unsigned (payload : List UInt8)
  | TransactionLegacyUnsigned (tx : TransactionLegacyUnsigned)
  deriving DecidableEq

/-- `TransactionLegacyUnsigned::try_from`. -/
def TransactionUnsigned.try_into_legacy :
    TransactionUnsigned → Option EthRpc.TransactionLegacyUnsigned
  | .TransactionLegacyUnsigned tx => some tx
  | _ => none

/-- Transaction object generic to all types; the fields a dry run reads and
    the RPC server fills in. -/
structure GenericTransaction where
  «from» : Option Address
  input : Option Bytes
  nonce : Option U256
  «to» : Option Address
  value : Option U256
  deriving DecidableEq

/-! ## Adapters -/

/-- The input of a deployment, passed as the `input` field of a transaction. -/
structure CallInput where
  code : Scale.Vec
  data : Scale.Vec
  salt : Scale.Vec
  deriving DecidableEq

namespace CallInput

def encode (c : CallInput) : List UInt8 :=
  Scale.vec_encode c.code ++ Scale.vec_encode c.data ++ Scale.vec_encode c.salt

/-- `CallInput::decode`: reads from the front of `l` and leaves the rest. -/
def decode (l : List UInt8) : Option (CallInput × List UInt8) := do
  let (code, l) ← Scale.vec_decode l
  let (data, l) ← Scale.vec_decode l
  let (salt, l) ← Scale.vec_decode l
  return (⟨code, data, salt⟩, l)

theorem decode_encode (c : CallInput) (rest : List UInt8) :
    decode (c.encode ++ rest) = some (c, rest) := by
  simp [decode, encode, Scale.vec_decode_encode]

/-- The decoder accepts only what the encoder writes, with anything behind it. -/
theorem encode_of_decode {l rest : List UInt8} {c : CallInput}
    (h : decode l = some (c, rest)) : l = c.encode ++ rest := by
  simp only [decode, Option.bind_eq_bind, Option.bind_eq_some_iff, Option.pure_def,
    Option.some.injEq, Prod.mk.injEq, Prod.exists] at h
  obtain ⟨code, l1, h1, data, l2, h2, salt, l3, h3, rfl, rfl⟩ := h
  rw [Scale.vec_encode_of_decode h1, Scale.vec_encode_of_decode h2,
    Scale.vec_encode_of_decode h3]
  simp [encode]

theorem encode_inj {c d : CallInput} (h : c.encode = d.encode) : c = d := by
  -- reading back the one encoding gives both
  have hc := decode_encode c []
  rw [h, decode_encode d []] at hc
  simpa using hc.symm

theorem encode_length_lt (c : CallInput) : c.encode.length < 2 ^ 63 := by
  have h1 := Scale.vec_encode_length_lt c.code
  have h2 := Scale.vec_encode_length_lt c.data
  have h3 := Scale.vec_encode_length_lt c.salt
  simp only [encode, List.length_append]
  omega

end CallInput

/-- The output of a dry run. -/
structure DryRunInfo where
  gas_limit : Weight
  storage_deposit_limit : Option Balance
  return_data : List UInt8
  deriving DecidableEq, Repr

namespace TransactionLegacyUnsigned

/-- Build a transaction from an instantiate call. -/
def from_instantiate (input : CallInput) (value gas_price gas nonce chain_id : U256) :
    TransactionLegacyUnsigned where
  chain_id := some chain_id
  gas := gas
  gas_price := gas_price
  input := ⟨input.encode, input.encode_length_lt⟩
  nonce := nonce
  «to» := none
  type := .mk
  value := value

/-- Build a transaction from a call. -/
def from_call («to» : H160) (input : Scale.Vec) (value gas_price gas nonce chain_id : U256) :
    TransactionLegacyUnsigned where
  chain_id := some chain_id
  gas := gas
  gas_price := gas_price
  input := input.widen (by norm_num)
  nonce := nonce
  «to» := some «to»
  type := .mk
  value := value

end TransactionLegacyUnsigned

end EthRpc
