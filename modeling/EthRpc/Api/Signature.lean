import EthRpc.Api.RlpCodec

/-! # Signatures and their recovery

    `Host` gathers the cryptographic functions that the runtime and the RPC
    server link against. A Keccak digest is an abstract type: the only
    things done with one are to recover a key from it and, for the digest
    of a public key, to take its last twenty bytes as an address.

    * The runtime recovers an address with `recover_signer`, from the 65
      bytes of an Ethereum signature.
    * The RPC server recovers it with `recover_eth_address`, from the
      fields `r`, `s`, `v` of a decoded transaction.

    `recover_signer_raw_signature`: over the raw signature the RPC server
    extracts, the two return the same address, provided the two libraries
    recover the same key from the same digest and signature.
-/

namespace EthRpc

/-! ## Primitives -/

/-- `ecdsa::RecoveryId`. -/
abbrev RecoveryId := Fin 4

/-- `RecoveryId::from_i32`, for a non-negative argument. -/
def RecoveryId.from_i32 (n : Nat) : Option RecoveryId :=
  if h : n < 4 then some ⟨n, h⟩ else none

/-- `secp256k1::Error`. -/
inductive Secp256k1Error where
  | InvalidRecoveryId
  | InvalidSignature
  deriving DecidableEq, Repr

/-- `ecdsa::RecoverableSignature`: the compact bytes of `r` and `s`, and the
    recovery id. -/
structure RecoverableSignature where
  compact : List.Vector UInt8 64
  recovery_id : RecoveryId
  deriving DecidableEq

/-- An uncompressed public key without its tag byte `0x04`. -/
abbrev PublicKey := List.Vector UInt8 64

/-- Cryptographic functions of the host and of the linked crates. -/
structure Host (Digest : Type) where
  /-- `sp_core::keccak_256`. -/
  keccak_256 : List UInt8 → Digest
  /-- `H160::from_slice(&hash[12..])`. -/
  hash_address : Digest → H160
  /-- `sp_io::crypto::secp256k1_ecdsa_recover`. -/
  secp256k1_ecdsa_recover : List.Vector UInt8 65 → Digest → Option PublicKey
  /-- `RecoverableSignature::from_compact` accepts these bytes. -/
  is_compact : List.Vector UInt8 64 → Bool
  /-- `Secp256k1::recover_ecdsa`. -/
  recover_ecdsa : Digest → RecoverableSignature → Option PublicKey
  /-- `sp_core::blake2_256`. -/
  blake2_256 : List UInt8 → H256

namespace Host

variable {Digest : Type} (host : Host Digest)

/-- `RecoverableSignature::from_compact`. -/
def from_compact (compact : List.Vector UInt8 64) (id : RecoveryId) :
    Option RecoverableSignature :=
  if host.is_compact compact then some ⟨compact, id⟩ else none

/-- The address whose key `sig` recovers to over `digest`. -/
def recover_address (sig : List.Vector UInt8 65) (digest : Digest) : Option H160 :=
  (host.secp256k1_ecdsa_recover sig digest).map
    fun pub_key => host.hash_address (host.keccak_256 pub_key.toList)

/-- **Recovery is injective in the digest**, for a fixed signature and
    signer: one signature does not stand for two digests of one signer. -/
def RecoveryInjective : Prop :=
  ∀ (sig : List.Vector UInt8 65) (d d' : Digest) (signer : H160),
    host.recover_address sig d = some signer → host.recover_address sig d' = some signer → d = d'

/-- The 65 bytes of a recoverable signature: `r`, `s` and the recovery id. -/
def signature_bytes (compact : List.Vector UInt8 64) (id : RecoveryId) :
    List.Vector UInt8 65 :=
  ⟨compact.toList ++ [UInt8.ofNat id.val], by simp⟩

/-- **The two libraries recover the same key** from the same digest and
    the same signature. -/
def RecoverAgrees : Prop :=
  ∀ (compact : List.Vector UInt8 64) (id : RecoveryId) (d : Digest),
    host.secp256k1_ecdsa_recover (signature_bytes compact id) d =
      (host.from_compact compact id).bind (host.recover_ecdsa d)

end Host

/-! ## Recovery in the runtime -/

section recovery
variable {Digest : Type} (host : Host Digest)

/-- `SignerRecovery::recover_signer`. -/
def TransactionLegacyUnsigned.recover_signer (tx : TransactionLegacyUnsigned)
    (sig : List.Vector UInt8 65) : Option H160 := do
  let msg := host.keccak_256 tx.encode
  let pub_key ← host.secp256k1_ecdsa_recover sig msg
  let pub_key_hash := host.keccak_256 pub_key.toList
  return host.hash_address pub_key_hash

theorem TransactionLegacyUnsigned.recover_signer_eq (tx : TransactionLegacyUnsigned)
    (sig : List.Vector UInt8 65) :
    tx.recover_signer host sig = host.recover_address sig (host.keccak_256 tx.encode) := by
  unfold recover_signer Host.recover_address
  cases hkey : host.secp256k1_ecdsa_recover sig (host.keccak_256 tx.encode) with
  | none => simp [hkey]
  | some pub_key => simp [hkey]

/-! ## Recovery in the RPC server -/

namespace TransactionLegacySigned

/-- Create a signed transaction from an unsigned one and a recoverable
    signature. `U256` arithmetic panics on overflow. -/
def «from» {ε : Type} (transaction_legacy_unsigned : TransactionLegacyUnsigned)
    (signature : RecoverableSignature) : Outcome ε TransactionLegacySigned := do
  let recovery_id : U256 := BitVec.ofNat 256 signature.recovery_id.val
  let v ←
    match transaction_legacy_unsigned.chain_id with
    | some chain_id => do
      let twice ← Profile.checked.mul chain_id 2
      let sum ← Profile.checked.add twice 35
      Profile.checked.add sum recovery_id
    | none => Profile.checked.add 27 recovery_id
  return {
    transaction_legacy_unsigned := transaction_legacy_unsigned
    r := BitVec.ofNat 256 (of_be (signature.compact.toList.take 32))
    s := BitVec.ofNat 256 (of_be (signature.compact.toList.drop 32))
    v := v }

/-- The compact bytes of `r` and `s` (`to_big_endian` into 32 bytes each). -/
def compact (tx : TransactionLegacySigned) : List.Vector UInt8 64 :=
  ⟨be_fixed 32 tx.r.toNat ++ be_fixed 32 tx.s.toNat, by
    have hr := tx.r.isLt
    have hs := tx.s.isLt
    rw [List.length_append, be_fixed_length (by norm_num at hr ⊢; omega),
      be_fixed_length (by norm_num at hs ⊢; omega)]⟩

/-- The recovery id packed in `v`. `U256` arithmetic panics on overflow,
    and so does the narrowing to `u32`. -/
def extract_recovery_id (tx : TransactionLegacySigned) : Outcome Secp256k1Error RecoveryId := do
  -- computed before the size of `v` is checked
  let recovery_id ←
    match tx.transaction_legacy_unsigned.chain_id with
    | some chain_id => do
      let twice ← Profile.checked.mul chain_id 2
      let rest ← Profile.checked.sub tx.v twice
      Profile.checked.sub rest 35
    | none => .ok tx.v
  if tx.v.toNat < 2 ^ 31 - 1 then
    if recovery_id.toNat < 2 ^ 32 then
      Outcome.ok_or .InvalidRecoveryId (RecoveryId.from_i32 recovery_id.toNat)
    else .panic
  else .err .InvalidRecoveryId

/-- Get the recoverable signature from the signed transaction. -/
def recoverable_signature (tx : TransactionLegacySigned) :
    Outcome Secp256k1Error RecoverableSignature := do
  let id ← tx.extract_recovery_id
  Outcome.ok_or .InvalidSignature (host.from_compact tx.compact id)

/-- Get the raw 65 bytes signature from the signed transaction. -/
def raw_signature (tx : TransactionLegacySigned) :
    Outcome Secp256k1Error (List.Vector UInt8 65) := do
  let id ← tx.extract_recovery_id
  return Host.signature_bytes tx.compact id

/-- Recover the public key from the signed transaction. -/
def recover_pub_key (tx : TransactionLegacySigned) : Outcome Secp256k1Error PublicKey := do
  let sig ← tx.recoverable_signature host
  let tx_hash := host.keccak_256 tx.transaction_legacy_unsigned.encode
  Outcome.ok_or .InvalidSignature (host.recover_ecdsa tx_hash sig)

/-- Recover the Ethereum address from the signed transaction. The tag byte
    of an uncompressed key is always `0x04`. -/
def recover_eth_address (tx : TransactionLegacySigned) : Outcome Secp256k1Error H160 := do
  let pub_key ← tx.recover_pub_key host
  return host.hash_address (host.keccak_256 pub_key.toList)

/-- **The two recoveries agree**: the runtime recovers, over the raw
    signature, the address the RPC server recovered. -/
theorem recover_signer_raw_signature {tx : TransactionLegacySigned} {addr : H160}
    {sig : List.Vector UInt8 65} (hagree : host.RecoverAgrees)
    (haddr : tx.recover_eth_address host = .ok addr) (hsig : tx.raw_signature = .ok sig) :
    tx.transaction_legacy_unsigned.recover_signer host sig = some addr := by
  -- both take the same recovery id out of `v`
  unfold raw_signature at hsig
  obtain ⟨id, hid, hsig⟩ := Outcome.bind_eq_ok.mp hsig
  cases hsig
  unfold recover_eth_address at haddr
  obtain ⟨pub_key, hkey, haddr⟩ := Outcome.bind_eq_ok.mp haddr
  cases haddr
  unfold recover_pub_key at hkey
  obtain ⟨rsig, hrsig, hkey⟩ := Outcome.bind_eq_ok.mp hkey
  have hrecover := Outcome.ok_or_eq_ok.mp hkey
  unfold recoverable_signature at hrsig
  rw [hid, Outcome.ok_bind] at hrsig
  have hcompact := Outcome.ok_or_eq_ok.mp hrsig
  -- and the runtime's library recovers the key the server's recovered
  rw [TransactionLegacyUnsigned.recover_signer_eq, Host.recover_address, hagree, hcompact,
    Option.bind_some, hrecover, Option.map_some]

end TransactionLegacySigned

end recovery

end EthRpc
