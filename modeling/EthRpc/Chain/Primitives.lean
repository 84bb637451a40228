import EthRpc.Api.Signature

/-! # Primitives of the chain

    Accounts, addresses, signatures, and the `UncheckedExtrinsic` that adds
    Ethereum signatures to the generic extrinsic format.

    `check` is generic in the two runtime components it calls: `convert`,
    which rebuilds the Ethereum message an extrinsic stands for, and
    `lookup`, which resolves an address to an account. Extrinsics with any
    other signature go to the generic check.
-/

namespace EthRpc

/-! ## Accounts and addresses -/

/-- `AccountId32`. -/
abbrev AccountId := H256

/-- `MultiAddress<AccountId, AccountIndex>`. -/
inductive MultiAddress where
  | Id (id : AccountId)
  | Index (index : BitVec 32)
  | Raw (bytes : List UInt8)
  | Address32 (bytes : List.Vector UInt8 32)
  | Address20 (bytes : List.Vector UInt8 20)
  deriving DecidableEq

namespace MultiAddress

/-- `MultiAddress::encode`. -/
def encode : MultiAddress → List UInt8
  | .Id id => 0 :: id.toList
  | .Index index => 1 :: Scale.compact_encode index.toNat
  | .Raw bytes => 2 :: (Scale.compact_encode bytes.length ++ bytes)
  | .Address32 bytes => 3 :: bytes.toList
  | .Address20 bytes => 4 :: bytes.toList

/-- `MultiAddress::decode`: reads from the front of `l` and leaves the rest. -/
def decode : List UInt8 → Option (MultiAddress × List UInt8)
  | 0 :: l => (Scale.fixed_decode 32 l).map fun (id, l) => (.Id id, l)
  | 1 :: l => (Scale.compact_decode l).map fun (index, l) => (.Index (BitVec.ofNat 32 index), l)
  | 2 :: l => (Scale.vec_decode l).map fun (bytes, l) => (.Raw bytes.data, l)
  | 3 :: l => (Scale.fixed_decode 32 l).map fun (bytes, l) => (.Address32 bytes, l)
  | 4 :: l => (Scale.fixed_decode 20 l).map fun (bytes, l) => (.Address20 bytes, l)
  | _ => none

/-- **Round trip**, for a raw address of encodable length. -/
theorem decode_encode (addr : MultiAddress) (rest : List UInt8)
    (hraw : ∀ bytes, addr = .Raw bytes → bytes.length < 2 ^ 32) :
    decode (addr.encode ++ rest) = some (addr, rest) := by
  cases addr with
  | Id id =>
    simp only [encode, List.cons_append, decode, Scale.fixed_decode_append, Option.map_some]
  | Index index =>
    simp only [encode, List.cons_append, decode, Scale.compact_decode_encode index.isLt,
      Option.map_some, BitVec.ofNat_toNat, BitVec.setWidth_eq]
  | Raw bytes =>
    have hvec := Scale.vec_decode_encode ⟨bytes, hraw bytes rfl⟩ rest
    unfold Scale.vec_encode at hvec
    simp only [encode, List.cons_append, decode, hvec, Option.map_some]
  | Address32 bytes =>
    simp only [encode, List.cons_append, decode, Scale.fixed_decode_append, Option.map_some]
  | Address20 bytes =>
    simp only [encode, List.cons_append, decode, Scale.fixed_decode_append, Option.map_some]

end MultiAddress

/-- The tag `b"AccountId32:"`. -/
def account_id_tag : List UInt8 :=
  [65, 99, 99, 111, 117, 110, 116, 73, 100, 51, 50, 58]

/-- Derive the account of an Ethereum address. -/
def get_account_id {Digest : Type} (host : Host Digest) (evm : H160) : AccountId :=
  host.blake2_256 (account_id_tag ++ evm.toList)

/-- The tag `b"contract_addr_v1"`. -/
def contract_addr_tag : List UInt8 :=
  [99, 111, 110, 116, 114, 97, 99, 116, 95, 97, 100, 100, 114, 95, 118, 49]

/-- Generate the contract's address from the provided inputs. This function
    is shared by both the runtime and the RPC. -/
def evm_contract_address {Digest : Type} (host : Host Digest) (deploying_address : AccountId)
    (code_hash : H256) (input_data salt : Scale.Vec) : H160 :=
  let entropy := host.blake2_256 (contract_addr_tag ++ deploying_address.toList ++
    code_hash.toList ++ Scale.vec_encode input_data ++ Scale.vec_encode salt)
  -- an `H160` is the first twenty bytes
  ⟨entropy.toList.take 20, by simp⟩

/-! ## Signatures -/

/-- `MultiSignature`, with the Ethereum variant. -/
inductive MultiSignature where
  | Ed25519 (sig : List.Vector UInt8 64)
  | Sr25519 (sig : List.Vector UInt8 64)
  | Ecdsa (sig : List.Vector UInt8 65)
  | Ethereum (sig : List.Vector UInt8 65)
  deriving DecidableEq

/-! ## Validity errors -/

inductive InvalidTransaction where
  | Call
  | Payment
  | Future
  | Stale
  | BadProof
  | AncientBirthBlock
  | ExhaustsResources
  | Custom (code : UInt8)
  | BadMandatory
  | MandatoryValidation
  | BadSigner
  deriving DecidableEq, Repr

inductive UnknownTransaction where
  | CannotLookup
  | NoUnsignedValidator
  | Custom (code : UInt8)
  deriving DecidableEq, Repr

inductive TransactionValidityError where
  | Invalid (e : InvalidTransaction)
  | Unknown (e : UnknownTransaction)
  deriving DecidableEq, Repr

/-- `LookupError`, which as a validity error is `CannotLookup`. -/
inductive LookupError where
  | mk
  deriving DecidableEq, Repr

def LookupError.into (_ : LookupError) : TransactionValidityError :=
  .Unknown .CannotLookup

/-! ## Extrinsics -/

/-- An extrinsic as it arrives: a call, and perhaps an address, a signature
    and the signed extensions. -/
structure UncheckedExtrinsic (Call Extra : Type) where
  signature : Option (MultiAddress × MultiSignature × Extra)
  function : Call
  deriving DecidableEq

/-- A checked extrinsic: the signing account, if any, and the call. -/
structure CheckedExtrinsic (Call Extra : Type) where
  signed : Option (AccountId × Extra)
  function : Call
  deriving DecidableEq

namespace UncheckedExtrinsic

variable {Digest Call Extra : Type}

/-- What `check` calls out to. -/
structure Checker (Digest Call Extra : Type) where
  host : Host Digest
  /-- `ConvertEthTx::convert`. -/
  convert : Call → Extra → Outcome InvalidTransaction (TransactionUnsigned × H160 × Extra)
  /-- The runtime's lookup. -/
  lookup : MultiAddress → Except LookupError AccountId
  /-- The check of the generic extrinsic. -/
  generic_check : UncheckedExtrinsic Call Extra →
    Outcome TransactionValidityError (CheckedExtrinsic Call Extra)

/-- `Checkable::check`. -/
def check (k : Checker Digest Call Extra) (x : UncheckedExtrinsic Call Extra) :
    Outcome TransactionValidityError (CheckedExtrinsic Call Extra) :=
  match x.signature with
  | some (addr, .Ethereum sig, extra) => do
    -- the signature is over the message that the call stands for
    let (eth_msg, source, eth_extra) ← (k.convert x.function extra).map_err .Invalid
    let msg ← Outcome.ok_or (.Invalid .Call) eth_msg.try_into_legacy
    let signer ← Outcome.ok_or (.Invalid .BadProof) (msg.recover_signer k.host sig)
    if signer ≠ source then .err (.Invalid .BadProof)
    else do
      -- both addresses go through the same lookup
      let account_id ←
        (Outcome.of_except (k.lookup (.Address20 signer))).map_err LookupError.into
      let expected_account_id ← (Outcome.of_except (k.lookup addr)).map_err LookupError.into
      if account_id ≠ expected_account_id then .err (.Invalid .BadProof)
      else return { signed := some (account_id, eth_extra), function := x.function }
  | _ => k.generic_check x

/-- The facts behind an accepted Ethereum signature: the rebuilt message,
    its recovered signer, and the account both addresses resolve to. -/
structure Accepted (k : Checker Digest Call Extra) (x : UncheckedExtrinsic Call Extra)
    (addr : MultiAddress) (sig : List.Vector UInt8 65) (extra : Extra)
    (msg : TransactionLegacyUnsigned) (source : H160) (eth_extra : Extra) (account_id : AccountId) :
    Prop where
  convert : k.convert x.function extra =
    .ok (.TransactionLegacyUnsigned msg, source, eth_extra)
  recover : msg.recover_signer k.host sig = some source
  signer_account : k.lookup (.Address20 source) = .ok account_id
  addr_account : k.lookup addr = .ok account_id

theorem try_into_legacy_eq_some {u : TransactionUnsigned} {tx : TransactionLegacyUnsigned}
    (h : u.try_into_legacy = some tx) : u = .TransactionLegacyUnsigned tx := by
  cases u with
  | TransactionLegacyUnsigned t =>
    cases h
    rfl
  | Transaction4844Unsigned p => cases h
  | Transaction1559Unsigned p => cases h
  | Transaction2930Unsigned p => cases h

/-- **What an accepted Ethereum signature means.** -/
theorem check_ethereum_eq_ok {k : Checker Digest Call Extra} {x : UncheckedExtrinsic Call Extra}
    {addr : MultiAddress} {sig : List.Vector UInt8 65} {extra : Extra}
    {c : CheckedExtrinsic Call Extra} (hsig : x.signature = some (addr, .Ethereum sig, extra))
    (h : x.check k = .ok c) :
    ∃ msg source eth_extra account_id,
      Accepted k x addr sig extra msg source eth_extra account_id ∧
      c = { signed := some (account_id, eth_extra), function := x.function } := by
  unfold check at h
  rw [hsig] at h
  simp only at h
  -- peel off one step after the other; each must have ended in a value
  obtain ⟨⟨eth_msg, source, eth_extra⟩, hconv, h⟩ := Outcome.bind_eq_ok.mp h
  obtain ⟨msg, hmsg, h⟩ := Outcome.bind_eq_ok.mp h
  obtain ⟨signer, hsigner, h⟩ := Outcome.bind_eq_ok.mp h
  have hmsg := try_into_legacy_eq_some (Outcome.ok_or_eq_ok.mp hmsg)
  have hrecover := Outcome.ok_or_eq_ok.mp hsigner
  subst hmsg
  split at h
  · cases h
  · next hsource =>
    have hsource : signer = source := not_not.mp hsource
    subst hsource
    obtain ⟨account_id, hacc, h⟩ := Outcome.bind_eq_ok.mp h
    obtain ⟨expected, hexp, h⟩ := Outcome.bind_eq_ok.mp h
    have hacc := Outcome.of_except_eq_ok.mp (Outcome.map_err_eq_ok.mp hacc)
    have hexp := Outcome.of_except_eq_ok.mp (Outcome.map_err_eq_ok.mp hexp)
    split at h
    · cases h
    · next haccount =>
      have haccount : account_id = expected := not_not.mp haccount
      subst haccount
      cases h
      exact ⟨msg, signer, eth_extra, account_id,
        ⟨Outcome.map_err_eq_ok.mp hconv, hrecover, hacc, hexp⟩, rfl⟩

/-- Conversely, these facts make `check` accept. -/
theorem check_of_accepted {k : Checker Digest Call Extra} {x : UncheckedExtrinsic Call Extra}
    {addr : MultiAddress} {sig : List.Vector UInt8 65} {extra : Extra}
    {msg : TransactionLegacyUnsigned} {source : H160} {eth_extra : Extra} {account_id : AccountId}
    (hsig : x.signature = some (addr, .Ethereum sig, extra))
    (h : Accepted k x addr sig extra msg source eth_extra account_id) :
    x.check k = .ok { signed := some (account_id, eth_extra), function := x.function } := by
  unfold check
  rw [hsig]
  simp only [h.convert, Outcome.map_err, Outcome.ok_bind, TransactionUnsigned.try_into_legacy,
    Outcome.ok_or_some, h.recover, ne_eq, not_true_eq_false, if_false, h.signer_account,
    Outcome.of_except_ok, h.addr_account, Outcome.pure_eq]

end UncheckedExtrinsic

end EthRpc
