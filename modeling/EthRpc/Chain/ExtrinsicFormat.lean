import EthRpc.Api.ScaleTypes
import EthRpc.Chain.Runtime

/-! # SCALE form of extrinsics

    Extrinsics are sent and put into blocks as bytes: a version, for signed
    ones the address, the signature and the extensions, and then the call.

    * `Extrinsic.of_decode`: what is read as an extrinsic is its encoding, up
      to the last byte.
    * `Extrinsic.decode_encode`: it is read back, if it can be written.

    Eras and the calls of other pallets are left open.
-/

namespace EthRpc

open Scale ScaleTypes

/-! ## Addresses and signatures -/

namespace MultiAddress

def fits : MultiAddress → Bool
  | .Raw bytes => bytes.length < 2 ^ 32
  | _ => true

theorem of_decode {l rest : List UInt8} {addr : MultiAddress}
    (h : decode l = some (addr, rest)) : addr.fits ∧ l = addr.encode ++ rest := by
  unfold decode at h
  split at h
  · obtain ⟨⟨id, l⟩, hid, heq⟩ := Option.map_eq_some_iff.mp h
    obtain ⟨rfl, rfl⟩ := Prod.mk.injEq .. ▸ heq
    obtain ⟨-, rfl⟩ := (Format.fixed 32).of_decode hid
    exact ⟨rfl, rfl⟩
  · obtain ⟨⟨index, l⟩, hindex, heq⟩ := Option.map_eq_some_iff.mp h
    obtain ⟨rfl, rfl⟩ := Prod.mk.injEq .. ▸ heq
    obtain ⟨hlt, rfl⟩ := compact_encode_of_decode hindex
    refine ⟨rfl, ?_⟩
    rw [encode, BitVec.toNat_ofNat, Nat.mod_eq_of_lt hlt, List.cons_append]
  · obtain ⟨⟨bytes, l⟩, hbytes, heq⟩ := Option.map_eq_some_iff.mp h
    obtain ⟨rfl, rfl⟩ := Prod.mk.injEq .. ▸ heq
    exact ⟨decide_eq_true bytes.length_lt, by rw [vec_encode_of_decode hbytes]; rfl⟩
  · obtain ⟨⟨bytes, l⟩, hbytes, heq⟩ := Option.map_eq_some_iff.mp h
    obtain ⟨rfl, rfl⟩ := Prod.mk.injEq .. ▸ heq
    obtain ⟨-, rfl⟩ := (Format.fixed 32).of_decode hbytes
    exact ⟨rfl, rfl⟩
  · obtain ⟨⟨bytes, l⟩, hbytes, heq⟩ := Option.map_eq_some_iff.mp h
    obtain ⟨rfl, rfl⟩ := Prod.mk.injEq .. ▸ heq
    obtain ⟨-, rfl⟩ := (Format.fixed 20).of_decode hbytes
    exact ⟨rfl, rfl⟩
  · cases h

def format : Format MultiAddress where
  encode := encode
  decode := decode
  fits := fits
  decode_encode {addr} h rest := decode_encode addr rest fun bytes hbytes => by
    rw [hbytes] at h
    exact of_decide_eq_true h
  of_decode := of_decode

end MultiAddress

/-- `MultiSignature`, as its derived codec. -/
def MultiSignature.format : Format MultiSignature :=
  ((Enum.variant 0 (.fixed 64)).or <| (Enum.variant 1 (.fixed 64)).or <|
    (Enum.variant 2 (.fixed 65)).or (Enum.variant 3 (.fixed 65))).iso
    (fun
      | .inl sig => .Ed25519 sig
      | .inr (.inl sig) => .Sr25519 sig
      | .inr (.inr (.inl sig)) => .Ecdsa sig
      | .inr (.inr (.inr sig)) => .Ethereum sig)
    (fun
      | .Ed25519 sig => .inl sig
      | .Sr25519 sig => .inr (.inl sig)
      | .Ecdsa sig => .inr (.inr (.inl sig))
      | .Ethereum sig => .inr (.inr (.inr sig)))
    (by rintro (_ | _ | _ | _) <;> rfl) (by rintro (_ | _ | _ | _) <;> rfl)

/-! ## Calls -/

/-- The arguments of `eth_instantiate`. -/
def EthInstantiate.format : Format EthInstantiate :=
  (h160.option.pair <|
    Format.vec_bytes.pair <|
    Format.vec_bytes.pair <|
    Format.vec_bytes.pair <|
    compact_u128.pair <|
    compact_u64.pair <|
    compact_u128.pair <|
    weight.pair
    compact_u128.option).iso
    (fun (source, code, data, salt, eth_value, eth_gas_price, eth_gas_limit, gas_limit,
      storage_deposit_limit) =>
      { source, code, data, salt, eth_value, eth_gas_price, eth_gas_limit, gas_limit,
        storage_deposit_limit })
    (fun c => (c.source, c.code, c.data, c.salt, c.eth_value, c.eth_gas_price, c.eth_gas_limit,
      c.gas_limit, c.storage_deposit_limit))
    (fun _ => rfl) (fun _ => rfl)

/-- The arguments of `eth_call`. -/
def EthCall.format : Format EthCall :=
  (h160.option.pair <|
    h160.pair <|
    Format.vec_bytes.pair <|
    compact_u128.pair <|
    compact_u64.pair <|
    compact_u128.pair <|
    weight.pair
    compact_u128.option).iso
    (fun (source, «to», data, eth_value, eth_gas_price, eth_gas_limit, gas_limit,
      storage_deposit_limit) =>
      { source, «to», data, eth_value, eth_gas_price, eth_gas_limit, gas_limit,
        storage_deposit_limit })
    (fun c => (c.source, c.to, c.data, c.eth_value, c.eth_gas_price, c.eth_gas_limit,
      c.gas_limit, c.storage_deposit_limit))
    (fun _ => rfl) (fun _ => rfl)

/-- The calls of the contracts pallet, under their `call_index`. -/
def Pallet.Call.format : Format Pallet.Call :=
  ((Enum.variant 0 EthInstantiate.format).or (Enum.variant 1 EthCall.format)).iso
    (fun
      | .inl c => .eth_instantiate c
      | .inr c => .eth_call c)
    (fun
      | .eth_instantiate c => .inl c
      | .eth_call c => .inr c)
    (by rintro (_ | _) <;> rfl) (by rintro (_ | _) <;> rfl)

/-- Every call can be written. -/
theorem Pallet.Call.format_fits (c : Pallet.Call) : format.fits c = true := by
  cases c with
  | eth_instantiate c =>
    show EthInstantiate.format.fits c = true
    simp [EthInstantiate.format, Format.iso, Option.all_eq_true]
  | eth_call c =>
    show EthCall.format.fits c = true
    simp [EthCall.format, Format.iso, Option.all_eq_true]

/-! ## Extrinsics -/

section extrinsics
variable (era : Format Era) (other : List UInt8 → Bool)

/-- `SignedExtra`: the other extensions take no bytes. -/
def SignedExtra.format : Format SignedExtra :=
  (era.pair <| compact_u32.pair compact_u128).iso
    (fun (check_era, check_nonce, charge_transaction_payment) =>
      { check_era, check_nonce, charge_transaction_payment })
    (fun e => (e.check_era, e.check_nonce, e.charge_transaction_payment))
    (fun _ => rfl) (fun _ => rfl)

/-- The contracts pallet, under its `pallet_index`. -/
def contracts_evm : Enum Pallet.Call := .variant 6 Pallet.Call.format

namespace RuntimeCall

def encode : RuntimeCall → List UInt8
  | .ContractsEvm c => contracts_evm.encode c
  | .Other encoded => encoded

/-- The call that these bytes are; `other` tells those of other pallets. -/
def decode (l : List UInt8) : Option RuntimeCall :=
  match contracts_evm.decode l with
  | some (c, []) => some (.ContractsEvm c)
  | some _ => none
  | none => if l.head? ≠ some 6 ∧ other l then some (.Other l) else none

def fits : RuntimeCall → Bool
  | .ContractsEvm _ => true
  | .Other encoded => encoded.head? ≠ some 6 ∧ other encoded

theorem decode_encode {c : RuntimeCall} (h : c.fits other) : decode other c.encode = some c := by
  cases c with
  | ContractsEvm c =>
    have hdecode := contracts_evm.decode_encode (Pallet.Call.format_fits c) []
    rw [List.append_nil] at hdecode
    rw [encode, decode, hdecode]
  | Other encoded =>
    have hother : encoded.head? ≠ some 6 ∧ other encoded := of_decide_eq_true h
    have hnone : contracts_evm.decode encoded = none := by
      cases encoded with
      | nil => rfl
      | cons t l =>
        have ht : t ≠ 6 := by simpa using hother.1
        exact if_neg ht
    rw [encode, decode, hnone]
    exact if_pos hother

theorem of_decode {l : List UInt8} {c : RuntimeCall} (h : decode other l = some c) :
    c.fits other ∧ l = c.encode := by
  unfold decode at h
  split at h
  · next c' hdecode =>
    cases h
    obtain ⟨-, hl⟩ := contracts_evm.of_decode hdecode
    rw [List.append_nil] at hl
    exact ⟨rfl, hl⟩
  · cases h
  · split at h
    · next hother =>
      cases h
      exact ⟨decide_eq_true hother, rfl⟩
    · cases h

end RuntimeCall

namespace Extrinsic

/-- What goes before the call of a signed extrinsic. -/
def signature_format : Format (MultiAddress × MultiSignature × SignedExtra) :=
  MultiAddress.format.pair (MultiSignature.format.pair (SignedExtra.format era))

/-- The bytes of an extrinsic, without their length. -/
def encode (x : Extrinsic) : List UInt8 :=
  match x.signature with
  | none => 0x04 :: x.function.encode
  | some sig => 0x84 :: ((signature_format era).encode sig ++ x.function.encode)

/-- The extrinsic that these bytes are. -/
def decode : List UInt8 → Option Extrinsic
  | 0x04 :: l => (RuntimeCall.decode other l).map fun function => ⟨none, function⟩
  | 0x84 :: l => ((signature_format era).decode l).bind fun (sig, l) =>
    (RuntimeCall.decode other l).map fun function => ⟨some sig, function⟩
  | _ => none

def fits (x : Extrinsic) : Bool :=
  x.signature.all (signature_format era).fits && x.function.fits other

theorem decode_encode {x : Extrinsic} (h : x.fits era other) :
    decode era other (x.encode era) = some x := by
  obtain ⟨sig, function⟩ := x
  obtain ⟨hsig, hfunction⟩ := Bool.and_eq_true_iff.mp h
  have hcall := RuntimeCall.decode_encode other hfunction
  cases sig with
  | none =>
    show (RuntimeCall.decode other function.encode).map _ = _
    rw [hcall, Option.map_some]
  | some sig =>
    show ((signature_format era).decode ((signature_format era).encode sig ++ function.encode)).bind
      _ = _
    rw [(signature_format era).decode_encode hsig, Option.bind_some]
    show (RuntimeCall.decode other function.encode).map _ = _
    rw [hcall, Option.map_some]

theorem of_decode {l : List UInt8} {x : Extrinsic} (h : decode era other l = some x) :
    x.fits era other ∧ l = x.encode era := by
  unfold decode at h
  split at h
  · obtain ⟨function, hfunction, rfl⟩ := Option.map_eq_some_iff.mp h
    obtain ⟨hfits, rfl⟩ := RuntimeCall.of_decode other hfunction
    exact ⟨hfits, rfl⟩
  · obtain ⟨⟨sig, l⟩, hsig, h⟩ := Option.bind_eq_some_iff.mp h
    obtain ⟨function, hfunction, rfl⟩ := Option.map_eq_some_iff.mp h
    obtain ⟨hsig_fits, rfl⟩ := (signature_format era).of_decode hsig
    obtain ⟨hfits, rfl⟩ := RuntimeCall.of_decode other hfunction
    exact ⟨Bool.and_eq_true_iff.mpr ⟨hsig_fits, hfits⟩, rfl⟩
  · cases h

/-- **One extrinsic, one string of bytes.** What is read as an extrinsic is
    its encoding, and nothing else is. -/
theorem read_from_encoding_iff {l : List UInt8} {x : Extrinsic} :
    decode era other l = some x ↔ x.fits era other ∧ x.encode era = l := by
  constructor
  · intro h
    obtain ⟨hfits, hl⟩ := of_decode era other h
    exact ⟨hfits, hl.symm⟩
  · rintro ⟨hfits, rfl⟩
    exact decode_encode era other hfits

end Extrinsic

end extrinsics

end EthRpc
