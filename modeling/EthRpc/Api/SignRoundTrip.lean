import EthRpc.Api.HostTable

/-! # Signing, encoding, decoding and recovering

    A signature with a chain id packs the id and the recovery id into `v`.
    Three computations have to agree on `v`: `from` packs it, the decoder
    takes the chain id out of it, and `extract_recovery_id` the recovery id.

    The first two agree up to the 64 bits of the decoder. The last one
    refuses a `v` of `i32::MAX` and more, whatever recovery id is in it.
-/

namespace EthRpc

namespace TransactionLegacySigned

variable {Digest : Type} {host : Host Digest} {tx : TransactionLegacyUnsigned}
  {sig : RecoverableSignature} {c : U256} {t : TransactionLegacySigned}

/-! ## What is packed -/

/-- The words `r` and `s` are the compact bytes of the signature. -/
theorem compact_of_be (ht : t.r = BitVec.ofNat 256 (of_be (sig.compact.toList.take 32)))
    (hs : t.s = BitVec.ofNat 256 (of_be (sig.compact.toList.drop 32))) :
    t.compact = sig.compact := by
  have hlen : sig.compact.toList.length = 64 := sig.compact.toList_length
  have hword : ∀ l : List UInt8, l.length = 32 →
      be_fixed 32 (BitVec.ofNat 256 (of_be l)).toNat = l := by
    intro l hl
    have hlt := of_be_lt l
    rw [hl] at hlt
    rw [BitVec.toNat_ofNat, Nat.mod_eq_of_lt (by norm_num at hlt ⊢; omega), ← hl, be_fixed_of_be]
  apply List.Vector.eq
  show be_fixed 32 t.r.toNat ++ be_fixed 32 t.s.toNat = sig.compact.toList
  rw [ht, hs, hword _ (by rw [List.length_take]; omega),
    hword _ (by rw [List.length_drop]; omega), List.take_append_drop]

/-- **What `from` packs**, for a chain id that leaves `v` in 64 bits. -/
theorem from_eq_ok {ε : Type} (hchain : tx.chain_id = some c) (hc : 2 * c.toNat + 36 < 2 ^ 64)
    (hid : sig.recovery_id.val ≤ 1) :
    ∃ t, «from» tx sig = (.ok t : Outcome ε _) ∧ t.transaction_legacy_unsigned = tx ∧
      t.v.toNat = 2 * c.toNat + 35 + sig.recovery_id.val ∧ t.compact = sig.compact := by
  have htwice : (c * 2).toNat = 2 * c.toNat := by
    rw [BitVec.toNat_mul, show (2 : U256).toNat = 2 from rfl, Nat.mod_eq_of_lt (by omega)]
    omega
  have hsum : (c * 2 + 35).toNat = 2 * c.toNat + 35 := by
    rw [BitVec.toNat_add, htwice, show (35 : U256).toNat = 35 from rfl,
      Nat.mod_eq_of_lt (by omega)]
  have hrec : (BitVec.ofNat 256 sig.recovery_id.val).toNat = sig.recovery_id.val := by
    rw [BitVec.toNat_ofNat, Nat.mod_eq_of_lt (by omega)]
  refine ⟨⟨tx, BitVec.ofNat 256 (of_be (sig.compact.toList.take 32)),
    BitVec.ofNat 256 (of_be (sig.compact.toList.drop 32)),
    c * 2 + 35 + BitVec.ofNat 256 sig.recovery_id.val⟩, ?_, rfl, ?_, compact_of_be rfl rfl⟩
  · unfold «from»
    rw [hchain]
    simp only [Profile.mul, Profile.add, Profile.arith, show (2 : U256).toNat = 2 from rfl,
      show (35 : U256).toNat = 35 from rfl]
    rw [if_pos (by omega), Outcome.ok_bind, if_pos (by rw [htwice]; omega), Outcome.ok_bind,
      if_pos (by rw [hsum, hrec]; omega), Outcome.ok_bind, Outcome.pure_eq]
  · simp only
    rw [BitVec.toNat_add, hsum, hrec, Nat.mod_eq_of_lt (by omega)]

/-! ## What is taken out -/

/-- The recovery id comes out of `v` exactly below `i32::MAX`. -/
theorem extract_recovery_id_packed {id : RecoveryId}
    (hchain : t.transaction_legacy_unsigned.chain_id = some c)
    (hv : t.v.toNat = 2 * c.toNat + 35 + id.val) :
    t.extract_recovery_id = if t.v.toNat < 2 ^ 31 - 1 then .ok id else .err .InvalidRecoveryId := by
  have hlt := t.v.isLt
  have htwice : (c * 2).toNat = 2 * c.toNat := by
    rw [BitVec.toNat_mul, show (2 : U256).toNat = 2 from rfl, Nat.mod_eq_of_lt (by omega)]
    omega
  have hrest : (t.v - c * 2).toNat = 35 + id.val := by
    rw [BitVec.toNat_sub_of_le (by rw [BitVec.le_def]; omega)]
    omega
  have hid : (t.v - c * 2 - 35).toNat = id.val := by
    rw [BitVec.toNat_sub_of_le (by rw [BitVec.le_def]; show 35 ≤ _; omega), hrest,
      show (35 : U256).toNat = 35 from rfl]
    omega
  have hidlt := id.isLt
  unfold extract_recovery_id
  rw [hchain]
  simp only [Profile.mul, Profile.sub, Profile.arith, show (2 : U256).toNat = 2 from rfl,
    show (35 : U256).toNat = 35 from rfl]
  rw [if_pos (by omega), Outcome.ok_bind, if_pos (by omega), Outcome.ok_bind,
    if_pos (by omega), Outcome.ok_bind, hid]
  by_cases hmax : t.v.toNat < 2 ^ 31 - 1
  · rw [if_pos hmax, if_pos hmax, if_pos (by omega), RecoveryId.from_i32, dif_pos hidlt]
    rfl
  · rw [if_neg hmax, if_neg hmax]

/-- The chain id comes out of `v`, for a recovery id of zero or one. -/
theorem extract_chain_id_packed {v id : Nat} (hv : v = 2 * c.toNat + 35 + id) (hid : id ≤ 1) :
    (extract_chain_id v).map (BitVec.ofNat 256) = some c := by
  unfold extract_chain_id
  rw [if_pos (by omega), show (v - 35) / 2 = c.toNat by omega]
  simp

/-! ## The round trip -/

/-- Decoding the encoded transaction gives it back, with the signature that
    was made, and the key is recovered over the digest that was signed. -/
structure RoundTrips (host : Host Digest) (tx : TransactionLegacyUnsigned)
    (sig : RecoverableSignature) (t : TransactionLegacySigned) : Prop where
  decode : ∀ raw : Bytes, raw.data = t.encode → TransactionLegacySigned.decode raw = .ok t
  raw_signature : t.raw_signature = .ok (Host.signature_bytes sig.compact sig.recovery_id)
  recover : t.recover_pub_key host =
    Outcome.ok_or .InvalidSignature (host.recover_ecdsa (host.keccak_256 tx.encode) sig)

/-- **The round trip** of a signed transaction works exactly for chain ids
    with which `v` is below `i32::MAX`. -/
theorem round_trips_iff (hchain : tx.chain_id = some c) (hc : 2 * c.toNat + 36 < 2 ^ 64)
    (hid : sig.recovery_id.val ≤ 1) (hsig : host.is_compact sig.compact = true) :
    ∃ t, «from» tx sig = (.ok t : Outcome Secp256k1Error _) ∧
      (RoundTrips host tx sig t ↔ 2 * c.toNat + 35 + sig.recovery_id.val < 2 ^ 31 - 1) := by
  obtain ⟨t, hfrom, htx, hv, hcompact⟩ := @from_eq_ok tx sig c Secp256k1Error hchain hc hid
  refine ⟨t, hfrom, ?_⟩
  have hextract := extract_recovery_id_packed (t := t) (by rw [htx]; exact hchain) hv
  rw [hv] at hextract
  constructor
  · intro h
    by_contra hmax
    have hraw := h.raw_signature
    unfold TransactionLegacySigned.raw_signature at hraw
    rw [hextract, if_neg hmax] at hraw
    cases hraw
  · intro hmax
    rw [if_pos hmax] at hextract
    refine ⟨?_, ?_, ?_⟩
    · intro raw hraw
      rw [decode_encode hraw (by omega), extract_chain_id_packed hv hid, ← hchain, ← htx]
    · unfold TransactionLegacySigned.raw_signature
      rw [hextract, Outcome.ok_bind, Outcome.pure_eq, hcompact]
    · unfold recover_pub_key recoverable_signature Host.from_compact
      rw [hextract, Outcome.ok_bind, hcompact, if_pos hsig, Outcome.ok_or_some, Outcome.ok_bind,
        htx]

/-- The signature of `call 0 596`, on chain 596. -/
theorem round_trips_iff_sample :
    ∃ t, «from» (Sample.call 0 596) ⟨Sample.signed_call_0.compact, 0⟩ =
        (.ok t : Outcome Secp256k1Error _) ∧
      RoundTrips Sample.table.host (Sample.call 0 596) ⟨Sample.signed_call_0.compact, 0⟩ t := by
  let sig : RecoverableSignature := ⟨Sample.signed_call_0.compact, 0⟩
  have hchain : (Sample.call 0 596).chain_id = some 596 := rfl
  have hid : sig.recovery_id.val ≤ 1 := by decide
  have hsig : Sample.table.host.is_compact sig.compact = true := rfl
  obtain ⟨t, hfrom, hiff⟩ := round_trips_iff hchain (by decide) hid hsig
  exact ⟨t, hfrom, hiff.mpr (by decide)⟩

/-- A signature on chain `2 ^ 30`, which has more than 31 bits once packed:
    it encodes and decodes, and no recovery id comes out. -/
theorem large_chain_id_not_recovered :
    ∃ t, «from» (Sample.call 0 (2 ^ 30)) ⟨Sample.signed_call_0.compact, 0⟩ =
        (.ok t : Outcome Secp256k1Error _) ∧
      (∀ raw : Bytes, raw.data = t.encode → TransactionLegacySigned.decode raw = .ok t) ∧
      t.raw_signature = .err .InvalidRecoveryId ∧
      t.recover_eth_address Sample.table.host = .err .InvalidRecoveryId ∧
      ¬ RoundTrips Sample.table.host (Sample.call 0 (2 ^ 30))
        ⟨Sample.signed_call_0.compact, 0⟩ t := by
  refine ⟨⟨Sample.call 0 (2 ^ 30), Sample.signed_call_0.r, Sample.signed_call_0.s, 2147483683⟩,
    by decide +kernel, ?_, by decide +kernel, by decide +kernel, ?_⟩
  · intro raw hraw
    exact decode_encode hraw (by decide)
  · intro h
    exact absurd h.raw_signature (by decide +kernel)

end TransactionLegacySigned

end EthRpc
