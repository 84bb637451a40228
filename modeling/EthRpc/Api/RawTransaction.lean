import EthRpc.Api.SignRoundTrip
import EthRpc.Api.SignedFormat

/-! # Raw transactions, whatever their bytes

    A raw transaction is decoded, its address recovered and its signature
    extracted. The words of 256 bits that the decoder reads go through casts
    and subtractions that panic, and which of these are reached depends on
    `v` alone.

    * `decode_eq_panic_iff`: the one panic there is. The decoder narrows `v`
      to 64 bits once it has read everything up to `v`.
    * `extract_recovery_id_of_reads`: what comes out of `v` after that. With a
      chain id, the recovery id that `from` packed; without one, `v` itself.

    `from` packs a recovery id without a chain id as 27 or 28, so the last
    point means that it never comes out again.
-/

namespace EthRpc

namespace TransactionLegacySigned

variable {Digest : Type} {host : Host Digest} {raw : Bytes} {t : TransactionLegacySigned}
  {tx : TransactionLegacyUnsigned} {sig : RecoverableSignature}

/-! ## Where the decoder panics -/

/-- The items up to `v` are read. -/
structure ReadsUpToV (raw : Bytes) (v : U256) : Prop where
  nonce : ∃ x, (Rlp.payload_item raw 0 >>= Rlp.as_uint 32) = .ok x
  gas_price : ∃ x, (Rlp.payload_item raw 1 >>= Rlp.as_uint 32) = .ok x
  gas : ∃ x, (Rlp.payload_item raw 2 >>= Rlp.as_uint 32) = .ok x
  «to» : ∃ item dest, Rlp.payload_item raw 3 = .ok item ∧
    (if Rlp.is_empty item then pure none else some <$> Rlp.as_fixed 20 item) = Except.ok dest
  value : ∃ x, (Rlp.payload_item raw 4 >>= Rlp.as_uint 32) = .ok x
  input : ∃ x, (Rlp.payload_item raw 5 >>= Rlp.decode_value) = .ok x
  v : (Rlp.payload_item raw 6 >>= Rlp.as_uint 32) = .ok v

theorem as_u64_eq_panic {ε : Type} {v : U256} :
    as_u64 v = (.panic : Outcome ε Nat) ↔ 2 ^ 64 ≤ v.toNat := by
  unfold as_u64
  by_cases h : v.toNat < 2 ^ 64
  · rw [if_pos h]
    constructor
    · intro hpanic
      cases hpanic
    · intro hle
      omega
  · rw [if_neg h]
    constructor
    · intro _
      omega
    · intro _
      rfl

/-- **The decoder panics** exactly if everything up to `v` is read, and `v`
    does not fit into 64 bits. -/
theorem decode_eq_panic_iff :
    decode raw = .panic ↔ ∃ v, ReadsUpToV raw v ∧ 2 ^ 64 ≤ v.toNat := by
  rw [decode_eq]
  simp only [Outcome.bind_eq_panic, Outcome.of_except_ne_panic, Outcome.of_except_eq_ok,
    as_u64_eq_panic, false_or, Outcome.pure_eq, reduceCtorEq, and_false, exists_false, or_false]
  constructor
  · intro h
    obtain ⟨v, hv, nonce, hnonce, price, hprice, gas, hgas, item, hitem, dest, hdest, value,
      hvalue, input, hinput, hlarge⟩ := h
    exact ⟨v, ⟨⟨_, hnonce⟩, ⟨_, hprice⟩, ⟨_, hgas⟩, ⟨_, _, hitem, hdest⟩, ⟨_, hvalue⟩,
      ⟨_, hinput⟩, hv⟩, hlarge⟩
  · intro h
    obtain ⟨v, ⟨⟨_, hnonce⟩, ⟨_, hprice⟩, ⟨_, hgas⟩, ⟨_, _, hitem, hdest⟩, ⟨_, hvalue⟩,
      ⟨_, hinput⟩, hv⟩, hlarge⟩ := h
    exact ⟨v, hv, _, hnonce, _, hprice, _, hgas, _, hitem, _, hdest, _, hvalue, _, hinput, hlarge⟩

/-! ## What comes out of `v` -/

/-- Without a chain id, `v` itself is taken for the recovery id. -/
theorem extract_recovery_id_of_none (hchain : t.transaction_legacy_unsigned.chain_id = none)
    (hv : t.v.toNat < 35) :
    t.extract_recovery_id = Outcome.ok_or .InvalidRecoveryId (RecoveryId.from_i32 t.v.toNat) := by
  unfold extract_recovery_id
  rw [hchain]
  simp only [Outcome.ok_bind]
  rw [if_pos (by omega), if_pos (by omega)]

/-- A decoded transaction has no chain id exactly if `v` is below the range
    of EIP-155. -/
theorem Reads.chain_id_eq_none_iff (h : Reads raw t) :
    t.transaction_legacy_unsigned.chain_id = none ↔ t.v.toNat < 35 := by
  rw [h.chain_id, Option.map_eq_none_iff]
  unfold extract_chain_id
  by_cases hv : 35 ≤ t.v.toNat
  · rw [if_pos hv]
    constructor
    · intro hnone
      cases hnone
    · intro hlt
      omega
  · rw [if_neg hv]
    constructor
    · intro _
      omega
    · intro _
      rfl

/-- **What comes out of a decoded `v`**: a value or an error in every case. -/
theorem extract_recovery_id_of_reads (h : Reads raw t) : t.extract_recovery_id =
    if t.v.toNat < 35 then Outcome.ok_or .InvalidRecoveryId (RecoveryId.from_i32 t.v.toNat)
    else if t.v.toNat < 2 ^ 31 - 1 then
      .ok ⟨(t.v.toNat - 35) % 2, by omega⟩
    else .err .InvalidRecoveryId := by
  have hlt := h.v_lt
  by_cases hv : t.v.toNat < 35
  · rw [if_pos hv]
    exact extract_recovery_id_of_none (h.chain_id_eq_none_iff.mpr hv) hv
  · rw [if_neg hv]
    have hc : (BitVec.ofNat 256 ((t.v.toNat - 35) / 2)).toNat = (t.v.toNat - 35) / 2 := by
      rw [BitVec.toNat_ofNat, Nat.mod_eq_of_lt (by omega)]
    have hchain : t.transaction_legacy_unsigned.chain_id =
        some (BitVec.ofNat 256 ((t.v.toNat - 35) / 2)) := by
      rw [h.chain_id, extract_chain_id, if_pos (by omega)]
      rfl
    apply extract_recovery_id_packed hchain
    rw [hc]
    show t.v.toNat = 2 * ((t.v.toNat - 35) / 2) + 35 + (t.v.toNat - 35) % 2
    omega

theorem extract_recovery_id_ne_panic (h : Reads raw t) : t.extract_recovery_id ≠ .panic := by
  rw [extract_recovery_id_of_reads h]
  split
  · exact Outcome.ok_or_ne_panic _ _
  · split
    · simp
    · simp

/-! ## Totality -/

/-- Decoding the bytes, recovering the address and extracting the signature
    end with a value or an error. -/
structure Total (host : Host Digest) (raw : Bytes) : Prop where
  decode : TransactionLegacySigned.decode raw ≠ .panic
  recover : ∀ t, TransactionLegacySigned.decode raw = .ok t → t.recover_eth_address host ≠ .panic
  raw_signature : ∀ t, TransactionLegacySigned.decode raw = .ok t → t.raw_signature ≠ .panic

/-- What is decoded is recovered from without a panic. -/
theorem recover_eth_address_ne_panic (h : Reads raw t) : t.recover_eth_address host ≠ .panic := by
  have hid := extract_recovery_id_ne_panic h
  unfold recover_eth_address recover_pub_key recoverable_signature
  simp only [ne_eq, Outcome.bind_eq_panic, hid, Outcome.ok_or_ne_panic, Outcome.pure_eq,
    reduceCtorEq, and_false, exists_false, or_false, not_false_eq_true]

theorem raw_signature_ne_panic (h : Reads raw t) : t.raw_signature ≠ .panic := by
  have hid := extract_recovery_id_ne_panic h
  unfold TransactionLegacySigned.raw_signature
  simp only [ne_eq, Outcome.bind_eq_panic, hid, Outcome.pure_eq, reduceCtorEq, and_false,
    exists_false, or_false, not_false_eq_true]

/-- **Totality.** Any bytes are handled without a panic exactly if `v`, once
    everything up to it has been read, fits into 64 bits. -/
theorem total_iff (host : Host Digest) (raw : Bytes) :
    Total host raw ↔ ∀ v, ReadsUpToV raw v → v.toNat < 2 ^ 64 := by
  constructor
  · intro h v hv
    by_contra hlarge
    exact h.decode (decode_eq_panic_iff.mpr ⟨v, hv, by omega⟩)
  · intro h
    refine ⟨?_, fun t ht => recover_eth_address_ne_panic (reads_of_decode ht),
      fun t ht => raw_signature_ne_panic (reads_of_decode ht)⟩
    intro hpanic
    obtain ⟨v, hv, hlarge⟩ := decode_eq_panic_iff.mp hpanic
    have := h v hv
    omega

/-- Nine items, all of them empty but `v`, which is `2 ^ 64`. -/
theorem large_v_panics :
    let raw : Bytes := ⟨[0xd2, 0x80, 0x80, 0x80, 0x80, 0x80, 0x80, 0x89, 1, 0, 0, 0, 0, 0, 0, 0, 0,
      0x80, 0x80], by decide⟩
    TransactionLegacySigned.decode raw = .panic ∧ ¬ Total Sample.table.host raw := by
  intro raw
  have hpanic : TransactionLegacySigned.decode raw = .panic := by decide +kernel
  exact ⟨hpanic, fun h => h.decode hpanic⟩

/-! ## Signatures without a chain id -/

/-- What `from` packs without a chain id. -/
theorem from_eq_ok_of_none {ε : Type} (hchain : tx.chain_id = none)
    (hid : sig.recovery_id.val ≤ 1) :
    ∃ t, «from» tx sig = (.ok t : Outcome ε _) ∧ t.transaction_legacy_unsigned = tx ∧
      t.v.toNat = 27 + sig.recovery_id.val ∧ t.compact = sig.compact := by
  have hrec : (BitVec.ofNat 256 sig.recovery_id.val).toNat = sig.recovery_id.val := by
    rw [BitVec.toNat_ofNat, Nat.mod_eq_of_lt (by omega)]
  have hbase : (27 : U256).toNat = 27 := rfl
  refine ⟨⟨tx, BitVec.ofNat 256 (of_be (sig.compact.toList.take 32)),
    BitVec.ofNat 256 (of_be (sig.compact.toList.drop 32)),
    27 + BitVec.ofNat 256 sig.recovery_id.val⟩, ?_, rfl, ?_, compact_of_be rfl rfl⟩
  · unfold «from»
    rw [hchain]
    simp only
    rw [Profile.add_of_lt (by rw [hbase, hrec]; omega), Outcome.ok_bind, Outcome.pure_eq]
  · simp only
    rw [BitVec.toNat_add, hbase, hrec, Nat.mod_eq_of_lt (by omega)]

/-- An encoded transaction without a chain id, and with the `v` of one, is
    decoded as it was. -/
theorem decode_encode_of_none (hchain : t.transaction_legacy_unsigned.chain_id = none)
    (hv : t.v.toNat < 35) (hraw : raw.data = t.encode) :
    TransactionLegacySigned.decode raw = .ok t := by
  rw [decode_encode hraw (by omega), extract_chain_id, if_neg (by omega), Option.map_none, ← hchain]

/-- A recovery id is accepted for `t`. -/
def AcceptsRecoveryId (t : TransactionLegacySigned) : Prop := ∃ id, t.extract_recovery_id = .ok id

/-- **Signatures without a chain id.** They are encoded and decoded, and no
    recovery id comes out of any of them. Of the transactions that decode
    without a chain id, a recovery id is accepted for no other `v` than those
    `from` packs exactly if `v` is at least four. -/
theorem legacy_signature_lost (host : Host Digest) :
    (∀ tx sig, tx.chain_id = none → sig.recovery_id.val ≤ 1 →
      ∃ t, «from» tx sig = (.ok t : Outcome Secp256k1Error _) ∧
        (∀ raw : Bytes, raw.data = t.encode → TransactionLegacySigned.decode raw = .ok t) ∧
        t.raw_signature = .err .InvalidRecoveryId ∧
        t.recoverable_signature host = .err .InvalidRecoveryId ∧
        ¬ RoundTrips host tx sig t) ∧
    ∀ raw t, TransactionLegacySigned.decode raw = .ok t →
      t.transaction_legacy_unsigned.chain_id = none →
      ((t.AcceptsRecoveryId → t.v.toNat = 27 ∨ t.v.toNat = 28) ↔ 4 ≤ t.v.toNat) := by
  constructor
  · intro tx sig hchain hid
    obtain ⟨t, hfrom, rfl, hv, -⟩ := from_eq_ok_of_none (ε := Secp256k1Error) hchain hid
    have hextract : t.extract_recovery_id = .err .InvalidRecoveryId := by
      rw [extract_recovery_id_of_none hchain (by omega), RecoveryId.from_i32, dif_neg (by omega)]
      rfl
    have hraw : t.raw_signature = .err .InvalidRecoveryId := by
      unfold TransactionLegacySigned.raw_signature
      rw [hextract]
      rfl
    refine ⟨t, hfrom, fun raw => decode_encode_of_none hchain (by omega), hraw, ?_, ?_⟩
    · unfold recoverable_signature
      rw [hextract]
      rfl
    · intro h
      have hok := h.raw_signature
      rw [hraw] at hok
      cases hok
  · intro raw t ht hchain
    have hv := (reads_of_decode ht).chain_id_eq_none_iff.mp hchain
    unfold AcceptsRecoveryId
    rw [extract_recovery_id_of_none hchain hv, RecoveryId.from_i32]
    constructor
    · intro h
      by_contra hlt
      rw [dif_pos (by omega)] at h
      have := h ⟨_, rfl⟩
      omega
    · intro hle h
      obtain ⟨id, hid⟩ := h
      rw [dif_neg (by omega)] at hid
      cases hid

/-- A call without a chain id, signed with the recovery id zero: `v` is 27,
    and 27 is no recovery id. -/
theorem legacy_signature_lost_sample :
    let tx := { Sample.call 0 596 with chain_id := none }
    ∃ t, «from» tx ⟨Sample.signed_call_0.compact, 0⟩ = (.ok t : Outcome Secp256k1Error _) ∧
      (∀ raw : Bytes, raw.data = t.encode → TransactionLegacySigned.decode raw = .ok t) ∧
      t.raw_signature = .err .InvalidRecoveryId ∧
      t.recoverable_signature Sample.table.host = .err .InvalidRecoveryId ∧
      ¬ RoundTrips Sample.table.host tx ⟨Sample.signed_call_0.compact, 0⟩ t :=
  (legacy_signature_lost Sample.table.host).1 { Sample.call 0 596 with chain_id := none }
    ⟨Sample.signed_call_0.compact, 0⟩ rfl (by decide)

/-- The same call, encoded and decoded: neither the signature nor the signer
    comes out. Of nine empty items, which decode without a chain id, the `v`
    of zero is accepted as a recovery id. -/
theorem legacy_v_no_recovery_id :
    let tx := { Sample.call 0 596 with chain_id := none }
    let zeros : Bytes := ⟨0xc9 :: List.replicate 9 0x80, by decide⟩
    (∃ t, «from» tx ⟨Sample.signed_call_0.compact, 0⟩ = (.ok t : Outcome Secp256k1Error _) ∧
      t.v = 27 ∧ (∀ raw : Bytes, raw.data = t.encode → TransactionLegacySigned.decode raw = .ok t) ∧
      t.raw_signature = .err .InvalidRecoveryId ∧
      t.recover_eth_address Sample.table.host = .err .InvalidRecoveryId ∧
      ¬ RoundTrips Sample.table.host tx ⟨Sample.signed_call_0.compact, 0⟩ t) ∧
    ∃ t, TransactionLegacySigned.decode zeros = .ok t ∧
      t.transaction_legacy_unsigned.chain_id = none ∧ t.v = 0 ∧ t.AcceptsRecoveryId := by
  intro tx zeros
  constructor
  · refine ⟨⟨tx, Sample.signed_call_0.r, Sample.signed_call_0.s, 27⟩, by decide +kernel, rfl, ?_,
      by decide +kernel, by decide +kernel, ?_⟩
    · intro raw hraw
      exact decode_encode_of_none rfl (by decide) hraw
    · intro h
      exact absurd h.raw_signature (by decide +kernel)
  · exact ⟨⟨⟨none, 0, 0, ⟨[], by decide⟩, 0, none, .mk, 0⟩, 0, 0, 0⟩, by decide +kernel, rfl, rfl,
      0, by decide +kernel⟩

end TransactionLegacySigned

end EthRpc
