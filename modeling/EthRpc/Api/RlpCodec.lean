import EthRpc.Framework.Outcome
import EthRpc.Framework.RlpReader
import EthRpc.Api.Types

/-! # RLP encoding and decoding of legacy transactions

    The unsigned form has six items, or nine when a chain id is present
    (EIP-155); the signed form always has nine, with `v`, `r`, `s` last.

    The decoders read the items by position. The chain id of a signed
    transaction is not an item of its own: it is computed from `v`, through
    a cast to `u64` that panics on a larger value.

    `encode_inj`: the encoding of an unsigned transaction determines it.
-/

namespace EthRpc

open Rlp (DecoderError encode_value encode_list)

/-- The string RLP writes for an integer. -/
def uint_bytes (x : U256) : List UInt8 := be_bytes x.toNat

/-- The string RLP writes for an optional address. -/
def to_bytes : Option Address → List UInt8
  | some a => a.toList
  | none => []

theorem uint_bytes_inj {x y : U256} (h : uint_bytes x = uint_bytes y) : x = y :=
  BitVec.eq_of_toNat_eq (be_bytes_inj h)

theorem uint_bytes_length_le (x : U256) : (uint_bytes x).length ≤ 32 := by
  apply be_bytes_length_le
  have := x.isLt
  norm_num at this ⊢
  omega

theorem to_bytes_inj {a b : Option Address} (h : to_bytes a = to_bytes b) : a = b := by
  cases a with
  | none =>
    cases b with
    | none => rfl
    | some b =>
      -- an absent address is the empty string, and a present one has twenty bytes
      have := congrArg List.length h
      simp [to_bytes] at this
  | some a =>
    cases b with
    | none =>
      have := congrArg List.length h
      simp [to_bytes] at this
    | some b => exact congrArg some (List.Vector.eq a b h)

theorem to_bytes_length_le (a : Option Address) : (to_bytes a).length ≤ 20 := by
  cases a with
  | none => simp [to_bytes]
  | some a => simp [to_bytes]

/-! ## Reading an encoded list of strings -/

/-- `raw` is an encoded list of strings, each and all together of a length
    that RLP can express. -/
structure EncodesStrings (raw : Bytes) (vs : List (List UInt8)) : Prop where
  data : raw.data = encode_list (vs.map encode_value)
  length_lt : ∀ v ∈ vs, v.length < 2 ^ 64
  flatten_length_lt : (vs.map encode_value).flatten.length < 2 ^ 64

namespace EncodesStrings

variable {raw : Bytes} {vs : List (List UInt8)} {i : Nat}

theorem data_append_nil (h : EncodesStrings raw vs) :
    raw.data = encode_list (vs.map encode_value) ++ [] := by
  rw [h.data, List.append_nil]

theorem payload_item (h : EncodesStrings raw vs) {s : List UInt8} (hi : vs[i]? = some s) :
    ∃ item, Rlp.payload_item raw i = .ok item ∧ item.data = encode_value s :=
  Rlp.payload_item_encode_list h.length_lt h.flatten_length_lt h.data_append_nil hi

/-- There is nothing behind the last string. -/
theorem val_at_length (h : EncodesStrings raw vs) (hi : i < vs.length) {α : Type}
    (as_val : Bytes → Except DecoderError α) :
    Rlp.val_at raw vs.length as_val (some ⟨i, Rlp.offset raw i⟩) = .error .RlpIsTooShort := by
  obtain ⟨item, hitem, -⟩ := h.payload_item (List.getElem?_eq_getElem hi)
  obtain ⟨rest, hwalk⟩ := Rlp.walk_of_walked_item (Rlp.walked_item_of_payload_item hitem)
  rw [Rlp.val_at_eq (Rlp.item_at_next (Rlp.payload_item_iff.mp hitem).1 hwalk (Nat.le_of_lt hi)),
    Rlp.walked_item_encode_list_length h.length_lt h.flatten_length_lt h.data]
  rfl

variable {cache : Option Rlp.OffsetCache} (hcache : Rlp.Cached raw vs.length cache)
include hcache

/-- Each string is found at its index, whatever was read before. -/
theorem item_at (h : EncodesStrings raw vs) {s : List UInt8} (hi : vs[i]? = some s) :
    ∃ item, Rlp.item_at raw i cache = .ok (item, some ⟨i, Rlp.offset raw i⟩) ∧
      item.data = encode_value s := by
  obtain ⟨item, hitem, hdata⟩ := h.payload_item hi
  obtain ⟨hlt, -⟩ := List.getElem?_eq_some_iff.mp hi
  have hlast : vs.length - 1 < vs.length := by omega
  obtain ⟨last, hlast, -⟩ := h.payload_item (List.getElem?_eq_getElem hlast)
  rw [← Nat.sub_add_cancel (show 1 ≤ vs.length by omega)] at hcache
  exact ⟨item, Rlp.item_at_of_payload hlast hcache hitem, hdata⟩

/-- An integer is read back from its place. -/
theorem uint_at (h : EncodesStrings raw vs) {x : U256} (hi : vs[i]? = some (uint_bytes x)) :
    Rlp.val_at raw i (Rlp.as_uint 32) cache = .ok (x, some ⟨i, Rlp.offset raw i⟩) := by
  obtain ⟨item, hitem, hdata⟩ := h.item_at hcache hi
  have hle := uint_bytes_length_le x
  obtain ⟨w, hw, hwdata⟩ := Rlp.decode_value_encode_value (by omega) hdata
  have hhead : (uint_bytes x).head? ≠ some 0 := be_bytes_head_ne_zero x.toNat
  have hread : Rlp.as_uint 32 item = .ok x := by
    unfold Rlp.as_uint
    rw [hw]
    simp only [hwdata]
    rw [if_neg hhead, if_pos hle]
    simp [uint_bytes]
  exact Rlp.val_at_of_item_at hitem hread

/-- An optional address is read back from its place. -/
theorem to_at (h : EncodesStrings raw vs) {dest : Option Address}
    (hi : vs[i]? = some (to_bytes dest)) :
    ∃ item, Rlp.item_at raw i cache = .ok (item, some ⟨i, Rlp.offset raw i⟩) ∧
      (if Rlp.is_empty item then pure none else some <$> Rlp.as_fixed 20 item :
        Except DecoderError (Option Address)) = .ok dest := by
  obtain ⟨item, hitem, hdata⟩ := h.item_at hcache hi
  refine ⟨item, hitem, ?_⟩
  cases dest with
  | none =>
    -- the empty string
    have hempty : Rlp.is_empty item = true := by
      unfold Rlp.is_empty
      rw [hdata]
      rfl
    rw [if_pos hempty]
    rfl
  | some a =>
    have hlen : a.toList.length = 20 := a.toList_length
    obtain ⟨w, hw, hwdata⟩ := Rlp.decode_value_encode_value (by rw [to_bytes, hlen]; omega) hdata
    -- twenty bytes have a header that says so
    have hempty : ¬ Rlp.is_empty item = true := by
      have hown : Rlp.is_own_encoding a.toList = false := by
        match h : a.toList with
        | [] => rfl
        | [x] => rw [h] at hlen; simp at hlen
        | x :: y :: l => rfl
      unfold Rlp.is_empty
      rw [hdata, encode_value, to_bytes, hown, Rlp.header, hlen]
      simp
    rw [if_neg hempty]
    unfold Rlp.as_fixed
    rw [hw]
    simp only
    rw [dif_pos (by rw [hwdata]; exact hlen)]
    simp only [hwdata, to_bytes]
    rfl

/-- A string is read back from its place. -/
theorem string_at (h : EncodesStrings raw vs) {v : Bytes} (hi : vs[i]? = some v.data) :
    Rlp.val_at raw i Rlp.decode_value cache = .ok (v, some ⟨i, Rlp.offset raw i⟩) := by
  obtain ⟨item, hitem, hdata⟩ := h.item_at hcache hi
  have hlt := v.length_lt
  obtain ⟨w, hw, hwdata⟩ := Rlp.decode_value_encode_value (by omega) hdata
  exact Rlp.val_at_of_item_at hitem (by rw [hw, ByteVec.ext hwdata])

end EncodesStrings

/-! ## Unsigned transactions -/

namespace TransactionLegacyUnsigned

/-- The strings the encoder appends, in order. -/
def rlp_strings (tx : TransactionLegacyUnsigned) : List (List UInt8) :=
  match tx.chain_id with
  | some chain_id =>
    -- the chain id, and two zeros in the places of `r` and `s`
    [uint_bytes tx.nonce, uint_bytes tx.gas_price, uint_bytes tx.gas, to_bytes tx.to,
      uint_bytes tx.value, tx.input.data, uint_bytes chain_id, [], []]
  | none =>
    [uint_bytes tx.nonce, uint_bytes tx.gas_price, uint_bytes tx.gas, to_bytes tx.to,
      uint_bytes tx.value, tx.input.data]

/-- `rlp::encode`. -/
def encode (tx : TransactionLegacyUnsigned) : List UInt8 :=
  encode_list (tx.rlp_strings.map encode_value)

/-- `Decodable::decode`. -/
def decoder (rlp : Bytes) : Rlp.Reader TransactionLegacyUnsigned := do
  let nonce ← Rlp.val_at rlp 0 (Rlp.as_uint 32)
  let gas_price ← Rlp.val_at rlp 1 (Rlp.as_uint 32)
  let gas ← Rlp.val_at rlp 2 (Rlp.as_uint 32)
  let dest ← Rlp.item_at rlp 3
  let dest ← (if Rlp.is_empty dest then pure none else some <$> Rlp.as_fixed 20 dest :
    Except DecoderError (Option Address))
  let value ← Rlp.val_at rlp 4 (Rlp.as_uint 32)
  let input ← Rlp.val_at rlp 5 Rlp.decode_value
  -- a missing seventh item and an unreadable one both mean: no chain id
  let chain_id ← (Rlp.val_at rlp 6 (Rlp.as_uint 32)).ok
  return {
    chain_id := chain_id, gas := gas, gas_price := gas_price, input := input,
    nonce := nonce, «to» := dest, type := .mk, value := value }

/-- `rlp::decode`. -/
def decode (rlp : Bytes) : Except DecoderError TransactionLegacyUnsigned :=
  (decoder rlp).run' none

theorem rlp_strings_length_lt (tx : TransactionLegacyUnsigned) :
    ∀ s ∈ tx.rlp_strings, s.length < 2 ^ 63 := by
  have hnonce := uint_bytes_length_le tx.nonce
  have hprice := uint_bytes_length_le tx.gas_price
  have hgas := uint_bytes_length_le tx.gas
  have hto := to_bytes_length_le tx.to
  have hvalue := uint_bytes_length_le tx.value
  have hinput := tx.input.length_lt
  unfold rlp_strings
  cases tx.chain_id with
  | none =>
    simp only [List.forall_mem_cons, List.not_mem_nil, false_implies, implies_true, and_true]
    omega
  | some c =>
    have hchain := uint_bytes_length_le c
    simp only [List.forall_mem_cons, List.not_mem_nil, false_implies, implies_true, and_true,
      List.length_nil]
    omega

theorem rlp_strings_flatten_length_lt (tx : TransactionLegacyUnsigned) :
    (tx.rlp_strings.map encode_value).flatten.length < 2 ^ 64 := by
  have hb := tx.rlp_strings_length_lt
  have hlt : ∀ v ∈ tx.rlp_strings, v.length < 2 ^ 64 := by
    intro v hv
    have := hb v hv
    omega
  have hle := Rlp.flatten_encode_value_length_le hlt
  have hnonce := uint_bytes_length_le tx.nonce
  have hprice := uint_bytes_length_le tx.gas_price
  have hgas := uint_bytes_length_le tx.gas
  have hto := to_bytes_length_le tx.to
  have hvalue := uint_bytes_length_le tx.value
  have hinput := tx.input.length_lt
  have hsum : (tx.rlp_strings.map List.length).sum + 9 * tx.rlp_strings.length < 2 ^ 64 := by
    unfold rlp_strings
    cases tx.chain_id with
    | none =>
      simp only [List.map_cons, List.map_nil, List.sum_cons, List.sum_nil, List.length_cons,
        List.length_nil]
      omega
    | some c =>
      have hchain := uint_bytes_length_le c
      simp only [List.map_cons, List.map_nil, List.sum_cons, List.sum_nil, List.length_cons,
        List.length_nil]
      omega
  omega

/-- The appended strings determine the transaction: six of them without a
    chain id, nine with one, and each field in a place of its own. -/
theorem rlp_strings_inj {s t : TransactionLegacyUnsigned} (h : s.rlp_strings = t.rlp_strings) :
    s = t := by
  obtain ⟨sc, sgas, sprice, sinput, snonce, sto, ⟨⟩, svalue⟩ := s
  obtain ⟨tc, tgas, tprice, tinput, tnonce, tto, ⟨⟩, tvalue⟩ := t
  unfold rlp_strings at h
  cases sc with
  | none =>
    cases tc with
    | none =>
      -- six items on either side
      simp only [List.cons.injEq, and_true] at h
      obtain ⟨h0, h1, h2, h3, h4, h5⟩ := h
      rw [uint_bytes_inj h0, uint_bytes_inj h1, uint_bytes_inj h2, to_bytes_inj h3,
        uint_bytes_inj h4, ByteVec.ext h5]
    | some c => simp at h
  | some d =>
    cases tc with
    | none => simp at h
    | some c =>
      -- nine items; the last two are the same zeros
      simp only [List.cons.injEq, and_true] at h
      obtain ⟨h0, h1, h2, h3, h4, h5, h6⟩ := h
      rw [uint_bytes_inj h0, uint_bytes_inj h1, uint_bytes_inj h2, to_bytes_inj h3,
        uint_bytes_inj h4, ByteVec.ext h5, uint_bytes_inj h6]

/-- **The encoding determines the transaction**, its chain id and the
    absence of one included. -/
theorem encode_inj {s t : TransactionLegacyUnsigned} (h : s.encode = t.encode) : s = t := by
  apply rlp_strings_inj
  have hs := s.rlp_strings_length_lt
  have ht := t.rlp_strings_length_lt
  exact Rlp.encode_list_map_inj (fun v hv => by have := hs v hv; omega)
    (fun v hv => by have := ht v hv; omega) s.rlp_strings_flatten_length_lt
    t.rlp_strings_flatten_length_lt h

/-! ### Reading back -/

section read_back
variable {tx : TransactionLegacyUnsigned} {raw : Bytes}

theorem encodes_strings (hraw : raw.data = tx.encode) : EncodesStrings raw tx.rlp_strings where
  data := by rw [hraw, encode]
  length_lt := by
    intro v hv
    have := tx.rlp_strings_length_lt v hv
    omega
  flatten_length_lt := tx.rlp_strings_flatten_length_lt

/-- The first six strings are the same with a chain id and without one. -/
theorem rlp_strings_eq (tx : TransactionLegacyUnsigned) :
    ∃ rest, tx.rlp_strings = [uint_bytes tx.nonce, uint_bytes tx.gas_price, uint_bytes tx.gas,
      to_bytes tx.to, uint_bytes tx.value, tx.input.data] ++ rest := by
  unfold rlp_strings
  cases tx.chain_id with
  | none => exact ⟨[], rfl⟩
  | some c => exact ⟨[uint_bytes c, [], []], rfl⟩

/-- The seventh string is the chain id; without a chain id there is none. -/
theorem chain_id_at (hraw : raw.data = tx.encode) :
    ∃ cache, (Rlp.val_at raw 6 (Rlp.as_uint 32)).ok (some ⟨5, Rlp.offset raw 5⟩) =
      .ok (tx.chain_id, cache) := by
  have h := encodes_strings hraw
  cases hchain : tx.chain_id with
  | none =>
    have hlen : tx.rlp_strings.length = 6 := by
      unfold rlp_strings
      rw [hchain]
      rfl
    have hnone := h.val_at_length (i := 5) (by omega) (Rlp.as_uint 32)
    rw [hlen] at hnone
    exact ⟨_, by rw [Rlp.Reader.ok, hnone]⟩
  | some c =>
    have hlen : tx.rlp_strings.length = 9 := by
      unfold rlp_strings
      rw [hchain]
      rfl
    have hi : tx.rlp_strings[6]? = some (uint_bytes c) := by
      unfold rlp_strings
      rw [hchain]
      rfl
    exact ⟨_, by rw [Rlp.Reader.ok, h.uint_at (Or.inr ⟨5, by omega, rfl⟩) hi]⟩

/-- **Decoding an encoded unsigned transaction** gives it back, with the
    chain id or without one, whatever the fields are. -/
theorem rlp_round_trip (hraw : raw.data = tx.encode) : decode raw = .ok tx := by
  have h := encodes_strings hraw
  obtain ⟨cache, hchain⟩ := chain_id_at hraw
  obtain ⟨rest, hrest⟩ := tx.rlp_strings_eq
  -- each read leaves the cache at its item, for the next one to go on from
  have hread {i : Nat} (hi : i < 6) :
      Rlp.Cached raw tx.rlp_strings.length (some ⟨i, Rlp.offset raw i⟩) :=
    Or.inr ⟨i, by rw [hrest]; simp; omega, rfl⟩
  obtain ⟨dest, hdest, hto⟩ := h.to_at (hread (i := 2) (by omega)) (i := 3)
    (by rw [hrest]; rfl)
  have hnonce := h.uint_at (Or.inl rfl) (i := 0) (by rw [hrest]; rfl)
  have hprice := h.uint_at (hread (i := 0) (by omega)) (i := 1) (by rw [hrest]; rfl)
  have hgas := h.uint_at (hread (i := 1) (by omega)) (i := 2) (by rw [hrest]; rfl)
  have hvalue := h.uint_at (hread (i := 3) (by omega)) (i := 4) (by rw [hrest]; rfl)
  have hinput := h.string_at (hread (i := 4) (by omega)) (i := 5) (by rw [hrest]; rfl)
  show (decoder raw none).map Prod.fst = .ok tx
  have hdecoded : decoder raw none = .ok (tx, cache) := by
    unfold decoder
    refine Rlp.Reader.bind_of_ok hnonce ?_
    refine Rlp.Reader.bind_of_ok hprice ?_
    refine Rlp.Reader.bind_of_ok hgas ?_
    refine Rlp.Reader.bind_of_ok hdest ?_
    refine Rlp.Reader.bind_of_ok (by rw [hto]; rfl) ?_
    refine Rlp.Reader.bind_of_ok hvalue ?_
    refine Rlp.Reader.bind_of_ok hinput ?_
    exact Rlp.Reader.bind_of_ok hchain rfl
  rw [hdecoded]
  rfl

/-- The zero address, and a chain id of zero. -/
theorem rlp_round_trip_sample :
    let tx : TransactionLegacyUnsigned := {
      chain_id := some 0, gas := 21000, gas_price := 0, input := ⟨[0], by decide⟩, nonce := 1,
      «to» := some (List.Vector.replicate 20 0), type := .mk, value := 0 }
    ∃ raw : Bytes, raw.data = tx.encode ∧ decode raw = .ok tx := by
  intro tx
  exact ⟨⟨tx.encode, by decide +kernel⟩, rfl, rlp_round_trip rfl⟩

end read_back

end TransactionLegacyUnsigned

/-! ## Signed transactions -/

namespace TransactionLegacySigned

/-- `rlp::encode`. -/
def encode (tx : TransactionLegacySigned) : List UInt8 :=
  let u := tx.transaction_legacy_unsigned
  encode_list ([uint_bytes u.nonce, uint_bytes u.gas_price, uint_bytes u.gas, to_bytes u.to,
    uint_bytes u.value, u.input.data, uint_bytes tx.v, uint_bytes tx.r,
    uint_bytes tx.s].map encode_value)

/-- The chain id packed in `v`, a `u64`. -/
def extract_chain_id (v : Nat) : Option Nat :=
  if 35 ≤ v then some ((v - 35) / 2) else none

/-- Reading does not panic. -/
def read {α : Type} (x : Rlp.Reader α) :
    StateT (Option Rlp.OffsetCache) (Outcome DecoderError) α := fun cache =>
  Outcome.of_except (x cache)

/-- `U256::as_u64`: panics on a value that does not fit. -/
def as_u64 {ε : Type} (v : U256) : Outcome ε Nat :=
  if v.toNat < 2 ^ 64 then .ok v.toNat else .panic

/-- `Decodable::decode`. -/
def decoder (rlp : Bytes) :
    StateT (Option Rlp.OffsetCache) (Outcome DecoderError) TransactionLegacySigned := do
  -- `v` is read before anything else
  let v ← read (Rlp.val_at rlp 6 (Rlp.as_uint 32))
  let nonce ← read (Rlp.val_at rlp 0 (Rlp.as_uint 32))
  let gas_price ← read (Rlp.val_at rlp 1 (Rlp.as_uint 32))
  let gas ← read (Rlp.val_at rlp 2 (Rlp.as_uint 32))
  let dest ← read (Rlp.item_at rlp 3)
  let dest ← Outcome.of_except
    (if Rlp.is_empty dest then pure none else some <$> Rlp.as_fixed 20 dest)
  let value ← read (Rlp.val_at rlp 4 (Rlp.as_uint 32))
  let input ← read (Rlp.val_at rlp 5 Rlp.decode_value)
  let v64 ← (as_u64 v : Outcome DecoderError Nat)
  -- these two may be behind the list
  let r ← read (Rlp.val_at rlp 7 (Rlp.as_uint 32))
  let s ← read (Rlp.val_at rlp 8 (Rlp.as_uint 32))
  return {
    transaction_legacy_unsigned := {
      chain_id := (extract_chain_id v64).map (BitVec.ofNat 256), gas := gas,
      gas_price := gas_price, input := input, nonce := nonce, «to» := dest, type := .mk,
      value := value }
    r := r, s := s, v := v }

/-- `rlp::decode`. -/
def decode (rlp : Bytes) : Outcome DecoderError TransactionLegacySigned :=
  (decoder rlp).run' none

/-! ## Reading back a signed transaction -/

/-- The strings the encoder appends, in order. -/
def rlp_strings (tx : TransactionLegacySigned) : List (List UInt8) :=
  let u := tx.transaction_legacy_unsigned
  [uint_bytes u.nonce, uint_bytes u.gas_price, uint_bytes u.gas, to_bytes u.to,
    uint_bytes u.value, u.input.data, uint_bytes tx.v, uint_bytes tx.r, uint_bytes tx.s]

theorem encode_eq (tx : TransactionLegacySigned) :
    tx.encode = encode_list (tx.rlp_strings.map encode_value) := rfl

theorem rlp_strings_length_lt (tx : TransactionLegacySigned) :
    (∀ s ∈ tx.rlp_strings, s.length < 2 ^ 64) ∧
      (tx.rlp_strings.map encode_value).flatten.length < 2 ^ 64 := by
  have hnonce := uint_bytes_length_le tx.transaction_legacy_unsigned.nonce
  have hprice := uint_bytes_length_le tx.transaction_legacy_unsigned.gas_price
  have hgas := uint_bytes_length_le tx.transaction_legacy_unsigned.gas
  have hto := to_bytes_length_le tx.transaction_legacy_unsigned.to
  have hvalue := uint_bytes_length_le tx.transaction_legacy_unsigned.value
  have hinput := tx.transaction_legacy_unsigned.input.length_lt
  have hv := uint_bytes_length_le tx.v
  have hr := uint_bytes_length_le tx.r
  have hs := uint_bytes_length_le tx.s
  have hlt : ∀ s ∈ tx.rlp_strings, s.length < 2 ^ 64 := by
    simp only [rlp_strings, List.forall_mem_cons, List.not_mem_nil, false_implies, implies_true,
      and_true]
    omega
  refine ⟨hlt, ?_⟩
  have hle := Rlp.flatten_encode_value_length_le hlt
  have hsum : (tx.rlp_strings.map List.length).sum + 9 * tx.rlp_strings.length < 2 ^ 64 := by
    simp only [rlp_strings, List.map_cons, List.map_nil, List.sum_cons, List.sum_nil,
      List.length_cons, List.length_nil]
    omega
  omega

section read_back
variable {tx : TransactionLegacySigned} {raw : Bytes}

theorem encodes_strings (hraw : raw.data = tx.encode) : EncodesStrings raw tx.rlp_strings where
  data := by rw [hraw, encode_eq]
  length_lt := tx.rlp_strings_length_lt.1
  flatten_length_lt := tx.rlp_strings_length_lt.2

/-- What is read first, and what is done then. -/
theorem bind_of_read {α β : Type} {x : Rlp.Reader α}
    {f : α → StateT (Option Rlp.OffsetCache) (Outcome DecoderError) β} {a : α}
    {cache cache' : Option Rlp.OffsetCache} {z : Outcome DecoderError (β × Option Rlp.OffsetCache)}
    (hx : x cache = .ok (a, cache')) (hf : f a cache' = z) : (read x >>= f) cache = z := by
  show (Outcome.of_except (x cache) >>= fun read => f read.1 read.2) = z
  rw [hx]
  exact hf

/-- What is found out first, and what is done then. -/
theorem bind_of_lift {α β : Type} {x : Outcome DecoderError α}
    {f : α → StateT (Option Rlp.OffsetCache) (Outcome DecoderError) β} {a : α}
    {cache : Option Rlp.OffsetCache} {z : Outcome DecoderError (β × Option Rlp.OffsetCache)}
    (hx : x = .ok a) (hf : f a cache = z) :
    ((x : StateT (Option Rlp.OffsetCache) (Outcome DecoderError) α) >>= f) cache = z := by
  subst hx
  exact hf

/-- **Decoding an encoded transaction** gives everything back, except that
    the chain id is the one packed in `v`. -/
theorem decode_encode (hraw : raw.data = tx.encode) (hv : tx.v.toNat < 2 ^ 64) :
    decode raw = .ok { tx with
      transaction_legacy_unsigned := { tx.transaction_legacy_unsigned with
        chain_id := (extract_chain_id tx.v.toNat).map (BitVec.ofNat 256) } } := by
  have h := encodes_strings hraw
  have hread {i : Nat} (hi : i < 9) :
      Rlp.Cached raw tx.rlp_strings.length (some ⟨i, Rlp.offset raw i⟩) := Or.inr ⟨i, hi, rfl⟩
  obtain ⟨dest, hdest, hto⟩ := h.to_at (hread (i := 2) (by omega)) (i := 3) rfl
  have hu64 : as_u64 tx.v = (.ok tx.v.toNat : Outcome DecoderError Nat) := if_pos hv
  have hdecoded : decoder raw none = .ok ({ tx with
      transaction_legacy_unsigned := { tx.transaction_legacy_unsigned with
        chain_id := (extract_chain_id tx.v.toNat).map (BitVec.ofNat 256) } },
      some ⟨8, Rlp.offset raw 8⟩) := by
    unfold decoder
    refine bind_of_read (h.uint_at (Or.inl rfl) (i := 6) rfl) ?_
    refine bind_of_read (h.uint_at (hread (i := 6) (by omega)) (i := 0) rfl) ?_
    refine bind_of_read (h.uint_at (hread (i := 0) (by omega)) (i := 1) rfl) ?_
    refine bind_of_read (h.uint_at (hread (i := 1) (by omega)) (i := 2) rfl) ?_
    refine bind_of_read hdest ?_
    refine bind_of_lift (by rw [hto]; rfl) ?_
    refine bind_of_read (h.uint_at (hread (i := 3) (by omega)) (i := 4) rfl) ?_
    refine bind_of_read (h.string_at (hread (i := 4) (by omega)) (i := 5) rfl) ?_
    refine bind_of_lift hu64 ?_
    refine bind_of_read (h.uint_at (hread (i := 5) (by omega)) (i := 7) rfl) ?_
    exact bind_of_read (h.uint_at (hread (i := 7) (by omega)) (i := 8) rfl) rfl
  show (decoder raw none >>= fun read => pure read.1) = _
  rw [hdecoded]
  rfl

end read_back

end TransactionLegacySigned

end EthRpc
