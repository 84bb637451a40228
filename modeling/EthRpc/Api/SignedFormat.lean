import EthRpc.Api.RlpCodec

/-! # What the signed decoder accepts

    The decoder reads nine items by position, and asks for the emptiness of
    the fourth before it reads it. The seventh is read first. It is looked for
    in the payload of the list, and so the first seven are there. The last
    two are read where the reader is then, whether the list goes on or not.

    Each item that is read has one encoding, so the bytes are determined up
    to three things nobody looks at:

    * where the list ends, behind the seventh item,
    * what follows the ninth item,
    * whether an absent address is the empty string or the empty list.

    `decode_eq` tells which items are read, without the cache of the reader.
    `decode_accepts`: any accepted bytes are the transaction's encoding up
    to these, and they are that encoding exactly if the list ends with the
    ninth item, nothing follows, and the address is a string.
-/

namespace EthRpc

open Rlp (DecoderError encode_value encode_list)

namespace TransactionLegacySigned

variable {raw : Bytes} {t : TransactionLegacySigned}

/-! ## Which items are read -/

section run
variable {α β : Type} {cache cache' : Option Rlp.OffsetCache}
  {f : α → StateT (Option Rlp.OffsetCache) (Outcome DecoderError) β}
  {z : α → Outcome DecoderError β}

theorem run_read {x : Rlp.Reader α} {y : Except DecoderError α}
    (hx : x cache = y.map fun a => (a, cache'))
    (hf : ∀ a, y = .ok a → (f a cache' >>= fun read => pure read.1) = z a) :
    ((read x >>= f) cache >>= fun read => pure read.1) = Outcome.of_except y >>= z := by
  show ((Outcome.of_except (x cache) >>= fun read => f read.1 read.2) >>= _) = _
  -- a failure ends the run, and its cache is dropped
  rw [hx]
  cases y with
  | error e => rfl
  | ok a => exact hf a rfl

theorem run_lift {x : Outcome DecoderError α}
    (hf : ∀ a, x = .ok a → (f a cache >>= fun read => pure read.1) = z a) :
    (((x : StateT (Option Rlp.OffsetCache) (Outcome DecoderError) α) >>= f) cache >>=
      fun read => pure read.1) = x >>= z := by
  cases x with
  | ok a => exact hf a rfl
  | err e => rfl
  | panic => rfl

end run

/-- The nine items: seven in the payload of the list, and two behind them. -/
theorem decode_eq (raw : Bytes) : decode raw = (do
    let v ← Outcome.of_except (Rlp.payload_item raw 6 >>= Rlp.as_uint 32)
    let nonce ← Outcome.of_except (Rlp.payload_item raw 0 >>= Rlp.as_uint 32)
    let gas_price ← Outcome.of_except (Rlp.payload_item raw 1 >>= Rlp.as_uint 32)
    let gas ← Outcome.of_except (Rlp.payload_item raw 2 >>= Rlp.as_uint 32)
    let dest ← Outcome.of_except (Rlp.payload_item raw 3)
    let dest ← Outcome.of_except
      (if Rlp.is_empty dest then pure none else some <$> Rlp.as_fixed 20 dest)
    let value ← Outcome.of_except (Rlp.payload_item raw 4 >>= Rlp.as_uint 32)
    let input ← Outcome.of_except (Rlp.payload_item raw 5 >>= Rlp.decode_value)
    let v64 ← as_u64 v
    let r ← Outcome.of_except (Rlp.walked_item raw 7 >>= Rlp.as_uint 32)
    let s ← Outcome.of_except (Rlp.walked_item raw 8 >>= Rlp.as_uint 32)
    return {
      transaction_legacy_unsigned := {
        chain_id := (extract_chain_id v64).map (BitVec.ofNat 256), gas := gas,
        gas_price := gas_price, input := input, nonce := nonce, «to» := dest, type := .mk,
        value := value }
      r := r, s := s, v := v }) := by
  show (decoder raw none >>= fun read => pure read.1) = _
  unfold decoder
  refine run_read (Rlp.val_at_eq (Rlp.item_at_first rfl)) fun v hv => ?_
  obtain ⟨last, hlast, -⟩ := Rlp.bind_eq_ok.mp hv
  -- the items in front of `v` are in the payload
  have hpayload {i j : Nat} (hi : i < 7) (hj : j < 7) :
      Rlp.item_at raw j (some ⟨i, Rlp.offset raw i⟩) =
        (Rlp.payload_item raw j).map fun item => (item, some ⟨j, Rlp.offset raw j⟩) := by
    obtain ⟨item, hitem⟩ := Rlp.payload_item_of_le hlast (show j ≤ 6 by omega)
    rw [Rlp.item_at_of_payload hlast (Or.inr ⟨i, hi, rfl⟩) hitem, hitem]
    rfl
  have hlist : Rlp.is_list raw = true := (Rlp.payload_item_iff.mp hlast).1
  obtain ⟨item5, hitem5⟩ := Rlp.payload_item_of_le hlast (show 5 ≤ 6 by omega)
  obtain ⟨rest5, hwalk5⟩ := Rlp.walk_of_walked_item (Rlp.walked_item_of_payload_item hitem5)
  refine run_read (Rlp.val_at_eq (hpayload (by omega) (by omega))) fun nonce _ => ?_
  refine run_read (Rlp.val_at_eq (hpayload (by omega) (by omega))) fun gas_price _ => ?_
  refine run_read (Rlp.val_at_eq (hpayload (by omega) (by omega))) fun gas _ => ?_
  refine run_read (hpayload (by omega) (by omega)) fun dest _ => ?_
  refine run_lift fun address _ => ?_
  refine run_read (Rlp.val_at_eq (hpayload (by omega) (by omega))) fun value _ => ?_
  refine run_read (Rlp.val_at_eq (hpayload (by omega) (by omega))) fun input _ => ?_
  refine run_lift fun v64 _ => ?_
  -- the reader goes on behind the input
  refine run_read (Rlp.val_at_eq (Rlp.item_at_next hlist hwalk5 (by omega))) fun r hr => ?_
  obtain ⟨item7, hitem7, -⟩ := Rlp.bind_eq_ok.mp hr
  obtain ⟨rest7, hwalk7⟩ := Rlp.walk_of_walked_item hitem7
  exact run_read (Rlp.val_at_eq (Rlp.item_at_next hlist hwalk7 (by omega))) fun s _ => rfl

/-! ## What is read -/

/-- The fields of `t` are read from the items of `raw`, and its chain id
    from `v`. -/
structure Reads (raw : Bytes) (t : TransactionLegacySigned) : Prop where
  nonce : (Rlp.payload_item raw 0 >>= Rlp.as_uint 32) = .ok t.transaction_legacy_unsigned.nonce
  gas_price :
    (Rlp.payload_item raw 1 >>= Rlp.as_uint 32) = .ok t.transaction_legacy_unsigned.gas_price
  gas : (Rlp.payload_item raw 2 >>= Rlp.as_uint 32) = .ok t.transaction_legacy_unsigned.gas
  «to» : ∃ item, Rlp.payload_item raw 3 = .ok item ∧
    (if Rlp.is_empty item then pure none else some <$> Rlp.as_fixed 20 item) =
      Except.ok t.transaction_legacy_unsigned.to
  value : (Rlp.payload_item raw 4 >>= Rlp.as_uint 32) = .ok t.transaction_legacy_unsigned.value
  input : (Rlp.payload_item raw 5 >>= Rlp.decode_value) = .ok t.transaction_legacy_unsigned.input
  v : (Rlp.payload_item raw 6 >>= Rlp.as_uint 32) = .ok t.v
  r : (Rlp.walked_item raw 7 >>= Rlp.as_uint 32) = .ok t.r
  s : (Rlp.walked_item raw 8 >>= Rlp.as_uint 32) = .ok t.s
  v_lt : t.v.toNat < 2 ^ 64
  chain_id : t.transaction_legacy_unsigned.chain_id =
    (extract_chain_id t.v.toNat).map (BitVec.ofNat 256)

theorem as_u64_eq_ok {ε : Type} {v : U256} {n : Nat} :
    as_u64 v = (.ok n : Outcome ε Nat) ↔ v.toNat < 2 ^ 64 ∧ n = v.toNat := by
  unfold as_u64
  by_cases h : v.toNat < 2 ^ 64
  · rw [if_pos h, Outcome.ok.injEq, eq_comm]
    exact (and_iff_right h).symm
  · rw [if_neg h]
    constructor
    · intro hok
      cases hok
    · intro hlt
      exact absurd hlt.1 h

theorem reads_of_decode (h : decode raw = .ok t) : Reads raw t := by
  rw [decode_eq] at h
  simp only [Outcome.bind_eq_ok, Outcome.of_except_eq_ok, as_u64_eq_ok, Outcome.pure_eq,
    Outcome.ok.injEq] at h
  obtain ⟨v, hv, nonce, hnonce, price, hprice, gas, hgas, item, hitem, dest, hdest, value, hvalue,
    input, hinput, v64, ⟨hlt, rfl⟩, r, hr, s, hs, rfl⟩ := h
  exact ⟨hnonce, hprice, hgas, ⟨item, hitem, hdest⟩, hvalue, hinput, hv, hr, hs, hlt, rfl⟩

/-! ## What is accepted -/

/-- The encoded items of a transaction, with `dest` in the place of the
    address. -/
def items (t : TransactionLegacySigned) (dest : List UInt8) : List (List UInt8) :=
  let u := t.transaction_legacy_unsigned
  [encode_value (uint_bytes u.nonce), encode_value (uint_bytes u.gas_price),
    encode_value (uint_bytes u.gas), dest, encode_value (uint_bytes u.value),
    encode_value u.input.data, encode_value (uint_bytes t.v), encode_value (uint_bytes t.r),
    encode_value (uint_bytes t.s)]

/-- An item that stands for an optional address: its encoding or, where
    there is no address, the empty list. -/
def StandsForTo (dest : List UInt8) (a : Option Address) : Prop :=
  dest = encode_value (to_bytes a) ∨ a = none ∧ dest = encode_list []

theorem encode_eq_items (t : TransactionLegacySigned) :
    t.encode = encode_list (t.items (encode_value (to_bytes t.transaction_legacy_unsigned.to))) :=
  rfl

section items
variable {item : Bytes} {at_index : Except DecoderError Bytes} {x : U256} {v : Bytes}
  (hat : at_index = .ok item) (hitem : Rlp.IsItem item)
include hat hitem

theorem item_of_uint (h : (at_index >>= Rlp.as_uint 32) = .ok x) :
    item.data = encode_value (uint_bytes x) := by
  rw [hat] at h
  exact Rlp.encode_value_of_as_uint hitem h

theorem item_of_string (h : (at_index >>= Rlp.decode_value) = .ok v) :
    item.data = encode_value v.data := by
  rw [hat] at h
  exact Rlp.encode_value_of_decode_value hitem h

theorem item_of_to {a : Option Address} (h : ∃ item, at_index = .ok item ∧
      (if Rlp.is_empty item then pure none else some <$> Rlp.as_fixed 20 item) = Except.ok a) :
    StandsForTo item.data a := by
  obtain ⟨item', hitem', h⟩ := h
  obtain rfl := Except.ok.inj (hat.symm.trans hitem')
  by_cases hempty : Rlp.is_empty item = true
  · -- the emptiness is asked of the first byte alone, which a list may have, too
    rw [if_pos hempty] at h
    cases h
    exact (Rlp.data_of_is_empty hitem hempty).imp_right fun hlist => ⟨rfl, hlist⟩
  · rw [if_neg hempty] at h
    cases haddr : Rlp.as_fixed 20 item with
    | error e =>
      rw [haddr] at h
      cases h
    | ok address =>
      rw [haddr] at h
      cases h
      exact Or.inl (Rlp.encode_value_of_as_fixed hitem haddr)

end items

/-- Bytes that start with a list of `n` bytes. The items of the transaction
    stand in a row from the beginning of the list, the first seven of them
    in the list. -/
structure Shape (raw : Bytes) (t : TransactionLegacySigned) (dest : List UInt8) (n : Nat)
    (more : List UInt8) : Prop where
  data : raw.data = Rlp.header 0xc0 n ++ ((t.items dest).flatten ++ more)
  seven_le : ((t.items dest).take 7).flatten.length ≤ n
  le_length : n ≤ ((t.items dest).flatten ++ more).length
  «to» : StandsForTo dest t.transaction_legacy_unsigned.to

/-- **The shape of what is read.** -/
theorem Reads.shape (h : Reads raw t) : ∃ dest n more, Shape raw t dest n more := by
  -- the last item is reached behind the eight others
  obtain ⟨last, hlast, -⟩ := Rlp.bind_eq_ok.mp h.s
  obtain ⟨list, hinfo, hbody⟩ := Rlp.walked_item_iff.mp hlast
  obtain ⟨found, more, hlen, hdata, hfound⟩ := Rlp.item_from_eq_ok hbody
  -- and the seventh of them is in the payload
  obtain ⟨seventh, hseventh, -⟩ := Rlp.bind_eq_ok.mp h.v
  obtain ⟨hlist, payload, hpayload, hfrom⟩ := Rlp.payload_item_iff.mp hseventh
  obtain ⟨hheader, hle, -⟩ := Rlp.header_of_is_list hlist hinfo
  obtain ⟨list', hinfo', rfl⟩ := Rlp.list_payload_iff.mp hpayload
  obtain rfl := Except.ok.inj (hinfo.symm.trans hinfo')
  obtain ⟨seven, rest, hseven, hpart, hinpart⟩ := Rlp.item_from_eq_ok hfrom
  have hwalked {i : Nat} {it : Bytes} (hi : found[i]? = some it) :
      Rlp.walked_item raw i = .ok it ∧ Rlp.IsItem it :=
    ⟨Rlp.walked_item_iff.mpr ⟨list, hinfo, (hfound i it hi).1⟩, (hfound i it hi).2⟩
  have hinlist {i : Nat} (hi : i ≤ 6) {it : Bytes} (hit : found[i]? = some it) :
      Rlp.payload_item raw i = .ok it := by
    rw [← Rlp.walked_item_eq_payload_item hseventh hi]
    exact (hwalked hit).1
  -- in the payload the same seven are found as from the first item on
  have htake : seven = found.take 7 := by
    apply List.ext_getElem
    · rw [List.length_take]
      omega
    · intro i hi hi'
      have hpayloaditem : Rlp.payload_item raw i = .ok seven[i] :=
        Rlp.payload_item_iff.mpr ⟨hlist, _, hpayload,
          (hinpart i _ (List.getElem?_eq_getElem hi)).1⟩
      have hi9 : i < found.length := by omega
      rw [hinlist (by omega) (List.getElem?_eq_getElem hi9)] at hpayloaditem
      rw [List.getElem_take]
      exact (Except.ok.inj hpayloaditem).symm
  match found, hlen with
  | [i0, i1, i2, i3, i4, i5, i6, i7, i8], _ =>
    have hitems : [i0, i1, i2, i3, i4, i5, i6, i7, i8].map ByteVec.data = t.items i3.data := by
      have h0 := item_of_uint (hinlist (i := 0) (by omega) rfl) (hwalked (i := 0) rfl).2 h.nonce
      have h1 := item_of_uint (hinlist (i := 1) (by omega) rfl) (hwalked (i := 1) rfl).2 h.gas_price
      have h2 := item_of_uint (hinlist (i := 2) (by omega) rfl) (hwalked (i := 2) rfl).2 h.gas
      have h4 := item_of_uint (hinlist (i := 4) (by omega) rfl) (hwalked (i := 4) rfl).2 h.value
      have h5 := item_of_string (hinlist (i := 5) (by omega) rfl) (hwalked (i := 5) rfl).2 h.input
      have h6 := item_of_uint (hinlist (i := 6) (by omega) rfl) (hwalked (i := 6) rfl).2 h.v
      have h7 := item_of_uint (hwalked (i := 7) rfl).1 (hwalked (i := 7) rfl).2 h.r
      have h8 := item_of_uint (hwalked (i := 8) rfl).1 (hwalked (i := 8) rfl).2 h.s
      simp only [List.map_cons, List.map_nil, h0, h1, h2, h4, h5, h6, h7, h8, items]
    refine ⟨i3.data, list.value_len, more, ⟨?_, ?_, ?_, ?_⟩⟩
    · rw [← hitems, ← hdata]
      exact hheader
    · -- seven items and some rest are the payload, so they end within the list
      rw [← hitems, ← List.map_take, ← htake]
      have hpartlen := congrArg List.length hpart
      rw [ByteVec.take_data, List.length_take, List.length_append] at hpartlen
      omega
    · rw [← hitems, ← hdata]
      exact hle
    · exact item_of_to (hinlist (i := 3) (by omega) rfl) (hwalked (i := 3) rfl).2 h.to

/-- **The accepted bytes** start with a list, and from its beginning with the
    items of the transaction, in their one encoding each, the empty list in
    the place of an absent address aside. They are the encoding of the
    transaction exactly if the list ends with the ninth item, nothing follows
    it, and the address is a string. -/
theorem decode_accepts (h : decode raw = .ok t) : ∃ dest n more, Shape raw t dest n more ∧
    (t.encode = raw.data ↔ dest = encode_value (to_bytes t.transaction_legacy_unsigned.to) ∧
      n = (t.items dest).flatten.length ∧ more = []) := by
  obtain ⟨dest, n, more, hshape⟩ := (reads_of_decode h).shape
  refine ⟨dest, n, more, hshape, ?_⟩
  have hwritten : (t.items (encode_value (to_bytes
      t.transaction_legacy_unsigned.to))).flatten.length < 2 ^ 64 := t.rlp_strings_length_lt.2
  have hn : n < 2 ^ 64 := by
    have hlt := raw.length_lt
    rw [hshape.data, List.length_append] at hlt
    have := hshape.le_length
    omega
  rw [encode_eq_items, hshape.data, encode_list]
  constructor
  · intro heq
    obtain ⟨hlen, hflatten⟩ := Rlp.header_append_inj (Or.inr rfl) hwritten hn heq
    rcases hshape.to with rfl | ⟨hnone, rfl⟩
    · -- the items are the same, so nothing is left for `more`
      rw [List.self_eq_append_right] at hflatten
      exact ⟨rfl, hlen.symm, hflatten⟩
    · -- the empty list is as long as the empty string, but another byte
      rw [hnone] at hflatten
      simp only [items, List.flatten_cons, List.append_assoc, List.append_cancel_left_eq]
        at hflatten
      have hbyte := congrArg List.head? hflatten
      simp [encode_value, to_bytes, encode_list, Rlp.header, Rlp.is_own_encoding] at hbyte
  · rintro ⟨rfl, rfl, rfl⟩
    rw [List.append_nil]

/-- Nine empty strings, the last two of them behind the list. -/
theorem decode_accepts_sample :
    let raw : Bytes := ⟨0xc7 :: List.replicate 9 0x80, by decide⟩
    ∃ t, decode raw = .ok t ∧ ∃ dest n more, Shape raw t dest n more ∧
      (t.encode = raw.data ↔ dest = encode_value (to_bytes t.transaction_legacy_unsigned.to) ∧
        n = (t.items dest).flatten.length ∧ more = []) := by
  intro raw
  have hdecode : decode raw =
      .ok ⟨⟨none, 0, 0, ⟨[], by decide⟩, 0, none, .mk, 0⟩, 0, 0, 0⟩ := by decide +kernel
  exact ⟨_, hdecode, decode_accepts hdecode⟩

/-- The same transaction from five byte strings: as it is encoded, with a
    byte behind the list, with a tenth item, with an empty list for the
    absent address, and with the last two items behind the list. -/
theorem decode_not_injective :
    let encoded : Bytes := ⟨0xc9 :: List.replicate 9 0x80, by decide⟩
    let trailing : Bytes := ⟨0xc9 :: (List.replicate 9 0x80 ++ [0]), by decide⟩
    let tenth : Bytes := ⟨0xca :: List.replicate 10 0x80, by decide⟩
    let empty_list : Bytes := ⟨[0xc9, 0x80, 0x80, 0x80, 0xc0, 0x80, 0x80, 0x80, 0x80, 0x80],
      by decide⟩
    let behind : Bytes := ⟨0xc7 :: List.replicate 9 0x80, by decide⟩
    ∃ t, t.encode = encoded.data ∧
      ∀ raw ∈ [trailing, tenth, empty_list, behind],
        decode raw = .ok t ∧ t.encode ≠ raw.data := by
  refine ⟨⟨⟨none, 0, 0, ⟨[], by decide⟩, 0, none, .mk, 0⟩, 0, 0, 0⟩, by decide +kernel,
    by decide +kernel⟩

end TransactionLegacySigned

end EthRpc
