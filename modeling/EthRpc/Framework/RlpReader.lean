import EthRpc.Framework.Rlp

/-! # What an RLP reader accepts

    From what is read, the bytes can be told. A string has one encoding
    only: a header that is accepted is the one that is written for its
    payload, and a byte that is its own encoding is refused with a header.

    * `encode_value_of_decode_value`, `encode_value_of_as_uint`,
      `encode_value_of_as_fixed`: an item that is read as a string, an
      integer or a string of fixed length is the encoding of what was read.
    * `item_from_eq_ok`: an item that is found has items in front of it. It
      says nothing about what is behind the item.
    * `item_at_first`, `item_at_next`: the reader with its cache. A first
      search is in the payload of the list; one that goes on from the cached
      item reads what follows, wherever the list ends.

    The emptiness of an item is a weaker thing to ask: the empty string and
    the empty list are both empty.
-/

namespace Rlp

section accepted
variable {b k : Nat} {r item : ByteVec b} {info : PayloadInfo}

theorem decode_usize_eq_ok {bytes : List UInt8} {len : Nat} (h : decode_usize bytes = .ok len) :
    bytes.length ≤ 8 ∧ bytes.head? ≠ some 0 ∧ len = of_be bytes := by
  unfold decode_usize at h
  split at h
  · cases h
  · next hlen =>
    split at h
    · cases h
    · next hhead =>
      cases h
      exact ⟨by omega, hhead, rfl⟩

/-- Bytes without a leading zero are a numeral. -/
theorem be_bytes_of_be {bytes : List UInt8} (h : bytes.head? ≠ some 0) :
    be_bytes (of_be bytes) = bytes := by
  cases bytes with
  | nil => simp
  | cons d ds =>
    apply be_bytes_of_be_cons
    intro hd
    exact h (by rw [hd]; rfl)

/-- A length of a length that is read is the numeral of the length. -/
theorem calculate_payload_info_eq_ok {l : UInt8} {rest : List UInt8}
    (h : calculate_payload_info (l :: rest) k = .ok info) :
    info.header_len = 1 + k ∧ 55 < info.value_len ∧ info.value_len < 2 ^ 64 ∧ k ≤ rest.length ∧
      be_bytes info.value_len = rest.take k := by
  unfold calculate_payload_info at h
  rw [List.drop_succ_cons, List.drop_zero] at h
  -- the checks in their order: a leading zero, the bytes that are there, the
  -- number that is read, and whether it would have fitted into the first byte
  cases rest with
  | nil => cases h
  | cons d ds =>
    simp only at h
    split at h
    · cases h
    · split at h
      · cases h
      · next hlen =>
        split at h
        · cases h
        · next value_len hread =>
          obtain ⟨hle, hhead, rfl⟩ := decode_usize_eq_ok hread
          split at h
          · cases h
          · next hlong =>
            cases h
            have hlt : of_be ((d :: ds).take k) < 2 ^ 64 := by
              apply lt_of_lt_of_le (of_be_lt _)
              calc 256 ^ ((d :: ds).take k).length ≤ 256 ^ 8 := Nat.pow_le_pow_right (by omega) hle
                _ = 2 ^ 64 := by norm_num
            refine ⟨rfl, by simpa using hlong, hlt, ?_, be_bytes_of_be hhead⟩
            simp only [List.length_cons] at hlen ⊢
            omega

theorem byte_ofNat_eq {l : UInt8} {n : Nat} (h : l.toNat = n) : UInt8.ofNat n = l := by
  rw [← h, UInt8.ofNat_toNat]

/-- The header in front of `rest` is the one that is written for a payload of
    this length. -/
def HeaderRead (bytes : List UInt8) (offset : Nat) (info : PayloadInfo) : Prop :=
  bytes.take info.header_len = header offset info.value_len ∧
    info.header_len = (header offset info.value_len).length ∧ info.value_len < 2 ^ 64

/-- One byte tells the length of a short payload. -/
theorem headerRead_short {l : UInt8} {rest : List UInt8} {offset : Nat} (hlo : offset ≤ l.toNat)
    (hhi : l.toNat ≤ offset + 55) : HeaderRead (l :: rest) offset ⟨1, l.toNat - offset⟩ := by
  have hlt := l.toNat_lt
  have hfirst : UInt8.ofNat (offset + (l.toNat - offset)) = l := byte_ofNat_eq (by omega)
  have hwritten : header offset (l.toNat - offset) = [l] := by
    unfold header
    rw [if_pos (by omega), hfirst]
  unfold HeaderRead
  simp only [hwritten]
  exact ⟨rfl, rfl, by omega⟩

/-- The length of the length of a long payload is told by the first byte. -/
theorem headerRead_long {l : UInt8} {rest : List UInt8} {offset : Nat} (hlo : offset + 55 < l.toNat)
    (h : calculate_payload_info (l :: rest) (l.toNat - (offset + 55)) = .ok info) :
    HeaderRead (l :: rest) offset info := by
  obtain ⟨hheader, hvalue, hlt, hle, hbytes⟩ := calculate_payload_info_eq_ok h
  have hlen : (be_bytes info.value_len).length = l.toNat - (offset + 55) := by
    rw [hbytes, List.length_take]
    omega
  have hfirst : UInt8.ofNat (offset + 55 + (be_bytes info.value_len).length) = l :=
    byte_ofNat_eq (by omega)
  have hwritten : header offset info.value_len = l :: be_bytes info.value_len := by
    unfold header
    rw [if_neg (by omega), hfirst]
  unfold HeaderRead
  rw [hwritten, hheader, Nat.add_comm, List.take_succ_cons, hbytes]
  refine ⟨rfl, ?_, hlt⟩
  rw [List.length_cons, List.length_take]
  omega

/-- A header that is read is the one that is written, of a string or of a
    list. -/
theorem headerRead_of_from_bytes {l : UInt8} {rest : List UInt8} (hl : 0x7f < l.toNat)
    (h : PayloadInfo.from_bytes (l :: rest) = .ok info) :
    HeaderRead (l :: rest) (if l.toNat ≤ 0xbf then 0x80 else 0xc0) info := by
  have hlt := l.toNat_lt
  unfold PayloadInfo.from_bytes at h
  simp only at h
  rw [if_neg (by omega)] at h
  -- `0x80` to `0xb7` and `0xc0` to `0xf7` have the length in them
  by_cases hstring : l.toNat ≤ 0xbf
  · rw [if_pos hstring]
    by_cases hone : l.toNat ≤ 0xb7
    · rw [if_pos hone] at h
      cases h
      exact headerRead_short (by omega) (by omega)
    · rw [if_neg hone, if_pos hstring] at h
      exact headerRead_long (by omega) h
  · rw [if_neg hstring]
    rw [if_neg (by omega), if_neg hstring] at h
    by_cases hone : l.toNat ≤ 0xf7
    · rw [if_pos hone] at h
      cases h
      exact headerRead_short (by omega) (by omega)
    · rw [if_neg hone] at h
      exact headerRead_long (by omega) h

/-- **What is accepted at the front of some bytes**: a byte that is its own
    encoding, or a header as it is written, with a payload as long as it says. -/
theorem payload_info_eq_ok {bytes : List UInt8} (h : payload_info bytes = .ok info) :
    (∃ l rest, bytes = l :: rest ∧ l.toNat ≤ 0x7f ∧ info = ⟨0, 1⟩) ∨
    ∃ offset payload rest, (offset = 0x80 ∨ offset = 0xc0) ∧ payload.length < 2 ^ 64 ∧
      bytes = header offset payload.length ++ (payload ++ rest) ∧
      info = ⟨(header offset payload.length).length, payload.length⟩ := by
  unfold payload_info at h
  split at h
  · cases h
  · next item hitem =>
    split at h
    · next htotal =>
      cases h
      cases bytes with
      | nil => cases hitem
      | cons l rest =>
        by_cases hl : l.toNat ≤ 0x7f
        · refine Or.inl ⟨l, rest, rfl, hl, ?_⟩
          unfold PayloadInfo.from_bytes at hitem
          simp only [if_pos hl] at hitem
          cases hitem
          rfl
        · obtain ⟨htake, hheader, hlt⟩ := headerRead_of_from_bytes (by omega) hitem
          unfold PayloadInfo.total at htotal
          -- the payload is cut out where the header says, and it is all there
          have hpayload : (((l :: rest).drop info.header_len).take info.value_len).length =
              info.value_len := by
            rw [List.length_take, List.length_drop]
            omega
          refine Or.inr ⟨if l.toNat ≤ 0xbf then 0x80 else 0xc0,
            ((l :: rest).drop info.header_len).take info.value_len,
            ((l :: rest).drop info.header_len).drop info.value_len, ?_, ?_, ?_, ?_⟩
          · split
            · exact Or.inl rfl
            · exact Or.inr rfl
          · rw [hpayload]
            exact hlt
          · rw [hpayload, ← htake, List.take_append_drop, List.take_append_drop]
          · rw [hpayload, ← hheader]
    · cases h

/-- The first byte of a header tells a list from a string. -/
theorem header_cons {offset len : Nat} (hoff : offset = 0x80 ∨ offset = 0xc0)
    (hlen : len < 2 ^ 64) :
    ∃ l ls, header offset len = l :: ls ∧ offset ≤ l.toNat ∧ l.toNat < offset + 64 := by
  unfold header
  by_cases hshort : len ≤ 55
  · rw [if_pos hshort]
    refine ⟨_, [], rfl, ?_⟩
    rw [UInt8.toNat_ofNat']
    omega
  · rw [if_neg hshort]
    obtain ⟨-, hle⟩ := be_bytes_length_bounds (by omega) hlen
    refine ⟨_, _, rfl, ?_⟩
    rw [UInt8.toNat_ofNat']
    omega

/-- The bytes are those of one item, no more and no less. -/
def IsItem (r : ByteVec b) : Prop :=
  ∃ info, payload_info r.data = .ok info ∧ info.total = r.data.length

/-- One item is cut off in front. -/
theorem isItem_take (h : payload_info r.data = .ok info) : IsItem (r.take info.total) := by
  rcases payload_info_eq_ok h with ⟨l, rest, hdata, hl, rfl⟩ |
    ⟨offset, payload, rest, hoff, hlt, hdata, rfl⟩
  · refine ⟨⟨0, 1⟩, ?_, ?_⟩
    · rw [ByteVec.take_data, hdata]
      simp [payload_info, PayloadInfo.from_bytes, PayloadInfo.total, hl]
    · rw [ByteVec.take_data, hdata]
      rfl
  · -- cut off behind the payload the same header is read
    have htake : (r.take (PayloadInfo.total
        ⟨(header offset payload.length).length, payload.length⟩)).data =
        header offset payload.length ++ payload := by
      rw [ByteVec.take_data, hdata, ← List.append_assoc]
      exact List.take_left' (by rw [List.length_append]; rfl)
    have hlen : (header offset payload.length ++ payload).length = PayloadInfo.total
        ⟨(header offset payload.length).length, payload.length⟩ := by
      rw [List.length_append]
      rfl
    refine ⟨_, ?_, by rw [htake, hlen]⟩
    unfold payload_info
    rw [htake, from_bytes_header hoff hlt]
    simp only [hlen]
    rw [if_pos le_rfl]

theorem singleton_of_is_own_encoding {bytes : List UInt8} (h : is_own_encoding bytes = true) :
    ∃ x, bytes = [x] ∧ x.toNat < 0x80 := by
  unfold is_own_encoding at h
  split at h
  · next x => exact ⟨x, rfl, by simpa using h⟩
  · cases h

/-- **Strings have one encoding**: an item that is read as a string is that
    string, encoded. -/
theorem encode_value_of_decode_value {w : ByteVec b} (hitem : IsItem item)
    (h : decode_value item = .ok w) : item.data = encode_value w.data := by
  obtain ⟨info, hinfo, htotal⟩ := hitem
  rcases payload_info_eq_ok hinfo with ⟨l, rest, hdata, hl, rfl⟩ |
    ⟨offset, payload, rest, hoff, hlt, hdata, rfl⟩
  · -- a byte that is its own encoding
    have hrest : rest = [] := by
      rw [hdata] at htotal
      simp only [PayloadInfo.total, List.length_cons] at htotal
      exact List.length_eq_zero_iff.mp (by omega)
    subst hrest
    have hown : is_own_encoding [l] = true := by
      simp only [is_own_encoding, decide_eq_true_eq]
      omega
    unfold decode_value at h
    rw [hdata] at h
    simp only [if_pos hl] at h
    cases h
    rw [ByteVec.take_data, hdata, encode_value, List.take_of_length_le (by simp), if_pos hown]
  · have hrest : rest = [] := by
      rw [hdata] at htotal
      simp only [PayloadInfo.total, List.length_append] at htotal
      exact List.length_eq_zero_iff.mp (by omega)
    subst hrest
    rw [List.append_nil] at hdata
    rcases hoff with rfl | rfl
    · by_cases hown : is_own_encoding payload = true
      · -- refused: a header in front of a byte that is its own encoding
        obtain ⟨x, rfl, hx⟩ := singleton_of_is_own_encoding hown
        unfold decode_value at h
        rw [hdata] at h
        simp [header, is_own_encoding, hx] at h
      · have hvalue : item.data = encode_value payload := by
          rw [hdata, encode_value, if_neg hown]
        obtain ⟨w', hw', hdata'⟩ := decode_value_encode_value hlt hvalue
        rw [h] at hw'
        cases hw'
        rw [hvalue, hdata']
    · -- a list is no string
      obtain ⟨l, ls, hheader, hlo, -⟩ := header_cons (Or.inr rfl) hlt
      unfold decode_value at h
      rw [hdata, hheader] at h
      simp only [List.cons_append] at h
      rw [if_neg (by omega), if_neg (by omega), if_neg (by omega)] at h
      cases h

/-- An item that is read as an integer is its numeral. -/
theorem encode_value_of_as_uint {x : BitVec (8 * k)} (hitem : IsItem item)
    (h : as_uint k item = .ok x) : item.data = encode_value (be_bytes x.toNat) := by
  unfold as_uint at h
  cases hw : decode_value item with
  | error e =>
    rw [hw] at h
    cases h
  | ok w =>
    rw [hw] at h
    simp only at h
    split at h
    · cases h
    · next hhead =>
      split at h
      · next hle =>
        cases h
        -- at most `k` bytes without a leading zero: the numeral of their value
        have hlt : of_be w.data < 2 ^ (8 * k) := by
          apply lt_of_lt_of_le (of_be_lt _)
          calc 256 ^ w.data.length ≤ 256 ^ k := Nat.pow_le_pow_right (by omega) hle
            _ = 2 ^ (8 * k) := by rw [show 256 = 2 ^ 8 by rfl, ← pow_mul]
        rw [encode_value_of_decode_value hitem hw, BitVec.toNat_ofNat, Nat.mod_eq_of_lt hlt,
          be_bytes_of_be hhead]
      · cases h

/-- An item that is read as a string of a fixed length is that string. -/
theorem encode_value_of_as_fixed {v : List.Vector UInt8 k} (hitem : IsItem item)
    (h : as_fixed k item = .ok v) : item.data = encode_value v.toList := by
  unfold as_fixed at h
  cases hw : decode_value item with
  | error e =>
    rw [hw] at h
    cases h
  | ok w =>
    rw [hw] at h
    simp only at h
    split at h
    · cases h
      exact encode_value_of_decode_value hitem hw
    · split at h
      · cases h
      · cases h

/-- An empty item is the empty string or the empty list. -/
theorem data_of_is_empty (hitem : IsItem item) (h : is_empty item = true) :
    item.data = encode_value [] ∨ item.data = encode_list [] := by
  obtain ⟨info, hinfo, htotal⟩ := hitem
  unfold is_empty at h
  cases hdata : item.data with
  | nil =>
    rw [hdata] at h
    cases h
  | cons l rest =>
    rw [hdata] at h hinfo htotal
    simp only [decide_eq_true_eq] at h
    -- either byte announces a payload of no bytes, so the item ends with it
    have hempty : info = ⟨1, 0⟩ := by
      rcases h with h | h
      · simp [payload_info, PayloadInfo.from_bytes, h, PayloadInfo.total] at hinfo
        exact hinfo.symm
      · simp [payload_info, PayloadInfo.from_bytes, h, PayloadInfo.total] at hinfo
        exact hinfo.symm
    subst hempty
    have hrest : rest = [] := by
      simp only [PayloadInfo.total, List.length_cons] at htotal
      exact List.length_eq_zero_iff.mp (by omega)
    subst hrest
    rcases h with h | h
    · right
      show [l] = [UInt8.ofNat 0xc0]
      rw [byte_ofNat_eq h]
    · left
      show [l] = [UInt8.ofNat 0x80]
      rw [byte_ofNat_eq h]

/-- The items that are skipped, and the one behind them. -/
theorem consume_items_eq_ok {n : Nat} {rest : ByteVec b} (h : consume_items r n = .ok rest)
    (hinfo : payload_info rest.data = .ok info) :
    ∃ (items : List (ByteVec b)) (more : List UInt8), items.length = n + 1 ∧
      r.data = (items.map ByteVec.data).flatten ++ more ∧
      ∀ i it, items[i]? = some it → ∃ rest' info', consume_items r i = .ok rest' ∧
        payload_info rest'.data = .ok info' ∧ it = rest'.take info'.total := by
  -- item by item, from the front
  induction n generalizing r with
  | zero =>
    have hr : r = rest := by
      cases h
      rfl
    subst hr
    refine ⟨[r.take info.total], r.data.drop info.total, rfl, ?_, ?_⟩
    · simp
    · intro i it hi
      cases i with
      | zero =>
        cases hi
        exact ⟨r, info, rfl, hinfo, rfl⟩
      | succ i => simp at hi
  | succ n ih =>
    unfold consume_items at h
    cases hfirst : payload_info r.data with
    | error e =>
      rw [hfirst] at h
      cases h
    | ok first =>
      rw [hfirst] at h
      -- the first item, and then those that are found in what is left
      obtain ⟨items, more, hlen, hdata, hitems⟩ := ih h
      refine ⟨r.take first.total :: items, more, by rw [List.length_cons, hlen], ?_, ?_⟩
      · rw [List.map_cons, List.flatten_cons, List.append_assoc, ← hdata, ByteVec.take_data,
          ByteVec.drop_data, List.take_append_drop]
      · intro i it hi
        cases i with
        | zero =>
          cases hi
          exact ⟨r, first, rfl, hfirst, rfl⟩
        | succ i =>
          obtain ⟨rest', info', hconsume, hrest⟩ := hitems i it hi
          refine ⟨rest', info', ?_, hrest⟩
          unfold consume_items
          rw [hfirst]
          exact hconsume

/-- The header of a list is the one that is written for its payload. -/
theorem header_of_is_list (hlist : is_list r = true) (h : payload_info r.data = .ok info) :
    r.data = header 0xc0 info.value_len ++ (r.drop info.header_len).data ∧
      info.value_len ≤ (r.drop info.header_len).data.length ∧ info.value_len < 2 ^ 64 := by
  unfold is_list at hlist
  rcases payload_info_eq_ok h with ⟨l, rest, hr, hl, rfl⟩ | ⟨offset, p, tail, hoff, hlt, hr, rfl⟩
  · -- a byte that is its own encoding is no list
    rw [hr] at hlist
    simp only [decide_eq_true_eq] at hlist
    omega
  · obtain ⟨l, ls, hheader, -, hhi⟩ := header_cons hoff hlt
    rw [hr, hheader] at hlist
    simp only [List.cons_append, decide_eq_true_eq] at hlist
    have hoff : offset = 0xc0 := by omega
    subst hoff
    have hdrop : (r.drop (header 0xc0 p.length).length).data = p ++ tail := by
      rw [ByteVec.drop_data, hr, List.drop_left]
    rw [hdrop]
    exact ⟨hr, by simp, hlt⟩

/-- The steps of a reader that succeeds. -/
theorem bind_eq_ok {α β : Type} {x : Except DecoderError α} {f : α → Except DecoderError β}
    {v : β} : x >>= f = .ok v ↔ ∃ a, x = .ok a ∧ f a = .ok v := by
  cases x with
  | error e => simp [bind, Except.bind]
  | ok a => simp [bind, Except.bind]

/-- An item is found behind those that are skipped. -/
theorem item_from_iff {n : Nat} : item_from r n = .ok item ↔ ∃ rest info,
    consume_items r n = .ok rest ∧ payload_info rest.data = .ok info ∧
      item = rest.take info.total := by
  unfold item_from
  simp only [bind_eq_ok]
  constructor
  · intro h
    obtain ⟨rest, hrest, info, hinfo, heq⟩ := h
    cases heq
    exact ⟨rest, info, hrest, hinfo, rfl⟩
  · intro h
    obtain ⟨rest, info, hrest, hinfo, rfl⟩ := h
    exact ⟨rest, hrest, info, hinfo, rfl⟩

theorem payload_item_iff {n : Nat} :
    payload_item r n = .ok item ↔ is_list r = true ∧ ∃ payload,
      list_payload r = .ok payload ∧ item_from payload n = .ok item := by
  unfold payload_item
  by_cases hlist : is_list r = true
  · rw [if_pos hlist, bind_eq_ok]
    exact (and_iff_right hlist).symm
  · rw [if_neg hlist]
    simp [hlist]

theorem walked_item_iff {n : Nat} :
    walked_item r n = .ok item ↔ ∃ list, payload_info r.data = .ok list ∧
      item_from (r.drop list.header_len) n = .ok item := by
  unfold walked_item
  exact bind_eq_ok

/-- **Where an item is found**: the bytes start with so many items, each found
    at its index. Nothing is said about what is behind the last of them. -/
theorem item_from_eq_ok {n : Nat} (h : item_from r n = .ok item) :
    ∃ (items : List (ByteVec b)) (more : List UInt8), items.length = n + 1 ∧
      r.data = (items.map ByteVec.data).flatten ++ more ∧
      ∀ i it, items[i]? = some it → item_from r i = .ok it ∧ IsItem it := by
  obtain ⟨rest, found, hconsume, hfound, -⟩ := item_from_iff.mp h
  obtain ⟨items, more, hlen, hdata, hitems⟩ := consume_items_eq_ok hconsume hfound
  refine ⟨items, more, hlen, hdata, ?_⟩
  intro i it hi
  obtain ⟨rest', info', hconsume', hinfo', rfl⟩ := hitems i it hi
  exact ⟨item_from_iff.mpr ⟨rest', info', hconsume', hinfo', rfl⟩, isItem_take hinfo'⟩

/-- In front of an item there are items. -/
theorem item_from_of_le {i n : Nat} (h : item_from r n = .ok item) (hi : i ≤ n) :
    ∃ it, item_from r i = .ok it := by
  obtain ⟨items, -, hlen, -, hitems⟩ := item_from_eq_ok h
  have hlt : i < items.length := by omega
  exact ⟨items[i], (hitems i _ (List.getElem?_eq_getElem hlt)).1⟩

/-! ## Items of the payload, and items behind it -/

/-- What is read at the front of some bytes is read with anything behind. -/
theorem payload_info_append {bytes : List UInt8} (h : payload_info bytes = .ok info)
    (tail : List UInt8) : payload_info (bytes ++ tail) = .ok info := by
  rcases payload_info_eq_ok h with ⟨l, rest, rfl, hl, rfl⟩ |
    ⟨offset, payload, rest, hoff, hlt, rfl, rfl⟩
  · simp [payload_info, PayloadInfo.from_bytes, PayloadInfo.total, hl]
  · unfold payload_info
    rw [List.append_assoc, from_bytes_header hoff hlt]
    simp only [PayloadInfo.total, List.length_append]
    rw [if_pos (by omega)]

theorem total_le_of_payload_info {bytes : List UInt8} (h : payload_info bytes = .ok info) :
    info.total ≤ bytes.length := by
  unfold payload_info at h
  split at h
  · cases h
  · split at h
    · next htotal =>
      cases h
      exact htotal
    · cases h

section append
variable {p : ByteVec b} {tail : List UInt8} (hr : r.data = p.data ++ tail)
include hr

theorem consume_items_append {n : Nat} {rest : ByteVec b} (h : consume_items p n = .ok rest) :
    ∃ rest', consume_items r n = .ok rest' ∧ rest'.data = rest.data ++ tail := by
  induction n generalizing p r with
  | zero =>
    cases h
    exact ⟨r, rfl, hr⟩
  | succ n ih =>
    obtain ⟨first, hfirst, h⟩ := bind_eq_ok.mp h
    -- an item that is cut off ends in front of the tail
    have hdrop : (r.drop first.total).data = (p.drop first.total).data ++ tail := by
      rw [ByteVec.drop_data, ByteVec.drop_data, hr,
        List.drop_append_of_le_length (total_le_of_payload_info hfirst)]
    obtain ⟨rest', hrest, hdata⟩ := ih hdrop h
    refine ⟨rest', bind_eq_ok.mpr ⟨first, ?_, hrest⟩, hdata⟩
    rw [hr]
    exact payload_info_append hfirst tail

/-- An item that is found is found with anything behind. -/
theorem item_from_append {n : Nat} (h : item_from p n = .ok item) : item_from r n = .ok item := by
  obtain ⟨rest, info, hconsume, hinfo, rfl⟩ := item_from_iff.mp h
  obtain ⟨rest', hconsume', hdata⟩ := consume_items_append hr hconsume
  refine item_from_iff.mpr ⟨rest', info, hconsume', ?_, ?_⟩
  · rw [hdata]
    exact payload_info_append hinfo tail
  · apply ByteVec.ext
    rw [ByteVec.take_data, ByteVec.take_data, hdata,
      List.take_append_of_le_length (total_le_of_payload_info hinfo)]

end append

/-- The payload, and what follows the list. -/
theorem list_payload_iff {payload : ByteVec b} : list_payload r = .ok payload ↔
    ∃ list, payload_info r.data = .ok list ∧
      payload = (r.drop list.header_len).take list.value_len := by
  unfold list_payload
  rw [bind_eq_ok]
  constructor
  · rintro ⟨list, hlist, heq⟩
    cases heq
    exact ⟨list, hlist, rfl⟩
  · rintro ⟨list, hlist, rfl⟩
    exact ⟨list, hlist, rfl⟩

/-- An item of the payload is reached from the first item, too. -/
theorem walked_item_of_payload_item {n : Nat} (h : payload_item r n = .ok item) :
    walked_item r n = .ok item := by
  obtain ⟨-, payload, hpayload, hitem⟩ := payload_item_iff.mp h
  obtain ⟨list, hlist, rfl⟩ := list_payload_iff.mp hpayload
  refine walked_item_iff.mpr ⟨list, hlist, ?_⟩
  have hsplit : (r.drop list.header_len).data =
      ((r.drop list.header_len).take list.value_len).data ++
        (r.drop list.header_len).data.drop list.value_len := (List.take_append_drop ..).symm
  exact item_from_append hsplit hitem

theorem payload_item_of_le {i n : Nat} (h : payload_item r n = .ok item) (hi : i ≤ n) :
    ∃ it, payload_item r i = .ok it := by
  obtain ⟨hlist, payload, hpayload, hitem⟩ := payload_item_iff.mp h
  obtain ⟨it, hit⟩ := item_from_of_le hitem hi
  exact ⟨it, payload_item_iff.mpr ⟨hlist, payload, hpayload, hit⟩⟩

/-- **The cache does not matter** for the items in front of one that was found
    in the payload. -/
theorem walked_item_eq_payload_item {i n : Nat} (h : payload_item r n = .ok item) (hi : i ≤ n) :
    walked_item r i = payload_item r i := by
  obtain ⟨it, hit⟩ := payload_item_of_le h hi
  rw [hit]
  exact walked_item_of_payload_item hit

/-! ## The cache -/

theorem consume_items_add (r : ByteVec b) (i n : Nat) :
    consume_items r (i + n) = consume_items r i >>= fun rest => consume_items rest n := by
  induction i generalizing r with
  | zero =>
    rw [Nat.zero_add]
    rfl
  | succ i ih =>
    rw [Nat.succ_add]
    show (payload_info r.data >>= fun item => consume_items (r.drop item.total) (i + n)) =
      (payload_info r.data >>= fun item => consume_items (r.drop item.total) i) >>= _
    simp only [ih, bind_assoc]

/-- What is left is the end of the bytes. -/
theorem consume_items_suffix {n : Nat} {rest : ByteVec b} (h : consume_items r n = .ok rest) :
    ∃ front, r.data = front ++ rest.data := by
  induction n generalizing r with
  | zero =>
    cases h
    exact ⟨[], rfl⟩
  | succ n ih =>
    obtain ⟨first, -, h⟩ := bind_eq_ok.mp h
    obtain ⟨front, hfront⟩ := ih h
    refine ⟨r.data.take first.total ++ front, ?_⟩
    rw [List.append_assoc, ← hfront, ByteVec.drop_data, List.take_append_drop]

/-- What follows the first `i` items, wherever the list ends. -/
def walk (r : ByteVec b) (i : Nat) : Except DecoderError (ByteVec b) := do
  let list ← payload_info r.data
  consume_items (r.drop list.header_len) i

/-- Where the item at an index starts. -/
def offset (r : ByteVec b) (i : Nat) : Nat :=
  match walk r i with
  | .ok rest => r.data.length - rest.data.length
  | .error _ => 0

theorem walked_item_eq_walk (r : ByteVec b) (i : Nat) : walked_item r i = (do
    let rest ← walk r i
    let found ← payload_info rest.data
    return rest.take found.total) := by
  unfold walked_item walk item_from
  rw [bind_assoc]

theorem walk_suffix {i : Nat} {rest : ByteVec b} (h : walk r i = .ok rest) :
    ∃ front, r.data = front ++ rest.data ∧ offset r i = front.length := by
  have hoffset : offset r i = r.data.length - rest.data.length := by
    unfold offset
    rw [h]
  obtain ⟨list, -, hconsume⟩ := bind_eq_ok.mp h
  obtain ⟨front, hfront⟩ := consume_items_suffix hconsume
  -- in front are the header of the list and the items that are skipped
  refine ⟨r.data.take list.header_len ++ front, ?_, ?_⟩
  · rw [List.append_assoc, ← hfront, ByteVec.drop_data, List.take_append_drop]
  · have hlen := congrArg List.length hfront
    rw [ByteVec.drop_data, List.length_drop, List.length_append] at hlen
    rw [hoffset, List.length_append, List.length_take]
    omega

/-- **The first search**, and one for an item in front of the last one, is in
    the payload. -/
theorem item_at_first {cache : Option OffsetCache} {i : Nat}
    (hcache : cache.filter (fun cache => cache.index ≤ i) = none) :
    item_at r i cache = (payload_item r i).map fun item => (item, some ⟨i, offset r i⟩) := by
  unfold item_at payload_item search_from
  rw [hcache]
  by_cases hlist : is_list r = true
  · rw [if_pos hlist, if_pos hlist]
    unfold list_payload
    cases hinfo : payload_info r.data with
    | error e => rfl
    | ok list =>
      have htotal := total_le_of_payload_info hinfo
      unfold PayloadInfo.total at htotal
      show (consume_items ((r.drop list.header_len).take list.value_len) i >>= _) =
        Except.map _ (item_from ((r.drop list.header_len).take list.value_len) i)
      unfold item_from
      cases hconsume : consume_items ((r.drop list.header_len).take list.value_len) i with
      | error e => rfl
      | ok rest =>
        -- the payload is followed by what follows the list
        have hsplit : (r.drop list.header_len).data =
            ((r.drop list.header_len).take list.value_len).data ++
              (r.drop list.header_len).data.drop list.value_len := (List.take_append_drop ..).symm
        obtain ⟨rest', hrest', hdata⟩ := consume_items_append hsplit hconsume
        have hwalk : walk r i = .ok rest' := bind_eq_ok.mpr ⟨list, hinfo, hrest'⟩
        -- the same offset is counted in the payload and in all the bytes
        have hoffset : list.header_len +
            (((r.drop list.header_len).take list.value_len).data.length - rest.data.length) =
              offset r i := by
          obtain ⟨front, hfront⟩ := consume_items_suffix hconsume
          have hlen := congrArg List.length hfront
          have hlen' := congrArg List.length hdata
          unfold offset
          rw [hwalk]
          simp only [ByteVec.take_data, ByteVec.drop_data, List.length_append, List.length_take,
            List.length_drop] at hlen hlen' ⊢
          omega
        simp only [bind, Except.bind, hoffset]
        cases payload_info rest.data with
        | error e => rfl
        | ok found => rfl
  · rw [if_neg hlist, if_neg hlist]
    rfl

/-- **A search that goes on** is in all the bytes, not only in the payload. -/
theorem item_at_next {i j : Nat} {rest : ByteVec b} (hlist : is_list r = true)
    (hwalk : walk r i = .ok rest) (hle : i ≤ j) :
    item_at r j (some ⟨i, offset r i⟩) =
      (walked_item r j).map fun item => (item, some ⟨j, offset r j⟩) := by
  obtain ⟨front, hfront, hoffset⟩ := walk_suffix hwalk
  -- the cached offset leads to where the walk has stopped
  have hconsume : consume r (offset r i) = .ok rest := by
    have hdrop : r.drop (offset r i) = rest := by
      apply ByteVec.ext
      rw [ByteVec.drop_data, hoffset, hfront, List.drop_left]
    unfold consume
    rw [if_pos (by rw [hoffset, hfront, List.length_append]; omega), hdrop]
  -- the walk is continued
  have hcontinue : walk r j = consume_items rest (j - i) := by
    obtain ⟨list, hinfo, hrest⟩ := bind_eq_ok.mp hwalk
    rw [walk, hinfo, ← Nat.add_sub_cancel' hle]
    show consume_items (r.drop list.header_len) (i + (j - i)) = _
    rw [consume_items_add, hrest, Nat.add_sub_cancel' hle]
    rfl
  unfold item_at search_from
  rw [if_pos hlist, Option.filter_some_pos (by simpa using hle), walked_item_eq_walk, hcontinue]
  simp only [hconsume]
  show (consume_items rest (j - i) >>= _) = Except.map _ (consume_items rest (j - i) >>= _)
  cases hrest : consume_items rest (j - i) with
  | error e => rfl
  | ok rest' =>
    have hoffset' : offset r i + (rest.data.length - rest'.data.length) = offset r j := by
      obtain ⟨front', hfront'⟩ := consume_items_suffix hrest
      have hlen := congrArg List.length hfront
      have hlen' := congrArg List.length hfront'
      unfold offset
      rw [hwalk, hcontinue, hrest]
      simp only [List.length_append] at hlen hlen' ⊢
      omega
    simp only [bind, Except.bind, hoffset']
    cases payload_info rest'.data with
    | error e => rfl
    | ok found => rfl

/-- What is read first, and what is read then. -/
theorem Reader.bind_of_ok {α β : Type} {x : Reader α} {f : α → Reader β} {a : α}
    {cache cache' : Option OffsetCache} {z : Except DecoderError (β × Option OffsetCache)}
    (hx : x cache = .ok (a, cache')) (hf : f a cache' = z) : (x >>= f) cache = z := by
  show (x cache >>= fun read => f read.1 read.2) = z
  rw [hx]
  exact hf

/-- What is read of an item. -/
theorem val_at_eq {α : Type} {as_val : ByteVec b → Except DecoderError α} {i : Nat}
    {cache cache' : Option OffsetCache} {x : Except DecoderError (ByteVec b)}
    (h : item_at r i cache = x.map fun item => (item, cache')) :
    val_at r i as_val cache = (x >>= as_val).map fun a => (a, cache') := by
  show (item_at r i cache >>= fun found => (as_val found.1).map fun a => (a, found.2)) = _
  rw [h]
  cases x with
  | error e => rfl
  | ok item => rfl

theorem val_at_of_item_at {α : Type} {as_val : ByteVec b → Except DecoderError α} {i : Nat} {a : α}
    {cache cache' : Option OffsetCache} (h : item_at r i cache = .ok (item, cache'))
    (ha : as_val item = .ok a) : val_at r i as_val cache = .ok (a, cache') := by
  rw [val_at_eq (x := .ok item) h]
  show (as_val item).map _ = _
  rw [ha]
  rfl

theorem walk_of_walked_item {i : Nat} (h : walked_item r i = .ok item) :
    ∃ rest, walk r i = .ok rest := by
  rw [walked_item_eq_walk] at h
  obtain ⟨rest, hwalk, -⟩ := bind_eq_ok.mp h
  exact ⟨rest, hwalk⟩

/-- Where a list was read from last, if anything was read yet. -/
def Cached (r : ByteVec b) (n : Nat) (cache : Option OffsetCache) : Prop :=
  cache = none ∨ ∃ i < n, cache = some ⟨i, offset r i⟩

/-- As long as only items of the payload are read, the cache makes no
    difference. -/
theorem item_at_of_payload {n i : Nat} {cache : Option OffsetCache} {last it : ByteVec b}
    (hlast : payload_item r n = .ok last) (hcache : Cached r (n + 1) cache)
    (hit : payload_item r i = .ok it) : item_at r i cache = .ok (it, some ⟨i, offset r i⟩) := by
  rcases hcache with rfl | ⟨k, hk, rfl⟩
  · rw [item_at_first rfl, hit]
    rfl
  · -- an item further on is searched from the cached one
    by_cases hle : k ≤ i
    · have hlist := (payload_item_iff.mp hlast).1
      obtain ⟨skipped, hskipped⟩ := payload_item_of_le hlast (by omega : k ≤ n)
      obtain ⟨rest, hwalk⟩ := walk_of_walked_item (walked_item_of_payload_item hskipped)
      rw [item_at_next hlist hwalk hle, walked_item_of_payload_item hit]
      rfl
    · rw [item_at_first (by simp [Option.filter_some, hle]), hit]
      rfl

end accepted

end Rlp
