import EthRpc.Framework.Bytes

/-! # Recursive length prefix

    The RLP format over byte strings and flat lists of byte strings.

    * **Writing**: `encode_value` for a string, `encode_list` for a list
      whose items are already encoded. A short payload has its length in
      the first byte; a long one has the length of its length there.
    * **Reading**: `payload_info` reads one header, `item_at` finds the n-th item
      of a list, `decode_value` strips an item to its string. The reader
      walks to the item it is asked for and does not count the items. It
      goes on from the item it found last, and then it does not look where
      the list ends.
    * **Unique decodability**: `encode_list_map_inj`, two lists of strings
      with the same encoding are the same list. It rests on
      `from_bytes_header`: a header determines the length of what follows.

    Lengths are below `2 ^ 64`, the largest the format can express.
-/

namespace Rlp

/-! ## Writing -/

/-- The header of a payload of `len` bytes; `offset` is `0x80` for a string
    and `0xc0` for a list. -/
def header (offset len : Nat) : List UInt8 :=
  if len ≤ 55 then [UInt8.ofNat (offset + len)]
  else UInt8.ofNat (offset + 55 + (be_bytes len).length) :: be_bytes len

/-- A single byte below `0x80` is its own encoding. -/
def is_own_encoding : List UInt8 → Bool
  | [b] => decide (b.toNat < 0x80)
  | _ => false

/-- Encode a byte string. -/
def encode_value (v : List UInt8) : List UInt8 :=
  if is_own_encoding v then v else header 0x80 v.length ++ v

/-- Encode a list whose items are encoded already. -/
def encode_list (items : List (List UInt8)) : List UInt8 :=
  header 0xc0 items.flatten.length ++ items.flatten

/-! ## Reading -/

/-- Errors of the reader. -/
inductive DecoderError where
  | RlpIsTooBig
  | RlpIsTooShort
  | RlpExpectedToBeList
  | RlpExpectedToBeData
  | RlpDataLenWithZeroPrefix
  | RlpInvalidIndirection
  | RlpInconsistentLengthAndData
  deriving DecidableEq, Repr

/-- What a header says: how long it is and how long its payload is. -/
structure PayloadInfo where
  header_len : Nat
  value_len : Nat
  deriving DecidableEq, Repr

def PayloadInfo.total (p : PayloadInfo) : Nat := p.header_len + p.value_len

/-- A length of at most eight bytes without a leading zero. -/
def decode_usize (bytes : List UInt8) : Except DecoderError Nat :=
  if 8 < bytes.length then .error .RlpIsTooBig
  else if bytes.head? = some 0 then .error .RlpInvalidIndirection
  else .ok (of_be bytes)

/-- A header that carries the length of the length. -/
def calculate_payload_info (bytes : List UInt8) (len_of_len : Nat) :
    Except DecoderError PayloadInfo :=
  match bytes.drop 1 with
  | [] => .error .RlpIsTooShort
  | b :: bs =>
    if b = 0 then .error .RlpDataLenWithZeroPrefix
    else if bytes.length < 1 + len_of_len then .error .RlpIsTooShort
    else
      match decode_usize ((b :: bs).take len_of_len) with
      | .error e => .error e
      | .ok value_len =>
        if value_len ≤ 55 then .error .RlpInvalidIndirection
        else .ok ⟨1 + len_of_len, value_len⟩

/-- Read the header at the front of `bytes`. -/
def PayloadInfo.from_bytes (bytes : List UInt8) : Except DecoderError PayloadInfo :=
  match bytes with
  | [] => .error .RlpIsTooShort
  | l :: _ =>
    -- a byte that is its own encoding has no header
    if l.toNat ≤ 0x7f then .ok ⟨0, 1⟩
    -- strings, short and long
    else if l.toNat ≤ 0xb7 then .ok ⟨1, l.toNat - 0x80⟩
    else if l.toNat ≤ 0xbf then calculate_payload_info bytes (l.toNat - 0xb7)
    -- lists, short and long
    else if l.toNat ≤ 0xf7 then .ok ⟨1, l.toNat - 0xc0⟩
    else calculate_payload_info bytes (l.toNat - 0xf7)

/-- Read the header at the front of `bytes` and check that its payload is there. -/
def payload_info (bytes : List UInt8) : Except DecoderError PayloadInfo :=
  match PayloadInfo.from_bytes bytes with
  | .error e => .error e
  | .ok item => if item.total ≤ bytes.length then .ok item else .error .RlpIsTooShort

section reader
variable {b : Nat}

/-- A list starts with a byte from `0xc0` on. -/
def is_list (r : ByteVec b) : Bool :=
  match r.data with
  | [] => false
  | l :: _ => decide (0xc0 ≤ l.toNat)

/-- An item that is the empty string or the empty list. -/
def is_empty (r : ByteVec b) : Bool :=
  match r.data with
  | [] => false
  | l :: _ => decide (l.toNat = 0xc0 ∨ l.toNat = 0x80)

/-- The payload of a list. -/
def list_payload (r : ByteVec b) : Except DecoderError (ByteVec b) := do
  let item ← payload_info r.data
  return (r.drop item.header_len).take item.value_len

/-- Skip `n` items. -/
def consume_items (r : ByteVec b) : Nat → Except DecoderError (ByteVec b)
  | 0 => .ok r
  | n + 1 => do
    let item ← payload_info r.data
    consume_items (r.drop item.total) n

/-- The item behind `index` others. -/
def item_from (r : ByteVec b) (index : Nat) : Except DecoderError (ByteVec b) := do
  let rest ← consume_items r index
  let found ← payload_info rest.data
  return rest.take found.total

/-- The item of a list at an index, in the payload of the list. -/
def payload_item (r : ByteVec b) (index : Nat) : Except DecoderError (ByteVec b) :=
  if is_list r then do
    let payload ← list_payload r
    item_from payload index
  else .error .RlpExpectedToBeList

/-- The item at an index that is reached from the first item of a list,
    wherever the list ends. -/
def walked_item (r : ByteVec b) (index : Nat) : Except DecoderError (ByteVec b) := do
  let list ← payload_info r.data
  item_from (r.drop list.header_len) index

/-- Which item was found last, and where it starts. -/
structure OffsetCache where
  index : Nat
  offset : Nat
  deriving DecidableEq, Repr

/-- A computation that reads from a list. A failure ends it, so the cache is
    not kept after one. -/
abbrev Reader (α : Type) := StateT (Option OffsetCache) (Except DecoderError) α

/-- All but the first `len` bytes. -/
def consume (r : ByteVec b) (len : Nat) : Except DecoderError (ByteVec b) :=
  if len ≤ r.data.length then .ok (r.drop len) else .error .RlpIsTooShort

/-- Where the search for an item starts: the bytes, how many items are to be
    skipped, and how many bytes are in front. -/
def search_from (r : ByteVec b) (cache : Option OffsetCache) (index : Nat) :
    Except DecoderError (ByteVec b × Nat × Nat) :=
  match cache.filter fun cache => cache.index ≤ index with
  | some cache => do
    -- on from the cached position, in all that follows it
    let bytes ← consume r cache.offset
    return (bytes, index - cache.index, cache.offset)
  | none => do
    -- from the beginning of the list, in its payload
    let list ← payload_info r.data
    return ((r.drop list.header_len).take list.value_len, index, list.header_len)

/-- `Rlp::at`: the item of a list at an index. -/
def item_at (r : ByteVec b) (index : Nat) : Reader (ByteVec b) := fun cache =>
  if is_list r then do
    let (bytes, indexes_to_skip, bytes_consumed) ← search_from r cache index
    let rest ← consume_items bytes indexes_to_skip
    let offset := bytes_consumed + (bytes.data.length - rest.data.length)
    let found ← payload_info rest.data
    return (rest.take found.total, some ⟨index, offset⟩)
  else .error .RlpExpectedToBeList

/-- `Rlp::val_at`: what the item at an index is read as. -/
def val_at {α : Type} (r : ByteVec b) (index : Nat)
    (as_val : ByteVec b → Except DecoderError α) : Reader α := do
  let item ← item_at r index
  as_val item

/-- `Result::ok` of what is read. -/
def Reader.ok {α : Type} (x : Reader α) : Reader (Option α) := fun cache =>
  match x cache with
  | .ok (a, cache) => .ok (some a, cache)
  | .error _ => .ok (none, cache)

/-- The string an item encodes. -/
def decode_value (r : ByteVec b) : Except DecoderError (ByteVec b) :=
  match r.data with
  | [] => .error .RlpIsTooShort
  | l :: bs =>
    if l.toNat ≤ 0x7f then .ok (r.take 1)
    else if l.toNat ≤ 0xb7 then
      let last_index_of_value := 1 + (l.toNat - 0x80)
      if r.data.length < last_index_of_value then .error .RlpInconsistentLengthAndData
      -- a byte that is its own encoding must not have a header
      else if l.toNat = 0x81 ∧ is_own_encoding (bs.take 1) then .error .RlpInvalidIndirection
      else .ok ((r.take last_index_of_value).drop 1)
    else if l.toNat ≤ 0xbf then
      let begin_of_value := 1 + (l.toNat - 0xb7)
      if r.data.length < begin_of_value then .error .RlpInconsistentLengthAndData
      else
        match decode_usize ((r.data.take begin_of_value).drop 1) with
        | .error e => .error e
        | .ok len =>
          if r.data.length < begin_of_value + len then .error .RlpInconsistentLengthAndData
          else .ok ((r.drop begin_of_value).take len)
    else .error .RlpExpectedToBeData

/-- An unsigned integer of `k` bytes at most, without leading zeros. -/
def as_uint (k : Nat) (r : ByteVec b) : Except DecoderError (BitVec (8 * k)) :=
  match decode_value r with
  | .error e => .error e
  | .ok bytes =>
    if bytes.data.head? = some 0 then .error .RlpInvalidIndirection
    else if bytes.data.length ≤ k then .ok (BitVec.ofNat (8 * k) (of_be bytes.data))
    else .error .RlpIsTooBig

/-- A string of exactly `k` bytes. -/
def as_fixed (k : Nat) (r : ByteVec b) : Except DecoderError (List.Vector UInt8 k) :=
  match decode_value r with
  | .error e => .error e
  | .ok bytes =>
    if h : bytes.data.length = k then .ok ⟨bytes.data, h⟩
    else if bytes.data.length < k then .error .RlpIsTooShort
    else .error .RlpIsTooBig

end reader

/-! ## Unique decodability -/

theorem header_ne_nil (offset len : Nat) : header offset len ≠ [] := by
  unfold header
  split <;> simp

theorem encode_value_ne_nil (v : List UInt8) : encode_value v ≠ [] := by
  unfold encode_value
  split
  · next h =>
    intro hv
    rw [hv] at h
    simp [is_own_encoding] at h
  · intro h
    exact header_ne_nil _ _ (List.append_eq_nil_iff.mp h).1

/-- The length of a payload too long for one byte takes one to eight bytes. -/
theorem be_bytes_length_bounds {len : Nat} (hlong : 55 < len) (hlen : len < 2 ^ 64) :
    1 ≤ (be_bytes len).length ∧ (be_bytes len).length ≤ 8 := by
  constructor
  · rw [Nat.one_le_iff_ne_zero]
    intro h
    have : len = 0 := be_bytes_eq_nil.mp (List.length_eq_zero_iff.mp h)
    omega
  · exact be_bytes_length_le (by norm_num; omega)

theorem decode_usize_be_bytes {len : Nat} (h : (be_bytes len).length ≤ 8) :
    decode_usize (be_bytes len) = .ok len := by
  unfold decode_usize
  rw [if_neg (by omega), if_neg (be_bytes_head_ne_zero len), of_be_be_bytes]

/-- Reading back a length of a length. -/
theorem calculate_payload_info_be_bytes {len : Nat} (hlong : 55 < len) (hlen : len < 2 ^ 64)
    (l : UInt8) (rest : List UInt8) :
    calculate_payload_info (l :: (be_bytes len ++ rest)) (be_bytes len).length =
      .ok ⟨1 + (be_bytes len).length, len⟩ := by
  obtain ⟨hpos, hle⟩ := be_bytes_length_bounds hlong hlen
  have hhead := be_bytes_head_ne_zero len
  have hread := decode_usize_be_bytes hle
  cases hb : be_bytes len with
  | nil => rw [hb] at hpos; simp at hpos
  | cons d ds =>
    rw [hb] at hhead hread
    have hd : d ≠ 0 := by
      intro h
      exact hhead (by rw [h]; rfl)
    have htake : (d :: (ds ++ rest)).take (d :: ds).length = d :: ds := by simp
    unfold calculate_payload_info
    simp only [List.cons_append, List.drop_succ_cons, List.drop_zero, if_neg hd, htake, hread]
    rw [if_neg (by simp; omega), if_neg (by omega)]

/-- **A header determines what follows it**: reading a header of either
    kind, with anything behind it, gives back its own length and the
    length it was written for. -/
theorem from_bytes_header {offset len : Nat} (hoff : offset = 0x80 ∨ offset = 0xc0)
    (hlen : len < 2 ^ 64) (rest : List UInt8) :
    PayloadInfo.from_bytes (header offset len ++ rest) =
      .ok ⟨(header offset len).length, len⟩ := by
  unfold header
  by_cases hshort : len ≤ 55
  · -- the length is in the first byte
    rw [if_pos hshort]
    have hbyte : (UInt8.ofNat (offset + len)).toNat = offset + len := by
      rw [UInt8.toNat_ofNat']
      omega
    unfold PayloadInfo.from_bytes
    simp only [List.cons_append, hbyte, List.length_singleton]
    rcases hoff with rfl | rfl
    · rw [if_neg (by omega), if_pos (by omega), show 0x80 + len - 0x80 = len by omega]
    · rw [if_neg (by omega), if_neg (by omega), if_neg (by omega), if_pos (by omega),
        show 0xc0 + len - 0xc0 = len by omega]
  · -- the first byte has the length of the length
    rw [if_neg hshort]
    have hlong : 55 < len := by omega
    obtain ⟨hpos, hle⟩ := be_bytes_length_bounds hlong hlen
    have hbyte : (UInt8.ofNat (offset + 55 + (be_bytes len).length)).toNat =
        offset + 55 + (be_bytes len).length := by
      rw [UInt8.toNat_ofNat']
      omega
    have hread := calculate_payload_info_be_bytes hlong hlen
      (UInt8.ofNat (offset + 55 + (be_bytes len).length)) rest
    unfold PayloadInfo.from_bytes
    simp only [List.cons_append, hbyte, List.length_cons]
    rcases hoff with rfl | rfl
    · rw [if_neg (by omega), if_neg (by omega), if_pos (by omega),
        show 0x80 + 55 + (be_bytes len).length - 0xb7 = (be_bytes len).length by omega, hread,
        Nat.add_comm]
    · rw [if_neg (by omega), if_neg (by omega), if_neg (by omega), if_neg (by omega),
        show 0xc0 + 55 + (be_bytes len).length - 0xf7 = (be_bytes len).length by omega, hread,
        Nat.add_comm]

/-- Reading the header of an encoded string splits the encoding off from
    whatever follows and finds the string in it. -/
theorem from_bytes_encode_value {v : List UInt8} (hv : v.length < 2 ^ 64) (rest : List UInt8) :
    ∃ info, PayloadInfo.from_bytes (encode_value v ++ rest) = .ok info ∧
      info.total = (encode_value v).length ∧ (encode_value v).drop info.header_len = v := by
  unfold encode_value
  by_cases hown : is_own_encoding v = true
  · rw [if_pos hown]
    -- a byte without a header is its own payload
    match v, hown with
    | [b], hown =>
      have hb : b.toNat ≤ 0x7f := by
        simp [is_own_encoding] at hown
        omega
      refine ⟨⟨0, 1⟩, ?_, rfl, rfl⟩
      simp [PayloadInfo.from_bytes, hb]
  · rw [if_neg hown]
    refine ⟨⟨(header 0x80 v.length).length, v.length⟩, ?_, ?_, ?_⟩
    · rw [List.append_assoc]
      exact from_bytes_header (Or.inl rfl) hv _
    · simp [PayloadInfo.total]
    · simp

/-- **Strings are self-delimiting**: two encoded strings at the front of
    the same bytes are the same string, with the same bytes behind. -/
theorem encode_value_append_inj {v w r s : List UInt8} (hv : v.length < 2 ^ 64)
    (hw : w.length < 2 ^ 64) (h : encode_value v ++ r = encode_value w ++ s) :
    v = w ∧ r = s := by
  obtain ⟨iv, hiv, htv, hdv⟩ := from_bytes_encode_value hv r
  obtain ⟨iw, hiw, htw, hdw⟩ := from_bytes_encode_value hw s
  rw [h, hiw] at hiv
  cases hiv
  -- the same header is read from both, so they are equally long
  have hlen : (encode_value v).length = (encode_value w).length := htv.symm.trans htw
  obtain ⟨hvw, hrs⟩ := List.append_inj h hlen
  refine ⟨?_, hrs⟩
  rw [← hdv, ← hdw, hvw]

/-- A concatenation of encoded strings determines the strings. -/
theorem flatten_encode_value_inj {vs ws : List (List UInt8)}
    (hvs : ∀ v ∈ vs, v.length < 2 ^ 64) (hws : ∀ w ∈ ws, w.length < 2 ^ 64)
    (h : (vs.map encode_value).flatten = (ws.map encode_value).flatten) : vs = ws := by
  -- string by string: the first two split off at the same place
  induction vs generalizing ws with
  | nil =>
    cases ws with
    | nil => rfl
    | cons w ws =>
      -- an encoded string is never empty
      simp only [List.map_nil, List.flatten_nil, List.map_cons, List.flatten_cons] at h
      exact absurd (List.append_eq_nil_iff.mp h.symm).1 (encode_value_ne_nil w)
  | cons v vs ih =>
    cases ws with
    | nil =>
      simp only [List.map_nil, List.flatten_nil, List.map_cons, List.flatten_cons] at h
      exact absurd (List.append_eq_nil_iff.mp h).1 (encode_value_ne_nil v)
    | cons w ws =>
      simp only [List.map_cons, List.flatten_cons] at h
      obtain ⟨rfl, htail⟩ := encode_value_append_inj (hvs v (by simp)) (hws w (by simp)) h
      rw [ih (fun u hu => hvs u (by simp [hu])) (fun u hu => hws u (by simp [hu])) htail]

/-- A header determines the length it was written for, and what is behind it. -/
theorem header_append_inj {offset m n : Nat} {r s : List UInt8}
    (hoff : offset = 0x80 ∨ offset = 0xc0) (hm : m < 2 ^ 64) (hn : n < 2 ^ 64)
    (h : header offset m ++ r = header offset n ++ s) : m = n ∧ r = s := by
  have hr := from_bytes_header hoff hm r
  have hs := from_bytes_header hoff hn s
  rw [h, hs] at hr
  injection hr with hinfo
  injection hinfo with hheader hlen
  exact ⟨hlen.symm, (List.append_inj h hheader.symm).2⟩

/-- **Lists are self-delimiting**: two encoded lists at the front of the same
    bytes have the same payload, with the same bytes behind. -/
theorem encode_list_append_inj {xs ys : List (List UInt8)} {r s : List UInt8}
    (hx : xs.flatten.length < 2 ^ 64) (hy : ys.flatten.length < 2 ^ 64)
    (h : encode_list xs ++ r = encode_list ys ++ s) : xs.flatten = ys.flatten ∧ r = s := by
  unfold encode_list at h
  rw [List.append_assoc, List.append_assoc] at h
  obtain ⟨hlen, hpayload⟩ := header_append_inj (Or.inr rfl) hx hy h
  exact List.append_inj hpayload hlen

/-- **Unique decodability**: two lists of strings with the same encoding
    are the same list. -/
theorem encode_list_map_inj {vs ws : List (List UInt8)}
    (hvs : ∀ v ∈ vs, v.length < 2 ^ 64) (hws : ∀ w ∈ ws, w.length < 2 ^ 64)
    (hv : (vs.map encode_value).flatten.length < 2 ^ 64)
    (hw : (ws.map encode_value).flatten.length < 2 ^ 64)
    (h : encode_list (vs.map encode_value) = encode_list (ws.map encode_value)) : vs = ws :=
  flatten_encode_value_inj hvs hws (encode_list_append_inj hv hw (congrArg (· ++ []) h)).1

/-- A header adds nine bytes at most. -/
theorem header_length_le {offset len : Nat} (h : len < 2 ^ 64) :
    (header offset len).length ≤ 9 := by
  unfold header
  split
  · simp
  · have := (be_bytes_length_bounds (by omega) h).2
    simp
    omega

theorem encode_value_length_le {v : List UInt8} (h : v.length < 2 ^ 64) :
    (encode_value v).length ≤ v.length + 9 := by
  unfold encode_value
  split
  · omega
  · have hheader : (header 0x80 v.length).length ≤ 9 := header_length_le h
    simp
    omega

/-- The items of a list of strings take nine bytes each at most beyond the
    strings themselves. -/
theorem flatten_encode_value_length_le {vs : List (List UInt8)}
    (h : ∀ v ∈ vs, v.length < 2 ^ 64) :
    (vs.map encode_value).flatten.length ≤ (vs.map List.length).sum + 9 * vs.length := by
  induction vs with
  | nil => simp
  | cons v vs ih =>
    have hv := encode_value_length_le (h v (by simp))
    have hvs := ih (fun u hu => h u (by simp [hu]))
    simp only [List.map_cons, List.flatten_cons, List.length_append, List.sum_cons,
      List.length_cons]
    omega

/-! ## Reading back -/

section read_back
variable {b : Nat} {r : ByteVec b} {v : List UInt8} {vs : List (List UInt8)} {tail : List UInt8}

theorem payload_info_encode_value (hv : v.length < 2 ^ 64) (rest : List UInt8) :
    ∃ info, payload_info (encode_value v ++ rest) = .ok info ∧
      info.total = (encode_value v).length := by
  obtain ⟨info, hinfo, htotal, -⟩ := from_bytes_encode_value hv rest
  refine ⟨info, ?_, htotal⟩
  unfold payload_info
  rw [hinfo]
  simp only [htotal]
  rw [if_pos (by rw [List.length_append]; omega)]

/-- Skipping `n` encoded strings leaves the others. -/
theorem consume_items_encode_value {n : Nat} (hvs : ∀ v ∈ vs, v.length < 2 ^ 64)
    (hn : n ≤ vs.length) (hr : r.data = (vs.map encode_value).flatten ++ tail) :
    ∃ rest, consume_items r n = .ok rest ∧
      rest.data = ((vs.drop n).map encode_value).flatten ++ tail := by
  induction n generalizing r vs with
  | zero => exact ⟨r, rfl, hr⟩
  | succ n ih =>
    cases vs with
    | nil => simp at hn
    | cons v vs =>
      rw [List.map_cons, List.flatten_cons, List.append_assoc] at hr
      obtain ⟨info, hinfo, htotal⟩ := payload_info_encode_value (hvs v List.mem_cons_self)
        ((vs.map encode_value).flatten ++ tail)
      -- the first string is as long as its header says
      have hrest : (r.drop info.total).data = (vs.map encode_value).flatten ++ tail := by
        rw [ByteVec.drop_data, hr, htotal, List.drop_left]
      obtain ⟨rest, hconsume, hdata⟩ := ih (fun u hu => hvs u (List.mem_cons_of_mem _ hu))
        (Nat.le_of_succ_le_succ hn) hrest
      refine ⟨rest, ?_, hdata⟩
      unfold consume_items
      rw [hr, hinfo]
      exact hconsume

theorem is_list_encode_list (items : List (List UInt8)) (hr : r.data = encode_list items ++ tail)
    (hlen : items.flatten.length < 2 ^ 64) : is_list r = true := by
  unfold is_list
  rw [hr]
  unfold encode_list header
  by_cases hshort : items.flatten.length ≤ 55
  · rw [if_pos hshort]
    simp only [List.cons_append, decide_eq_true_eq, UInt8.toNat_ofNat']
    omega
  · rw [if_neg hshort]
    have hle := (be_bytes_length_bounds (by omega) hlen).2
    simp only [List.cons_append, decide_eq_true_eq, UInt8.toNat_ofNat']
    omega

/-- The header of an encoded list. -/
theorem payload_info_encode_list {items : List (List UInt8)} (hlen : items.flatten.length < 2 ^ 64)
    (hr : r.data = encode_list items ++ tail) : payload_info r.data =
      .ok ⟨(header 0xc0 items.flatten.length).length, items.flatten.length⟩ := by
  have hheader := from_bytes_header (Or.inr rfl) hlen (items.flatten ++ tail)
  unfold payload_info
  rw [hr, encode_list, List.append_assoc, hheader]
  simp only
  rw [if_pos (by simp only [PayloadInfo.total, List.length_append]; omega)]

/-- The payload of an encoded list is split off from what follows the list. -/
theorem list_payload_encode_list {items : List (List UInt8)} (hlen : items.flatten.length < 2 ^ 64)
    (hr : r.data = encode_list items ++ tail) :
    ∃ payload, list_payload r = .ok payload ∧ payload.data = items.flatten := by
  refine ⟨_, by rw [list_payload, payload_info_encode_list hlen hr]; rfl, ?_⟩
  rw [ByteVec.take_data, ByteVec.drop_data, hr, encode_list, List.append_assoc, List.drop_left,
    List.take_left]

/-- The encoded string behind `i` others. -/
theorem item_from_encode_value {i : Nat} (hvs : ∀ v ∈ vs, v.length < 2 ^ 64)
    (hr : r.data = (vs.map encode_value).flatten ++ tail) (hi : vs[i]? = some v) :
    ∃ item, item_from r i = .ok item ∧ item.data = encode_value v := by
  obtain ⟨hlt, hget⟩ := List.getElem?_eq_some_iff.mp hi
  obtain ⟨rest, hconsume, hrest⟩ := consume_items_encode_value hvs (Nat.le_of_lt hlt) hr
  rw [List.drop_eq_getElem_cons hlt, hget, List.map_cons, List.flatten_cons,
    List.append_assoc] at hrest
  obtain ⟨found, hfound, htotal⟩ := payload_info_encode_value
    (hvs v (List.mem_of_getElem? hi)) (((vs.drop (i + 1)).map encode_value).flatten ++ tail)
  rw [← hrest] at hfound
  refine ⟨rest.take found.total, ?_, ?_⟩
  · unfold item_from
    simp only [bind, Except.bind, hconsume, hfound]
    rfl
  · rw [ByteVec.take_data, hrest, htotal, List.take_left]

/-- There is no item behind the last one. -/
theorem item_from_length (hvs : ∀ v ∈ vs, v.length < 2 ^ 64)
    (hr : r.data = (vs.map encode_value).flatten) :
    item_from r vs.length = .error .RlpIsTooShort := by
  rw [← List.append_nil (vs.map encode_value).flatten] at hr
  obtain ⟨rest, hconsume, hrest⟩ := consume_items_encode_value hvs le_rfl hr
  rw [List.drop_length, List.map_nil, List.flatten_nil, List.append_nil] at hrest
  -- all strings are skipped, and no byte is left for another header
  unfold item_from
  simp only [bind, Except.bind, hconsume, hrest]
  rfl

section encoded_list
variable (hvs : ∀ v ∈ vs, v.length < 2 ^ 64) (hlen : (vs.map encode_value).flatten.length < 2 ^ 64)
include hvs hlen

/-- **The item at an index** of an encoded list of strings is the encoded
    string at that index, whatever follows the list. -/
theorem payload_item_encode_list {i : Nat}
    (hr : r.data = encode_list (vs.map encode_value) ++ tail) (hi : vs[i]? = some v) :
    ∃ item, payload_item r i = .ok item ∧ item.data = encode_value v := by
  obtain ⟨payload, hpayload, hdata⟩ := list_payload_encode_list hlen hr
  rw [← List.append_nil (vs.map encode_value).flatten] at hdata
  obtain ⟨item, hitem, hvalue⟩ := item_from_encode_value hvs hdata hi
  refine ⟨item, ?_, hvalue⟩
  unfold payload_item
  rw [if_pos (is_list_encode_list _ hr hlen), hpayload]
  exact hitem

/-- Where nothing follows the list, nothing is reached behind its last item. -/
theorem walked_item_encode_list_length (hr : r.data = encode_list (vs.map encode_value)) :
    walked_item r vs.length = .error .RlpIsTooShort := by
  have hinfo := payload_info_encode_list hlen (hr.trans (List.append_nil _).symm)
  have hdata : (r.drop (header 0xc0 (vs.map encode_value).flatten.length).length).data =
      (vs.map encode_value).flatten := by
    rw [ByteVec.drop_data, hr, encode_list, List.drop_left]
  unfold walked_item
  rw [hinfo]
  exact item_from_length hvs hdata

end encoded_list

/-- **The string of an encoded string.** -/
theorem decode_value_encode_value (hv : v.length < 2 ^ 64) (hr : r.data = encode_value v) :
    ∃ w, decode_value r = .ok w ∧ w.data = v := by
  unfold encode_value at hr
  by_cases hown : is_own_encoding v = true
  · rw [if_pos hown] at hr
    match v, hown with
    | [x], hown =>
      have hx : x.toNat ≤ 0x7f := by
        simp only [is_own_encoding, decide_eq_true_eq] at hown
        omega
      refine ⟨r.take 1, ?_, by rw [ByteVec.take_data, hr]; rfl⟩
      unfold decode_value
      split
      · next h => rw [hr] at h; cases h
      · next l bs h =>
        rw [hr] at h
        cases h
        rw [if_pos hx]
  · rw [if_neg hown] at hr
    unfold header at hr
    by_cases hshort : v.length ≤ 55
    · -- a short string: its length is in the first byte
      rw [if_pos hshort] at hr
      have hbyte : (UInt8.ofNat (0x80 + v.length)).toNat = 0x80 + v.length := by
        rw [UInt8.toNat_ofNat']
        omega
      refine ⟨(r.take (1 + v.length)).drop 1, ?_, ?_⟩
      · unfold decode_value
        split
        · next h => rw [hr] at h; cases h
        · next l bs h =>
          have hlen : r.data.length = 1 + v.length := by rw [hr]; simp; omega
          rw [hr] at h
          cases h
          simp only [hbyte, hlen]
          rw [if_neg (by omega), if_pos (by omega),
            show 1 + (0x80 + v.length - 0x80) = 1 + v.length by omega, if_neg (by omega)]
          rw [if_neg]
          -- a single byte with a header is not its own encoding
          intro h
          obtain ⟨hone, htake⟩ := h
          have htake' : ([] ++ v).take 1 = v := List.take_of_length_le (by simp; omega)
          have htake : is_own_encoding (([] ++ v).take 1) = true := htake
          rw [htake'] at htake
          exact hown htake
      · rw [ByteVec.drop_data, ByteVec.take_data, hr]
        simp [Nat.add_comm 1]
    · -- a long one: the length has bytes of its own behind the first
      rw [if_neg hshort] at hr
      obtain ⟨hpos, hle⟩ := be_bytes_length_bounds (by omega) hv
      have hbyte : (UInt8.ofNat (0x80 + 55 + (be_bytes v.length).length)).toNat =
          0x80 + 55 + (be_bytes v.length).length := by
        rw [UInt8.toNat_ofNat']
        omega
      refine ⟨(r.drop (1 + (be_bytes v.length).length)).take v.length, ?_, ?_⟩
      · unfold decode_value
        split
        · next h => rw [hr] at h; cases h
        · next l bs h =>
          have hlen : r.data.length = 1 + (be_bytes v.length).length + v.length := by
            rw [hr]; simp; omega
          have htake : (r.data.take (1 + (be_bytes v.length).length)).drop 1 =
              be_bytes v.length := by
            rw [hr]
            simp [Nat.add_comm 1]
          rw [hr] at h
          cases h
          simp only [hbyte]
          rw [if_neg (by omega), if_neg (by omega), if_pos (by omega),
            show 1 + (0x80 + 55 + (be_bytes v.length).length - 0xb7) =
              1 + (be_bytes v.length).length by omega, if_neg (by omega), htake,
            decode_usize_be_bytes hle]
          simp only
          rw [if_neg (by omega)]
      · rw [ByteVec.take_data, ByteVec.drop_data, hr]
        simp [Nat.add_comm 1]

end read_back

end Rlp
