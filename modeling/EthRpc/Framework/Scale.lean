import EthRpc.Framework.Bytes

/-! # SCALE compact lengths and byte vectors

    A byte vector goes over the wire as a compact length and its bytes.
    The two low bits of the first byte select one of four widths; the
    reader rejects a length written in a wider form than it needs.

    * `compact_decode_encode`, `vec_decode_encode`: the reader undoes the
      writer, whatever bytes follow.
    * `compact_encode_of_decode`, `vec_encode_of_decode`: what the reader
      accepts is exactly what the writer produces, followed by the rest.
    * `vec_encode_append_inj`: vectors that are written one after the other
      can be told apart.

    Lengths are `u32`, so a vector carries `length < 2 ^ 32`.
-/

namespace Scale

/-- A byte vector whose length a compact `u32` can express. -/
abbrev Vec := ByteVec (2 ^ 32)

/-! ## Compact lengths -/

/-- `Compact<u32>`, for `n < 2 ^ 32`. -/
def compact_encode (n : Nat) : List UInt8 :=
  if n < 2 ^ 6 then [UInt8.ofNat (4 * n)]
  else if n < 2 ^ 14 then le_fixed 2 (4 * n + 1)
  else if n < 2 ^ 30 then le_fixed 4 (4 * n + 2)
  else 3 :: le_fixed 4 n

/-- Read a `Compact<u32>`; the bytes behind it are returned. -/
def compact_decode (l : List UInt8) : Option (Nat × List UInt8) :=
  match l with
  | [] => none
  | b :: bs =>
    -- the two low bits are the mode
    if b.toNat % 4 = 0 then some (b.toNat / 4, bs)
    else if b.toNat % 4 = 1 then
      if bs.length < 1 then none
      else
        -- a length that one byte could hold is rejected, and so on below
        let x := of_le (b :: bs.take 1) / 4
        if 2 ^ 6 ≤ x then some (x, bs.drop 1) else none
    else if b.toNat % 4 = 2 then
      if bs.length < 3 then none
      else
        let x := of_le (b :: bs.take 3) / 4
        if 2 ^ 14 ≤ x then some (x, bs.drop 3) else none
    else if b.toNat / 4 = 0 then
      -- the upper bits count the bytes beyond four; a `u32` has none
      if bs.length < 4 then none
      else
        let x := of_le (bs.take 4)
        if 2 ^ 30 ≤ x then some (x, bs.drop 4) else none
    else none

/-- Reading a fixed-width word from the front of a byte string. -/
theorem of_le_take_le_fixed {k n : Nat} (h : n < 256 ^ k) (rest : List UInt8) :
    of_le ((le_fixed k n ++ rest).take k) = n := by
  rw [List.take_left' (le_fixed_length k n), of_le_le_fixed h]

/-- The multi-byte modes share one shape: the first byte of a little-endian
    word, whose remainder mod 4 is the mode, and the other bytes. -/
theorem le_fixed_succ_split (k n : Nat) :
    le_fixed (k + 1) n = UInt8.ofNat n :: le_fixed k (n / 256) := rfl

/-- Reading a word whose first byte is taken off already. -/
theorem of_le_cons_take_le_fixed {k n : Nat} (h : n < 256 ^ (k + 1)) (rest : List UInt8) :
    of_le (UInt8.ofNat n :: (le_fixed k (n / 256) ++ rest).take k) = n := by
  rw [List.take_left' (le_fixed_length k _), ← le_fixed_succ_split, of_le_le_fixed h]

/-- The first byte of a word has the word's mode. -/
theorem toNat_ofNat_mod_four (n : Nat) : (UInt8.ofNat n).toNat % 4 = n % 4 := by
  rw [UInt8.toNat_ofNat']
  omega

/-- **The reader undoes the writer.** -/
theorem compact_decode_encode {n : Nat} (h : n < 2 ^ 32) (rest : List UInt8) :
    compact_decode (compact_encode n ++ rest) = some (n, rest) := by
  unfold compact_encode
  by_cases h6 : n < 2 ^ 6
  · -- one byte
    have hb : (UInt8.ofNat (4 * n)).toNat = 4 * n := by
      rw [UInt8.toNat_ofNat']
      omega
    rw [if_pos h6]
    simp only [List.cons_append, List.nil_append, compact_decode, hb]
    rw [if_pos (by omega), show 4 * n / 4 = n by omega]
  rw [if_neg h6]
  by_cases h14 : n < 2 ^ 14
  · -- two bytes
    have hmode : (UInt8.ofNat (4 * n + 1)).toNat % 4 = 1 := by
      rw [toNat_ofNat_mod_four]
      omega
    have hword := of_le_cons_take_le_fixed (k := 1) (n := 4 * n + 1) (by norm_num; omega) rest
    rw [if_pos h14, le_fixed_succ_split]
    simp only [List.cons_append, compact_decode, hmode, hword, reduceIte, Nat.one_ne_zero]
    rw [if_neg (by simp), if_pos (by omega), List.drop_left' (le_fixed_length 1 _),
      show (4 * n + 1) / 4 = n by omega]
  rw [if_neg h14]
  by_cases h30 : n < 2 ^ 30
  · -- four bytes
    have hmode : (UInt8.ofNat (4 * n + 2)).toNat % 4 = 2 := by
      rw [toNat_ofNat_mod_four]
      omega
    have hword := of_le_cons_take_le_fixed (k := 3) (n := 4 * n + 2) (by norm_num; omega) rest
    rw [if_pos h30, le_fixed_succ_split]
    simp only [List.cons_append, compact_decode, hmode, hword, reduceIte, OfNat.ofNat_ne_zero,
      OfNat.ofNat_ne_one]
    rw [if_neg (by simp), if_pos (by omega), List.drop_left' (le_fixed_length 3 _),
      show (4 * n + 2) / 4 = n by omega]
  · -- a tag byte and four bytes
    have hword := of_le_take_le_fixed (k := 4) (n := n) (by norm_num; omega) rest
    rw [if_neg h30]
    simp only [List.cons_append, compact_decode, hword]
    rw [if_neg (by decide), if_neg (by decide), if_neg (by decide), if_pos (by decide),
      if_neg (by simp), if_pos (by omega), List.drop_left' (le_fixed_length 4 _)]

/-- A word that was read in a multi-byte mode is written back to the bytes
    it was read from: the length and the mode make up the word. -/
theorem le_fixed_of_mode {b : UInt8} {bs : List UInt8} {k mode : Nat} (hlen : k ≤ bs.length)
    (hmode : b.toNat % 4 = mode) :
    4 * (of_le (b :: bs.take k) / 4) + mode < 256 ^ (k + 1) ∧
      le_fixed (k + 1) (4 * (of_le (b :: bs.take k) / 4) + mode) = b :: bs.take k := by
  have hcount : (b :: bs.take k).length = k + 1 := by simp [hlen]
  -- the mode is still in the word, which is `b` and a multiple of 256
  have hword : 4 * (of_le (b :: bs.take k) / 4) + mode = of_le (b :: bs.take k) := by
    simp only [of_le]
    omega
  rw [hword]
  constructor
  · rw [← hcount]
    exact of_le_lt _
  · rw [← hcount]
    exact le_fixed_of_le _

/-- **Only the canonical form is accepted**: what the reader accepts is
    what the writer produces for the length it returns. -/
theorem compact_encode_of_decode {l rest : List UInt8} {n : Nat}
    (h : compact_decode l = some (n, rest)) : n < 2 ^ 32 ∧ l = compact_encode n ++ rest := by
  cases l with
  | nil => simp [compact_decode] at h
  | cons b bs =>
    have hb : b.toNat < 256 := b.toNat_lt
    unfold compact_decode at h
    simp only at h
    split at h
    · -- one byte
      next h0 =>
      simp only [Option.some.injEq, Prod.mk.injEq] at h
      obtain ⟨rfl, rfl⟩ := h
      have hbyte : UInt8.ofNat (4 * (b.toNat / 4)) = b := by
        apply UInt8.toNat_inj.mp
        rw [UInt8.toNat_ofNat']
        omega
      refine ⟨by omega, ?_⟩
      unfold compact_encode
      rw [if_pos (by omega), hbyte]
      rfl
    · split at h
      · -- two bytes: the minimality check excludes the mode of one byte
        next _ h1 =>
        split at h
        · cases h
        · next hlen =>
          split at h
          · next hmin =>
            simp only [Option.some.injEq, Prod.mk.injEq] at h
            obtain ⟨rfl, rfl⟩ := h
            obtain ⟨hmax, hword⟩ := le_fixed_of_mode (Nat.le_of_not_lt hlen) h1
            simp only [Nat.reduceAdd, Nat.reducePow] at hmax
            refine ⟨by omega, ?_⟩
            unfold compact_encode
            rw [if_neg (by omega), if_pos (by omega), hword, List.cons_append,
              List.take_append_drop]
          · cases h
      · split at h
        · -- four bytes
          next _ _ h2 =>
          split at h
          · cases h
          · next hlen =>
            split at h
            · next hmin =>
              simp only [Option.some.injEq, Prod.mk.injEq] at h
              obtain ⟨rfl, rfl⟩ := h
              obtain ⟨hmax, hword⟩ := le_fixed_of_mode (Nat.le_of_not_lt hlen) h2
              simp only [Nat.reduceAdd, Nat.reducePow] at hmax
              refine ⟨by omega, ?_⟩
              unfold compact_encode
              rw [if_neg (by omega), if_neg (by omega), if_pos (by omega), hword,
                List.cons_append, List.take_append_drop]
            · cases h
        · split at h
          · -- a tag byte, which can only be `3`, and four bytes
            next h0 h1 h2 htag =>
            split at h
            · cases h
            · next hlen =>
              split at h
              · next hmin =>
                simp only [Option.some.injEq, Prod.mk.injEq] at h
                obtain ⟨rfl, rfl⟩ := h
                have hb3 : b = 3 := by
                  apply UInt8.toNat_inj.mp
                  show b.toNat = 3
                  omega
                have hcount : (bs.take 4).length = 4 := by simp; omega
                have hmax := of_le_lt (bs.take 4)
                have hword := le_fixed_of_le (bs.take 4)
                rw [hcount] at hmax hword
                refine ⟨by omega, ?_⟩
                unfold compact_encode
                rw [if_neg (by omega), if_neg (by omega), if_neg (by omega), hword, hb3,
                  List.cons_append, List.take_append_drop]
              · cases h
          · cases h

/-! ## Fixed-width fields -/

/-- Read an array of `k` bytes; the bytes behind it are returned. -/
def fixed_decode (k : Nat) (l : List UInt8) : Option (List.Vector UInt8 k × List UInt8) :=
  if h : k ≤ l.length then some (⟨l.take k, by simp [h]⟩, l.drop k) else none

theorem fixed_decode_append {k : Nat} (v : List.Vector UInt8 k) (rest : List UInt8) :
    fixed_decode k (v.toList ++ rest) = some (v, rest) := by
  have hlen : v.toList.length = k := v.toList_length
  unfold fixed_decode
  rw [dif_pos (by rw [List.length_append]; omega)]
  simp only [List.take_left' hlen, List.drop_left' hlen]
  rfl

/-! ## Byte vectors -/

/-- `Vec<u8>`: a compact length and the bytes. -/
def vec_encode (v : Vec) : List UInt8 :=
  compact_encode v.data.length ++ v.data

/-- Read a `Vec<u8>`; the bytes behind it are returned. -/
def vec_decode (l : List UInt8) : Option (Vec × List UInt8) :=
  match compact_decode l with
  | none => none
  | some (n, rest) =>
    if rest.length < n then none
    else
      match ByteVec.ofList? (rest.take n) with
      | none => none
      | some v => some (v, rest.drop n)

theorem vec_decode_encode (v : Vec) (rest : List UInt8) :
    vec_decode (vec_encode v ++ rest) = some (v, rest) := by
  unfold vec_decode vec_encode
  rw [List.append_assoc, compact_decode_encode v.length_lt]
  simp

theorem vec_encode_of_decode {l rest : List UInt8} {v : Vec}
    (h : vec_decode l = some (v, rest)) : l = vec_encode v ++ rest := by
  unfold vec_decode at h
  split at h
  · cases h
  · next n tail hn =>
    obtain ⟨_, rfl⟩ := compact_encode_of_decode hn
    split at h
    · cases h
    · next hlen =>
      split at h
      · cases h
      · next w hw =>
        simp only [Option.some.injEq, Prod.mk.injEq] at h
        obtain ⟨rfl, rfl⟩ := h
        have hdata := ByteVec.ofList?_eq_some hw
        have hcount : w.data.length = n := by
          rw [hdata, List.length_take]
          omega
        rw [vec_encode, hcount, hdata, List.append_assoc, List.take_append_drop]

/-- No vector's encoding is the beginning of another's, so that the bytes
    after a vector cannot be taken for its own. -/
theorem vec_encode_append_inj {v w : Vec} {l l' : List UInt8} :
    vec_encode v ++ l = vec_encode w ++ l' ↔ v = w ∧ l = l' := by
  constructor
  · intro h
    have hv := vec_decode_encode v l
    rw [h, vec_decode_encode] at hv
    simp only [Option.some.injEq, Prod.mk.injEq] at hv
    exact ⟨hv.1.symm, hv.2.symm⟩
  · rintro ⟨rfl, rfl⟩
    rfl

theorem compact_encode_length_le (n : Nat) : (compact_encode n).length ≤ 5 := by
  unfold compact_encode
  split
  · simp
  · split
    · simp
    · split <;> simp

theorem vec_encode_length_lt (v : Vec) : (vec_encode v).length < 2 ^ 32 + 5 := by
  have hv := v.length_lt
  have hc := compact_encode_length_le v.data.length
  simp only [vec_encode, List.length_append]
  omega

end Scale
