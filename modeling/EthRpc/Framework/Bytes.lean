import Mathlib

/-! # Byte strings

    The byte-level vocabulary the codecs are written in:

    * `be_bytes` / `of_be`: minimal big-endian numerals, the form in which
      RLP writes an integer.
    * `be_fixed`, `le_fixed`: numerals of a fixed number of bytes.
    * `ByteVec b`: a byte vector whose length stays below `b`. A length
      bound is a promise of the container (an address space, a `u32`
      header), so it is carried by the value and never assumed by a theorem.
-/

/-! ## Big-endian numerals -/

/-- The minimal big-endian bytes of `n`; the empty string for `0`. -/
def be_bytes (n : Nat) : List UInt8 :=
  (Nat.digits 256 n).reverse.map UInt8.ofNat

/-- The number a big-endian byte string denotes. -/
def of_be (l : List UInt8) : Nat :=
  Nat.ofDigits 256 (l.reverse.map UInt8.toNat)

@[simp] theorem be_bytes_zero : be_bytes 0 = [] := by
  simp [be_bytes]

@[simp] theorem of_be_nil : of_be [] = 0 := by
  simp [of_be]

private theorem map_toNat_ofNat_digits (n : Nat) :
    ((Nat.digits 256 n).map UInt8.ofNat).map UInt8.toNat = Nat.digits 256 n := by
  -- a digit in base 256 is a byte: going through `UInt8` does not change it
  rw [List.map_map]
  conv_rhs => rw [← List.map_id (Nat.digits 256 n)]
  apply List.map_congr_left
  intro d hd
  have hlt : d < 256 := Nat.digits_lt_base (by omega) hd
  simp only [Function.comp_apply, id_eq, UInt8.toNat_ofNat']
  omega

/-- **Round trip**: a numeral denotes the number it was made from. -/
@[simp] theorem of_be_be_bytes (n : Nat) : of_be (be_bytes n) = n := by
  unfold of_be be_bytes
  rw [← List.map_reverse, List.reverse_reverse, map_toNat_ofNat_digits, Nat.ofDigits_digits]

theorem be_bytes_inj {m n : Nat} (h : be_bytes m = be_bytes n) : m = n := by
  have := congrArg of_be h
  simpa using this

theorem be_bytes_eq_nil {n : Nat} : be_bytes n = [] ↔ n = 0 := by
  constructor
  · intro h
    apply be_bytes_inj
    rw [h, be_bytes_zero]
  · intro h
    rw [h]
    exact be_bytes_zero

/-- A number below `256 ^ k` has at most `k` bytes. -/
theorem be_bytes_length_le {n k : Nat} (h : n < 256 ^ k) : (be_bytes n).length ≤ k := by
  unfold be_bytes
  rw [List.length_map, List.length_reverse]
  exact (Nat.digits_length_le_iff (by omega) n).mpr h

/-- A numeral has no leading zero byte. -/
theorem be_bytes_head_ne_zero (n : Nat) : (be_bytes n).head? ≠ some 0 := by
  intro h
  by_cases hn : n = 0
  · subst hn
    simp at h
  · -- the first byte is the last digit, and that one is not zero
    have hne : Nat.digits 256 n ≠ [] := Nat.digits_ne_nil_iff_ne_zero.mpr hn
    have hlast := Nat.getLast_digit_ne_zero 256 hn
    have hlt : (Nat.digits 256 n).getLast hne < 256 :=
      Nat.digits_lt_base (by omega) (List.getLast_mem hne)
    unfold be_bytes at h
    rw [List.head?_map, List.head?_reverse, List.getLast?_eq_getLast_of_ne_nil hne] at h
    simp only [Option.map_some, Option.some.injEq] at h
    have h0 := congrArg UInt8.toNat h
    rw [UInt8.toNat_ofNat'] at h0
    simp at h0
    omega

/-! ## Fixed-width numerals -/

/-- `n` in exactly `k` big-endian bytes, for `n < 256 ^ k`. -/
def be_fixed (k n : Nat) : List UInt8 :=
  List.replicate (k - (be_bytes n).length) 0 ++ be_bytes n

/-- The low `k` bytes of `n`, most significant first. -/
def be_low (k n : Nat) : List.Vector UInt8 k :=
  List.Vector.ofFn fun i => UInt8.ofNat (n >>> (8 * (k - 1 - i.val)))

theorem be_fixed_length {k n : Nat} (h : n < 256 ^ k) : (be_fixed k n).length = k := by
  have := be_bytes_length_le h
  simp [be_fixed]
  omega

theorem of_be_lt (l : List UInt8) : of_be l < 256 ^ l.length := by
  unfold of_be
  have h : Nat.ofDigits 256 (l.reverse.map UInt8.toNat) <
      256 ^ (l.reverse.map UInt8.toNat).length := by
    apply Nat.ofDigits_lt_base_pow_length (by omega)
    intro d hd
    obtain ⟨b, -, rfl⟩ := List.mem_map.mp hd
    exact b.toNat_lt
  simpa using h

theorem of_be_cons (b : UInt8) (l : List UInt8) :
    of_be (b :: l) = b.toNat * 256 ^ l.length + of_be l := by
  simp [of_be, Nat.ofDigits_append]
  ring

/-- A leading zero byte changes nothing. -/
theorem of_be_zero_cons (l : List UInt8) : of_be (0 :: l) = of_be l := by
  simp [of_be_cons]

/-- Bytes without a leading zero are the numeral of what they denote. -/
theorem be_bytes_of_be_cons {b : UInt8} (hb : b ≠ 0) (l : List UInt8) :
    be_bytes (of_be (b :: l)) = b :: l := by
  have hdigits : Nat.digits 256 (of_be (b :: l)) = (b :: l).reverse.map UInt8.toNat := by
    apply Nat.digits_ofDigits 256 (by omega)
    · intro d hd
      obtain ⟨x, -, rfl⟩ := List.mem_map.mp hd
      exact x.toNat_lt
    · intro hne hlast
      -- the last digit is the first byte
      apply hb
      apply UInt8.toNat_inj.mp
      simpa using hlast
  unfold be_bytes
  rw [hdigits, ← List.map_reverse, List.reverse_reverse, List.map_map]
  conv_rhs => rw [← List.map_id (b :: l)]
  exact List.map_congr_left fun x _ => by simp

/-- **Round trip**: bytes are the numeral, in as many bytes, of what they
    denote. -/
theorem be_fixed_of_be (l : List UInt8) : be_fixed l.length (of_be l) = l := by
  induction l with
  | nil => simp [be_fixed]
  | cons b l ih =>
    by_cases hb : b = 0
    · -- a zero byte is filled in
      subst hb
      have hle : (be_bytes (of_be l)).length ≤ l.length := be_bytes_length_le (of_be_lt l)
      rw [of_be_zero_cons]
      unfold be_fixed at ih ⊢
      rw [List.length_cons, show l.length + 1 - (be_bytes (of_be l)).length =
        (l.length - (be_bytes (of_be l)).length) + 1 by omega, List.replicate_succ,
        List.cons_append, ih]
    · unfold be_fixed
      rw [be_bytes_of_be_cons hb, Nat.sub_self]
      rfl

/-- `n` in exactly `k` little-endian bytes, higher bytes dropped. -/
def le_fixed : Nat → Nat → List UInt8
  | 0, _ => []
  | k + 1, n => UInt8.ofNat n :: le_fixed k (n / 256)

/-- The number a little-endian byte string denotes. -/
def of_le : List UInt8 → Nat
  | [] => 0
  | b :: bs => b.toNat + 256 * of_le bs

@[simp] theorem le_fixed_length (k n : Nat) : (le_fixed k n).length = k := by
  induction k generalizing n with
  | zero => rfl
  | succ k ih => simp [le_fixed, ih]

/-- **Round trip**, where the number fits. -/
theorem of_le_le_fixed {k n : Nat} (h : n < 256 ^ k) : of_le (le_fixed k n) = n := by
  -- by the recursion of `le_fixed`, which divides the number as it goes
  induction k generalizing n with
  | zero =>
    have : n = 0 := by simpa using h
    subst this
    rfl
  | succ k ih =>
    have hdiv : n / 256 < 256 ^ k := by
      rw [pow_succ] at h
      exact Nat.div_lt_of_lt_mul (by omega)
    simp only [le_fixed, of_le, ih hdiv, UInt8.toNat_ofNat']
    omega

/-- **Round trip**: the bytes a number was read from are written again. -/
theorem le_fixed_of_le (l : List UInt8) : le_fixed l.length (of_le l) = l := by
  induction l with
  | nil => rfl
  | cons b bs ih =>
    have hb : b.toNat < 256 := b.toNat_lt
    have hhead : UInt8.ofNat (b.toNat + 256 * of_le bs) = b := by
      apply UInt8.toNat_inj.mp
      rw [UInt8.toNat_ofNat']
      omega
    have htail : (b.toNat + 256 * of_le bs) / 256 = of_le bs := by omega
    simp only [List.length_cons, of_le, le_fixed, hhead, htail, ih]

theorem of_le_lt (l : List UInt8) : of_le l < 256 ^ l.length := by
  induction l with
  | nil => simp [of_le]
  | cons b bs ih =>
    have hb : b.toNat < 256 := b.toNat_lt
    simp only [of_le, List.length_cons, pow_succ]
    omega

/-! ## Bounded byte vectors -/

/-- A byte vector of fewer than `bound` bytes. -/
structure ByteVec (bound : Nat) where
  data : List UInt8
  length_lt : data.length < bound
  deriving DecidableEq

namespace ByteVec

variable {b c : Nat}

@[ext] theorem ext {v w : ByteVec b} (h : v.data = w.data) : v = w := by
  cases v
  cases w
  cases h
  rfl

/-- The vector of a byte string, when it fits. -/
def ofList? (l : List UInt8) : Option (ByteVec b) :=
  if h : l.length < b then some ⟨l, h⟩ else none

theorem ofList?_eq_some {l : List UInt8} {v : ByteVec b} (h : ofList? l = some v) :
    v.data = l := by
  unfold ofList? at h
  split at h
  · cases h
    rfl
  · cases h

@[simp] theorem ofList?_data (v : ByteVec b) : ofList? v.data = some v := by
  simp [ofList?, v.length_lt]

/-- The same bytes under a larger bound. -/
def widen (v : ByteVec b) (h : b ≤ c) : ByteVec c :=
  ⟨v.data, lt_of_lt_of_le v.length_lt h⟩

@[simp] theorem widen_data (v : ByteVec b) (h : b ≤ c) : (v.widen h).data = v.data := rfl

/-- The first `n` bytes. -/
def take (v : ByteVec b) (n : Nat) : ByteVec b :=
  ⟨v.data.take n, lt_of_le_of_lt (List.length_take_le' n v.data) v.length_lt⟩

/-- All but the first `n` bytes. -/
def drop (v : ByteVec b) (n : Nat) : ByteVec b :=
  ⟨v.data.drop n, lt_of_le_of_lt (by simp) v.length_lt⟩

@[simp] theorem take_data (v : ByteVec b) (n : Nat) : (v.take n).data = v.data.take n := rfl

@[simp] theorem drop_data (v : ByteVec b) (n : Nat) : (v.drop n).data = v.data.drop n := rfl

end ByteVec
