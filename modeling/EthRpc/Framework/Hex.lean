import EthRpc.Framework.Bytes

/-! # Hexadecimal strings

    Two ways to write in base 16: bytes with two digits each, as the crate
    `hex` does, and numbers with as few digits as possible, as the format
    `x` does. The digits written are in lower case; both cases are read.
-/

namespace Hex

/-- The value of a digit. -/
def digit_value (c : Char) : Option Nat :=
  if '0' ≤ c ∧ c ≤ '9' then some (c.toNat - 48)
  else if 'a' ≤ c ∧ c ≤ 'f' then some (c.toNat - 87)
  else if 'A' ≤ c ∧ c ≤ 'F' then some (c.toNat - 55)
  else none

theorem digit_value_digitChar {d : Nat} (h : d < 16) : digit_value d.digitChar = some d := by
  have hall : ∀ d < 16, digit_value (Nat.digitChar d) = some d := by decide
  exact hall d h

/-! ## Bytes -/

/-- `hex::encode`. -/
def encode : List UInt8 → List Char
  | [] => []
  | b :: l => (b.toNat / 16).digitChar :: (b.toNat % 16).digitChar :: encode l

/-- `hex::decode`. -/
def decode : List Char → Option (List UInt8)
  | [] => some []
  | [_] => none
  | a :: b :: s => do
    let hi ← digit_value a
    let lo ← digit_value b
    let l ← decode s
    return UInt8.ofNat (16 * hi + lo) :: l

/-- **Round trip** of byte strings. -/
@[simp] theorem decode_encode (l : List UInt8) : decode (encode l) = some l := by
  induction l with
  | nil => rfl
  | cons b l ih =>
    have hb := b.toNat_lt
    have hhi : digit_value (b.toNat / 16).digitChar = some (b.toNat / 16) :=
      digit_value_digitChar (by omega)
    have hlo : digit_value (b.toNat % 16).digitChar = some (b.toNat % 16) :=
      digit_value_digitChar (by omega)
    simp only [encode, decode, hhi, hlo, ih, Option.bind_eq_bind, Option.bind_some]
    rw [Nat.div_add_mod, UInt8.ofNat_toNat]
    rfl

@[simp] theorem encode_length (l : List UInt8) : (encode l).length = 2 * l.length := by
  induction l with
  | nil => rfl
  | cons b l ih =>
    simp only [encode, List.length_cons, ih]
    omega

/-! ## Numbers -/

/-- `format!("{:x}")`. -/
def of_nat (n : Nat) : List Char := Nat.toDigits 16 n

/-- One more digit of a number. -/
def push_digit (n : Nat) (c : Char) : Option Nat := (digit_value c).map (16 * n + ·)

/-- The number some digits denote; zero for no digits. -/
def to_nat (s : List Char) : Option Nat := s.foldlM push_digit 0

/-- **Round trip** of numbers. -/
@[simp] theorem to_nat_of_nat (n : Nat) : to_nat (of_nat n) = some n := by
  unfold to_nat of_nat
  -- by the recursion of the digits, least significant last
  induction n using Nat.strong_induction_on with
  | _ n ih =>
    rw [Nat.toDigits_eq_if (by omega)]
    by_cases hn : n < 16
    · rw [if_pos hn]
      simp [push_digit, digit_value_digitChar hn]
    · rw [if_neg hn, List.foldlM_append, ih (n / 16) (by omega)]
      simp [push_digit, digit_value_digitChar (Nat.mod_lt n (by omega : 16 > 0)), Nat.div_add_mod]

theorem of_nat_ne_nil (n : Nat) : of_nat n ≠ [] := Nat.toDigits_ne_nil

/-- A number below `16 ^ k` has at most `k` digits. -/
theorem of_nat_length_le {n k : Nat} (hk : 0 < k) (h : n < 16 ^ k) : (of_nat n).length ≤ k :=
  (Nat.length_toDigits_le_iff (by omega) hk).mpr h

/-- Only digits are read. -/
theorem digit_of_to_nat {s : List Char} {n : Nat} (h : to_nat s = some n) :
    ∀ c ∈ s, (digit_value c).isSome := by
  unfold to_nat at h
  -- from any number that is read so far
  generalize 0 = m at h
  induction s generalizing m with
  | nil => simp
  | cons c s ih =>
    obtain ⟨k, hk, hs⟩ := Option.bind_eq_some_iff.mp h
    obtain ⟨d, hd, -⟩ := Option.map_eq_some_iff.mp hk
    intro c' hc'
    rcases List.mem_cons.mp hc' with rfl | hmem
    · rw [hd]
      rfl
    · exact ih k hs c' hmem

theorem notMem_of_to_nat {s : List Char} {n : Nat} {c : Char} (h : to_nat s = some n)
    (hc : digit_value c = none) : c ∉ s := by
  intro hmem
  have hdigit := digit_of_to_nat h c hmem
  rw [hc] at hdigit
  simp at hdigit

/-- Digits that are read after a number make it larger by a power of sixteen. -/
theorem foldlM_push_digit (s : List Char) (n : Nat) :
    s.foldlM push_digit n = (to_nat s).map fun m => n * 16 ^ s.length + m := by
  unfold to_nat
  induction s generalizing n with
  | nil => simp
  | cons c s ih =>
    simp only [List.foldlM_cons, push_digit]
    cases hc : digit_value c with
    | none => rfl
    | some d =>
      simp only [Option.map_some, Option.bind_eq_bind, Option.bind_some]
      rw [ih (16 * n + d), ih (16 * 0 + d), Option.map_map]
      congr 1
      funext m
      simp only [Function.comp_apply, List.length_cons, pow_succ]
      ring

theorem to_nat_cons (c : Char) (s : List Char) :
    to_nat (c :: s) = (digit_value c).bind fun d => (to_nat s).map fun m => d * 16 ^ s.length + m := by
  show (c :: s).foldlM push_digit 0 = _
  rw [List.foldlM_cons, push_digit]
  cases hc : digit_value c with
  | none => rfl
  | some d =>
    simp only [Option.map_some, Option.bind_eq_bind, Option.bind_some]
    rw [foldlM_push_digit, Nat.mul_zero, Nat.zero_add]

theorem digit_value_lt {c : Char} {d : Nat} (h : digit_value c = some d) : d < 16 := by
  have hle {c' : Char} (h : c ≤ c') : c.toNat ≤ c'.toNat := UInt32.le_iff_toNat_le.mp h
  unfold digit_value at h
  split at h
  · next hc =>
    have hmax : c.toNat ≤ 57 := hle hc.2
    obtain rfl := Option.some.inj h
    omega
  · split at h
    · next hc =>
      have hmax : c.toNat ≤ 102 := hle hc.2
      obtain rfl := Option.some.inj h
      omega
    · split at h
      · next hc =>
        have hmax : c.toNat ≤ 70 := hle hc.2
        obtain rfl := Option.some.inj h
        omega
      · simp at h

/-- Numbers that are read have as many digits as were read. -/
theorem to_nat_lt {s : List Char} {n : Nat} (h : to_nat s = some n) : n < 16 ^ s.length := by
  induction s generalizing n with
  | nil =>
    obtain rfl : 0 = n := Option.some.inj h
    simp
  | cons c s ih =>
    rw [to_nat_cons] at h
    obtain ⟨d, hd, h⟩ := Option.bind_eq_some_iff.mp h
    obtain ⟨m, hm, rfl⟩ := Option.map_eq_some_iff.mp h
    have hdigit := digit_value_lt hd
    have hrest := ih hm
    rw [List.length_cons, pow_succ]
    nlinarith

/-- The first byte and the other ones, of a number. -/
theorem byte_of_number {hi lo m k b n : Nat} (hm : m < 256 ^ k) (hn : n < 256 ^ k) :
    hi * 16 ^ (2 * k + 1) + (lo * 16 ^ (2 * k) + m) = b * 256 ^ k + n ↔
      16 * hi + lo = b ∧ m = n := by
  have hpow : 16 ^ (2 * k) = 256 ^ k := by
    rw [pow_mul]
    norm_num
  have hsum : hi * 16 ^ (2 * k + 1) + (lo * 16 ^ (2 * k) + m) = (16 * hi + lo) * 256 ^ k + m := by
    rw [pow_succ, hpow]
    ring
  rw [hsum]
  constructor
  · intro h
    have hpos : 0 < 256 ^ k := Nat.pow_pos (by decide)
    have hquot := congrArg (· / 256 ^ k) h
    have hmod := congrArg (· % 256 ^ k) h
    simp only [Nat.add_comm _ m, Nat.add_comm _ n, Nat.add_mul_div_right _ _ hpos,
      Nat.div_eq_of_lt hm, Nat.div_eq_of_lt hn, Nat.zero_add, Nat.add_mul_mod_self_right,
      Nat.mod_eq_of_lt hm, Nat.mod_eq_of_lt hn] at hquot hmod
    exact ⟨hquot, hmod⟩
  · rintro ⟨rfl, rfl⟩
    rfl

theorem decode_cons_cons (a b : Char) (s : List Char) :
    decode (a :: b :: s) = (digit_value a).bind fun hi => (digit_value b).bind fun lo =>
      (decode s).map fun l => UInt8.ofNat (16 * hi + lo) :: l := by
  rw [decode]
  cases digit_value a with
  | none => rfl
  | some hi =>
    cases digit_value b with
    | none => rfl
    | some lo =>
      cases decode s with
      | none => rfl
      | some l => rfl

/-- **Bytes are numbers.** The bytes that are read have two digits each, and are
    those of the number that is read. -/
theorem decode_eq_some_iff {s : List Char} {l : List UInt8} :
    decode s = some l ↔ s.length = 2 * l.length ∧ to_nat s = some (of_be l) := by
  induction s using decode.induct generalizing l with
  | case1 =>
    cases l with
    | nil => simp [decode, to_nat]
    | cons b l => simp [decode]
  | case2 c =>
    constructor
    · intro h
      simp [decode] at h
    · rintro ⟨hlen, -⟩
      rw [List.length_singleton] at hlen
      omega
  | case3 a b s ih =>
    rw [decode_cons_cons, to_nat_cons]
    simp only [to_nat_cons, Option.bind_eq_some_iff, Option.map_eq_some_iff]
    constructor
    · rintro ⟨hi, ha, lo, hb, rest, hrest, rfl⟩
      obtain ⟨hlen, hnum⟩ := ih.mp hrest
      have hhi := digit_value_lt ha
      have hlo := digit_value_lt hb
      have hbyte : (UInt8.ofNat (16 * hi + lo)).toNat = 16 * hi + lo := by
        rw [UInt8.toNat_ofNat']
        omega
      refine ⟨by simp only [List.length_cons]; omega, hi, ha, _, ⟨lo, hb, _, hnum, rfl⟩, ?_⟩
      rw [of_be_cons, hbyte, List.length_cons, hlen]
      exact (byte_of_number (of_be_lt rest) (of_be_lt rest)).mpr ⟨rfl, rfl⟩
    · rintro ⟨hlen, hi, ha, m, ⟨lo, hb, n, hn, rfl⟩, hnum⟩
      cases l with
      | nil => simp at hlen
      | cons x l =>
        have hrestlen : s.length = 2 * l.length := by
          simp only [List.length_cons] at hlen
          omega
        have hmax : n < 256 ^ l.length := by
          have hlt := to_nat_lt hn
          rw [hrestlen, pow_mul] at hlt
          norm_num at hlt
          exact hlt
        rw [of_be_cons, List.length_cons, hrestlen, byte_of_number hmax (of_be_lt l)] at hnum
        obtain ⟨hx, rfl⟩ := hnum
        refine ⟨hi, ha, lo, hb, l, ih.mpr ⟨hrestlen, hn⟩, ?_⟩
        rw [hx, UInt8.ofNat_toNat]

/-- The digits of bytes, read as one number, are the big-endian number. -/
theorem to_nat_encode (l : List UInt8) : to_nat (encode l) = some (of_be l) :=
  (decode_eq_some_iff.mp (decode_encode l)).2

/-- An even number of digits are bytes. -/
theorem exists_decode {s : List Char} {k : Nat} (hlen : s.length = 2 * k)
    (h : ∀ c ∈ s, (digit_value c).isSome) : ∃ l, decode s = some l ∧ l.length = k := by
  have hdecode : ∃ l, decode s = some l := by
    induction s using decode.induct generalizing k with
    | case1 => exact ⟨[], rfl⟩
    | case2 c =>
      rw [List.length_singleton] at hlen
      omega
    | case3 a b s ih =>
      obtain ⟨hi, ha⟩ := Option.isSome_iff_exists.mp (h a (by simp))
      obtain ⟨lo, hb⟩ := Option.isSome_iff_exists.mp (h b (by simp))
      obtain ⟨l, hl⟩ := ih (k := k - 1) (by simp only [List.length_cons] at hlen; omega)
        fun c hc => h c (by simp [hc])
      rw [decode_cons_cons, ha, hb, hl]
      exact ⟨_, rfl⟩
  obtain ⟨l, hl⟩ := hdecode
  have hcount := (decode_eq_some_iff.mp hl).1
  exact ⟨l, hl, by omega⟩

end Hex
