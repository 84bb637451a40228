import EthRpc.Api.JsonTypes

/-! # Strings of bytes

    `Byte`, `Bytes` and `Bytes256` are written with `0x` in front of their
    digits. What is read takes off every `0x` that is there, and leaves the rest
    to a reader of digits.

    * `denotes_iff`: one prefix and then digits, told from what is left.
    * `Byte.from_hex_iff`, `Bytes.from_hex_iff`, `Bytes256.from_hex_iff`: the
      strings that are read, and what is read from them.
    * `hex_strings_exact`: where only strings in the format are read.
-/

namespace EthRpc

/-! ## Arrays of bytes -/

/-- `Bytes256([u8; 256])`. -/
abbrev Bytes256 := List.Vector UInt8 256

/-- `HexCodec::to_hex` of `[u8; 256]`. -/
def Bytes256.to_hex (b : Bytes256) : String := .ofList ('0' :: 'x' :: Hex.encode b.toList)

/-- `HexCodec::from_hex` of `[u8; 256]`. -/
def Bytes256.from_hex (s : String) : Option Bytes256 :=
  (Hex.decode (trim_start_0x s.toList)).bind fun l => if h : l.length = 256 then some ⟨l, h⟩ else none

theorem Bytes256.from_hex_to_hex (b : Bytes256) : from_hex (to_hex b) = some b := by
  unfold from_hex to_hex
  rw [String.toList_ofList, trim_start_0x_of_to_nat (Hex.to_nat_encode b.toList), Hex.decode_encode,
    Option.bind_some, dif_pos b.toList_length]
  rfl

/-- `Bytes::from_str`. -/
def Bytes.from_str (s : String) : Option Bytes :=
  (Hex.decode (trim_start_0x s.toList)).bind ByteVec.ofList?

/-! ## Prefixes -/

/-- How often `0x` is repeated at the start. -/
def prefixes : List Char → Nat
  | '0' :: 'x' :: s => prefixes s + 1
  | _ => 0

theorem prefixes_of_notMem {s : List Char} (h : 'x' ∉ s) : prefixes s = 0 := by
  unfold prefixes
  split
  · simp at h
  · rfl

theorem trim_start_0x_of_prefixes {s : List Char} (h : prefixes s = 0) : trim_start_0x s = s := by
  unfold trim_start_0x
  split
  · simp [prefixes] at h
  · rfl

/-- One `0x`, and what follows has no other. -/
theorem eq_one_prefix_iff {s digits : List Char} (hdigits : prefixes digits = 0) :
    s = '0' :: 'x' :: digits ↔ prefixes s = 1 ∧ trim_start_0x s = digits := by
  constructor
  · rintro rfl
    rw [prefixes, trim_start_0x, hdigits]
    exact ⟨rfl, trim_start_0x_of_prefixes hdigits⟩
  · rintro ⟨hone, rfl⟩
    unfold prefixes at hone
    split at hone
    · next rest =>
      have hrest : prefixes rest = 0 := by omega
      rw [trim_start_0x, trim_start_0x_of_prefixes hrest]
    · simp at hone

/-! ## The format -/

/-- One `0x` and nothing but digits, as many as are asked for, that denote the
    value. -/
def Denotes (count : Nat → Prop) (value : Nat) (s : String) : Prop :=
  ∃ digits, s.toList = '0' :: 'x' :: digits ∧ count digits.length ∧ Hex.to_nat digits = some value

theorem prefixes_of_to_nat {digits : List Char} {value : Nat}
    (h : Hex.to_nat digits = some value) : prefixes digits = 0 :=
  prefixes_of_notMem (Hex.notMem_of_to_nat h (by decide))

theorem denotes_iff {count : Nat → Prop} {value : Nat} {s : String} :
    Denotes count value s ↔ prefixes s.toList = 1 ∧ count (trim_start_0x s.toList).length ∧
      Hex.to_nat (trim_start_0x s.toList) = some value := by
  constructor
  · rintro ⟨digits, heq, hcount, hvalue⟩
    obtain ⟨hone, rfl⟩ := (eq_one_prefix_iff (prefixes_of_to_nat hvalue)).mp heq
    exact ⟨hone, hcount, hvalue⟩
  · rintro ⟨hone, hcount, hvalue⟩
    exact ⟨_, (eq_one_prefix_iff (prefixes_of_to_nat hvalue)).mpr ⟨hone, rfl⟩, hcount, hvalue⟩

/-- The format of a byte: one digit or two. -/
def Byte.Format (s : String) (x : UInt8) : Prop := Denotes (fun n => n = 1 ∨ n = 2) x.toNat s

/-- The format of bytes: two digits each. -/
def Bytes.Format (s : String) (x : Bytes) : Prop :=
  Denotes (fun n => n = 2 * x.data.length) (of_be x.data) s

def Bytes256.Format (s : String) (x : Bytes256) : Prop := Denotes (fun n => n = 512) (of_be x.toList) s

/-! ## What is read -/

section
variable {s : String}

/-- What is left has digits, perhaps after a plus sign. -/
theorem Byte.from_hex_iff {x : UInt8} :
    Byte.from_hex s = some x ↔ strip_plus (trim_start_0x s.toList) ≠ [] ∧
      Hex.to_nat (strip_plus (trim_start_0x s.toList)) = some x.toNat := by
  unfold Byte.from_hex u8_from_str_radix
  by_cases hempty : strip_plus (trim_start_0x s.toList) = []
  · simp [hempty]
  · simp only [ne_eq, hempty, not_false_eq_true, true_and, if_false]
    constructor
    · intro h
      obtain ⟨n, hn, hx⟩ := Option.bind_eq_some_iff.mp h
      by_cases hlt : n < 256
      · rw [if_pos hlt] at hx
        obtain rfl := Option.some.inj hx
        rw [hn, UInt8.toNat_ofNat', Nat.mod_eq_of_lt hlt]
      · rw [if_neg hlt] at hx
        simp at hx
    · intro h
      rw [h, Option.bind_some, if_pos x.toNat_lt, UInt8.ofNat_toNat]

theorem Bytes.from_hex_iff {x : Bytes} :
    Bytes.from_hex s = some x ↔ (trim_start_0x s.toList).length = 2 * x.data.length ∧
      Hex.to_nat (trim_start_0x s.toList) = some (of_be x.data) := by
  rw [← Hex.decode_eq_some_iff]
  unfold Bytes.from_hex
  constructor
  · intro h
    obtain ⟨l, hl, hx⟩ := Option.bind_eq_some_iff.mp h
    rw [hl, ByteVec.ofList?_eq_some hx]
  · intro h
    rw [h, Option.bind_some, ByteVec.ofList?_data]

theorem Bytes256.from_hex_iff {x : Bytes256} :
    Bytes256.from_hex s = some x ↔ (trim_start_0x s.toList).length = 512 ∧
      Hex.to_nat (trim_start_0x s.toList) = some (of_be x.toList) := by
  have hlen : 512 = 2 * x.toList.length := by rw [x.toList_length]
  rw [hlen, ← Hex.decode_eq_some_iff]
  unfold Bytes256.from_hex
  constructor
  · intro h
    obtain ⟨l, hl, hx⟩ := Option.bind_eq_some_iff.mp h
    by_cases hcount : l.length = 256
    · rw [dif_pos hcount] at hx
      obtain rfl := Option.some.inj hx
      exact hl
    · rw [dif_neg hcount] at hx
      simp at hx
  · intro h
    rw [h, Option.bind_some, dif_pos x.toList_length]
    rfl

end

/-! ## Strings that should not be read -/

/-- Nothing but digits, as many as are asked for. -/
def HasDigits (count : Nat → Prop) (s : List Char) : Prop :=
  count s.length ∧ ∀ c ∈ s, (Hex.digit_value c).isSome

/-- Bytes without `0x`, or with more than one. -/
def Bytes.Lenient (s : String) : Prop :=
  prefixes s.toList ≠ 1 ∧ HasDigits (fun n => n % 2 = 0 ∧ n < 2 ^ 64) (trim_start_0x s.toList)

def Bytes256.Lenient (s : String) : Prop :=
  prefixes s.toList ≠ 1 ∧ HasDigits (fun n => n = 512) (trim_start_0x s.toList)

/-- A number below 256 without `0x` or with more than one, after a plus sign, or
    with leading zeros. -/
def Byte.Lenient (s : String) : Prop :=
  let rest := trim_start_0x s.toList
  let digits := strip_plus rest
  digits ≠ [] ∧ (∃ n < 256, Hex.to_nat digits = some n) ∧
    (prefixes s.toList ≠ 1 ∨ digits ≠ rest ∨ 2 < digits.length)

section
variable {s : String}

/-- Where what is left is looked at in the right way, the prefix decides. -/
theorem exact_iff {T : Type} {read : Option T} {accepts format : T → Prop}
    (hread : ∀ x, read = some x ↔ accepts x)
    (hformat : ∀ x, format x ↔ prefixes s.toList = 1 ∧ accepts x) :
    (∀ x, read = some x ↔ format x) ↔ ¬ (prefixes s.toList ≠ 1 ∧ ∃ x, accepts x) := by
  constructor
  · rintro hexact ⟨hprefixes, x, hx⟩
    exact hprefixes ((hformat x).mp ((hexact x).mp ((hread x).mpr hx))).1
  · intro hone x
    rw [hread, hformat]
    constructor
    · intro hx
      by_contra hprefixes
      exact hone ⟨fun heq => hprefixes ⟨heq, hx⟩, x, hx⟩
    · exact And.right

theorem Bytes.exact_iff :
    (∀ x, Bytes.from_hex s = some x ↔ Bytes.Format s x) ↔ ¬ Bytes.Lenient s := by
  rw [EthRpc.exact_iff (fun x => Bytes.from_hex_iff) (fun x => denotes_iff)]
  unfold Bytes.Lenient
  rw [not_iff_not, and_congr_right_iff]
  intro _
  constructor
  · rintro ⟨x, hlen, hvalue⟩
    have hx := x.length_lt
    exact ⟨⟨by omega, by omega⟩, Hex.digit_of_to_nat hvalue⟩
  · rintro ⟨⟨heven, hmax⟩, hdigits⟩
    obtain ⟨l, hl, hcount⟩ := Hex.exists_decode
      (k := (trim_start_0x s.toList).length / 2) (by omega) hdigits
    exact ⟨⟨l, by omega⟩, Hex.decode_eq_some_iff.mp hl⟩

theorem Bytes256.exact_iff :
    (∀ x, Bytes256.from_hex s = some x ↔ Bytes256.Format s x) ↔ ¬ Bytes256.Lenient s := by
  rw [EthRpc.exact_iff (fun x => Bytes256.from_hex_iff) (fun x => denotes_iff)]
  unfold Bytes256.Lenient
  rw [not_iff_not, and_congr_right_iff]
  intro _
  constructor
  · rintro ⟨x, hlen, hvalue⟩
    exact ⟨hlen, Hex.digit_of_to_nat hvalue⟩
  · rintro ⟨hlen, hdigits⟩
    obtain ⟨l, hl, hcount⟩ := Hex.exists_decode (k := 256) hlen hdigits
    exact ⟨⟨l, hcount⟩, hlen, (Hex.decode_eq_some_iff.mp hl).2⟩

theorem Byte.exact_iff :
    (∀ x, Byte.from_hex s = some x ↔ Byte.Format s x) ↔ ¬ Byte.Lenient s := by
  have hformat : ∀ x, Byte.Format s x ↔ prefixes s.toList = 1 ∧
      ((trim_start_0x s.toList).length = 1 ∨ (trim_start_0x s.toList).length = 2) ∧
      Hex.to_nat (trim_start_0x s.toList) = some x.toNat := fun x => denotes_iff
  simp only [Byte.from_hex_iff, hformat, Byte.Lenient]
  generalize trim_start_0x s.toList = rest
  constructor
  · rintro hexact ⟨hempty, ⟨n, hlt, hn⟩, hlenient⟩
    have hbyte : (UInt8.ofNat n).toNat = n := by
      rw [UInt8.toNat_ofNat', Nat.mod_eq_of_lt hlt]
    obtain ⟨hone, hlen, hvalue⟩ := (hexact (UInt8.ofNat n)).mp ⟨hempty, by rw [hbyte, hn]⟩
    have hplus := strip_plus_of_to_nat hvalue
    rcases hlenient with hprefixes | hstripped | hlong
    · exact hprefixes hone
    · exact hstripped hplus
    · rw [hplus] at hlong
      omega
  · intro hstrict x
    constructor
    · rintro ⟨hempty, hvalue⟩
      have hx := x.toNat_lt
      by_contra hnot
      apply hstrict
      refine ⟨hempty, ⟨x.toNat, hx, hvalue⟩, ?_⟩
      by_contra hfits
      push Not at hfits
      obtain ⟨hone, hstripped, hlen⟩ := hfits
      rw [hstripped] at hempty hvalue hlen
      have hpos := List.length_pos_iff.mpr hempty
      exact hnot ⟨hone, by omega, hvalue⟩
    · rintro ⟨-, hlen, hvalue⟩
      rw [strip_plus_of_to_nat hvalue]
      refine ⟨?_, hvalue⟩
      intro hempty
      rw [hempty] at hlen
      simp at hlen

end

/-! ## The three types -/

/-- When each of the types reads the string exactly as its format says; and
    what is written is read back. -/
structure HexStringsExact (s : String) : Prop where
  byte : (∀ x, Byte.from_hex s = some x ↔ Byte.Format s x) ↔ ¬ Byte.Lenient s
  bytes : (∀ x, Bytes.from_hex s = some x ↔ Bytes.Format s x) ↔ ¬ Bytes.Lenient s
  bytes_from_str : (∀ x, Bytes.from_str s = some x ↔ Bytes.Format s x) ↔ ¬ Bytes.Lenient s
  bytes256 : (∀ x, Bytes256.from_hex s = some x ↔ Bytes256.Format s x) ↔ ¬ Bytes256.Lenient s
  byte_back : ∀ x, Byte.from_hex (Byte.to_hex x) = some x
  bytes_back : ∀ x, Bytes.from_hex (Bytes.to_hex x) = some x
  bytes256_back : ∀ x, Bytes256.from_hex (Bytes256.to_hex x) = some x

/-- **The strings of bytes**, exactly. -/
theorem hex_strings_exact (s : String) : HexStringsExact s where
  byte := Byte.exact_iff
  bytes := Bytes.exact_iff
  bytes_from_str := Bytes.exact_iff
  bytes256 := Bytes256.exact_iff
  byte_back := Byte.from_hex_to_hex
  bytes_back := Bytes.from_hex_to_hex
  bytes256_back := Bytes256.from_hex_to_hex

/-- A plus sign, a third digit and a second prefix are read for a byte, and a
    missing prefix for bytes. -/
theorem lenient_strings_read :
    Byte.from_hex "0x+7" = some 7 ∧ Byte.from_hex "0x007" = some 7 ∧
      Byte.from_hex "0x0x7" = some 7 ∧ (Bytes.from_hex "07").map (·.data) = some [7] ∧
      ¬ ∀ s x, Byte.from_hex s = some x ↔ Byte.Format s x := by
  refine ⟨by decide +kernel, by decide +kernel, by decide +kernel, by decide +kernel, ?_⟩
  intro hexact
  have hread : Byte.from_hex "0x+7" = some 7 := by decide +kernel
  obtain ⟨digits, heq, -, hvalue⟩ := (hexact "0x+7" 7).mp hread
  obtain rfl : digits = ['+', '7'] := by simpa using heq.symm
  revert hvalue
  decide

end EthRpc
