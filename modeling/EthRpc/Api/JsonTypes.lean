import EthRpc.Framework.Hex
import EthRpc.Framework.Serde
import EthRpc.Api.Types

/-! # JSON forms of the API types

    The strings of numbers, hashes, bytes, type identifiers and tags. Those
    of numbers and hashes belong to the crate `ethereum_types`; what it
    promises are the fields of `EthereumTypes`.

    The strings that are written have no escapes, so a reader of JSON text
    can borrow them, which the type identifiers rely on.
-/

namespace EthRpc

open Serde

/-! ## Numbers and hashes -/

/-- The string forms of `U256` and of the hashes. A number is written with
    as few digits as possible, and read from 1 to 64 digits; a hash of `n`
    bytes is written with `2 * n` digits, and read from exactly as many.
    Nothing but digits is read, with the `0x` in front or without. -/
structure EthereumTypes where
  u256_to_str : U256 → String
  u256_from_str : String → Option U256
  hash_to_str : ∀ {n : Nat}, List.Vector UInt8 n → String
  hash_from_str : ∀ {n : Nat}, String → Option (List.Vector UInt8 n)
  u256_to_str_eq : ∀ n, u256_to_str n = .ofList ('0' :: 'x' :: Hex.of_nat n.toNat)
  u256_from_str_eq : ∀ s, u256_from_str (.ofList ('0' :: 'x' :: s)) =
    if 1 ≤ s.length ∧ s.length ≤ 64 then (Hex.to_nat s).map (BitVec.ofNat 256) else none
  digit_of_u256_from_str : ∀ s n, u256_from_str (.ofList s) = some n →
    (∃ rest, s = '0' :: 'x' :: rest) ∨ ∀ c ∈ s, (Hex.digit_value c).isSome
  hash_to_str_eq : ∀ {n} (h : List.Vector UInt8 n),
    hash_to_str h = .ofList ('0' :: 'x' :: Hex.encode h.toList)
  hash_from_str_eq : ∀ {n} s, hash_from_str (.ofList ('0' :: 'x' :: s)) =
    (Hex.decode s).bind fun l => if h : l.length = n then some ⟨l, h⟩ else none

namespace EthereumTypes

variable (E : EthereumTypes)

def u256 : Codec U256 := .of_str E.u256_to_str E.u256_from_str fun n => by
  have hlen : (Hex.of_nat n.toNat).length ≤ 64 := by
    apply Hex.of_nat_length_le (by omega)
    have := n.isLt
    norm_num at this ⊢
    exact this
  have hpos : 1 ≤ (Hex.of_nat n.toNat).length :=
    List.length_pos_iff.mpr (Hex.of_nat_ne_nil n.toNat)
  rw [E.u256_to_str_eq, E.u256_from_str_eq, if_pos ⟨hpos, hlen⟩, Hex.to_nat_of_nat,
    Option.map_some, BitVec.ofNat_toNat, BitVec.setWidth_eq]

def hash (n : Nat) : Codec (List.Vector UInt8 n) := .of_str E.hash_to_str E.hash_from_str fun h => by
  rw [E.hash_to_str_eq, E.hash_from_str_eq, Hex.decode_encode, Option.bind_some,
    dif_pos h.toList_length]
  rfl

def h256 : Codec H256 := E.hash 32

def address : Codec Address := E.hash 20

/-- **A hash is a number.** The string of a hash of 32 bytes is read as a
    number, the one its bytes denote. -/
theorem u256_read_h256 (h : H256) :
    E.u256.read (E.h256.write h) = some (BitVec.ofNat 256 (of_be h.toList)) := by
  have hlen : (Hex.encode h.toList).length = 64 := by
    rw [Hex.encode_length, h.toList_length]
  change E.u256_from_str (E.hash_to_str h) = _
  rw [E.hash_to_str_eq, E.u256_from_str_eq, if_pos ⟨by omega, by omega⟩, Hex.to_nat_encode,
    Option.map_some]

/-- A string that has a character besides digits, and no `0x`, is no number. -/
theorem u256_from_str_eq_none {s : List Char} {c : Char} (hc : c ∈ s)
    (hdigit : Hex.digit_value c = none) (hhead : s.head? ≠ some '0') :
    E.u256_from_str (.ofList s) = none := by
  rw [Option.eq_none_iff_forall_not_mem]
  intro n hn
  rcases E.digit_of_u256_from_str s n hn with ⟨rest, rfl⟩ | hdigits
  · exact hhead rfl
  · have := hdigits c hc
    rw [hdigit] at this
    cases this

end EthereumTypes

/-! ## Bytes -/

/-- `trim_start_matches("0x")`: takes off as many as there are. -/
def trim_start_0x : List Char → List Char
  | '0' :: 'x' :: s => trim_start_0x s
  | s => s

/-- One plus sign in front of digits is allowed. -/
def strip_plus : List Char → List Char
  | '+' :: digits => digits
  | digits => digits

/-- `u8::from_str_radix(_, 16)`. -/
def u8_from_str_radix (s : List Char) : Option UInt8 :=
  let digits := strip_plus s
  if digits = [] then none
  else (Hex.to_nat digits).bind fun n => if n < 256 then some (UInt8.ofNat n) else none

/-- `HexCodec::to_hex` of `u8`. -/
def Byte.to_hex (b : UInt8) : String := .ofList ('0' :: 'x' :: Hex.of_nat b.toNat)

/-- `HexCodec::from_hex` of `u8`. -/
def Byte.from_hex (s : String) : Option UInt8 := u8_from_str_radix (trim_start_0x s.toList)

/-- `HexCodec::to_hex` of `Vec<u8>`. -/
def Bytes.to_hex (b : Bytes) : String := .ofList ('0' :: 'x' :: Hex.encode b.data)

/-- `HexCodec::from_hex` of `Vec<u8>`. -/
def Bytes.from_hex (s : String) : Option Bytes :=
  (Hex.decode (trim_start_0x s.toList)).bind ByteVec.ofList?

theorem trim_start_0x_of_notMem {s : List Char} (h : 'x' ∉ s) : trim_start_0x s = s := by
  unfold trim_start_0x
  split
  · simp at h
  · rfl

/-- What is written in front of digits is taken off, and no more. -/
theorem trim_start_0x_of_to_nat {s : List Char} {n : Nat} (h : Hex.to_nat s = some n) :
    trim_start_0x ('0' :: 'x' :: s) = s := by
  rw [trim_start_0x]
  exact trim_start_0x_of_notMem (Hex.notMem_of_to_nat h (by decide))

theorem strip_plus_of_to_nat {s : List Char} {n : Nat} (h : Hex.to_nat s = some n) :
    strip_plus s = s := by
  unfold strip_plus
  split
  · -- a plus sign is no digit
    exact absurd List.mem_cons_self (Hex.notMem_of_to_nat (c := '+') h (by decide))
  · rfl

theorem Byte.from_hex_to_hex (b : UInt8) : from_hex (to_hex b) = some b := by
  have hdigits := Hex.to_nat_of_nat b.toNat
  unfold from_hex to_hex u8_from_str_radix
  simp only [String.toList_ofList, trim_start_0x_of_to_nat hdigits, strip_plus_of_to_nat hdigits,
    if_neg (Hex.of_nat_ne_nil b.toNat), hdigits, Option.bind_some]
  rw [if_pos b.toNat_lt, UInt8.ofNat_toNat]

theorem Bytes.from_hex_to_hex (b : Bytes) : from_hex (to_hex b) = some b := by
  unfold from_hex to_hex
  rw [String.toList_ofList, trim_start_0x_of_to_nat (Hex.to_nat_encode b.data), Hex.decode_encode,
    Option.bind_some, ByteVec.ofList?_data]

def Byte.codec : Codec UInt8 := .of_str Byte.to_hex Byte.from_hex Byte.from_hex_to_hex

def Bytes.codec : Codec Bytes := .of_str Bytes.to_hex Bytes.from_hex Bytes.from_hex_to_hex

/-! ## Type identifiers -/

/-- Transaction type identifier 1. -/
inductive Type1 where
  | mk
  deriving DecidableEq, Repr

/-- Transaction type identifier 2. -/
inductive Type2 where
  | mk
  deriving DecidableEq, Repr

/-- A type with one value, of which the string is all there is. -/
def unit_codec {T : Type} (value : T) (text : String) (h : ∀ t, t = value) : Codec T :=
  .of_str (fun _ => text) (fun s => if s = text then some value else none) fun t => by
    rw [if_pos rfl, h t]

def Type0.codec : Codec Type0 := unit_codec .mk "0x0" fun t => by cases t; rfl

def Type1.codec : Codec Type1 := unit_codec .mk "0x1" fun t => by cases t; rfl

def Type2.codec : Codec Type2 := unit_codec .mk "0x2" fun t => by cases t; rfl

/-! ## Block tags -/

namespace BlockTag

def to_str : BlockTag → String
  | .Earliest => "earliest"
  | .Finalized => "finalized"
  | .Safe => "safe"
  | .Latest => "latest"
  | .Pending => "pending"

def from_str : String → Option BlockTag
  | "earliest" => some .Earliest
  | "finalized" => some .Finalized
  | "safe" => some .Safe
  | "latest" => some .Latest
  | "pending" => some .Pending
  | _ => none

/-- An enum of tags. The name is written alone, and also read from an object
    that gives it no content. -/
def codec : Codec BlockTag where
  write tag := .str tag.to_str
  read
    | .str s => from_str s
    | .obj [(s, .null)] => from_str s
    | _ => none
  read_write tag := by
    cases tag with
    | Earliest => rfl
    | Finalized => rfl
    | Safe => rfl
    | Latest => rfl
    | Pending => rfl

/-- No tag is a number: each has a letter that is no digit. -/
theorem u256_read_write (E : EthereumTypes) (tag : BlockTag) :
    E.u256.read (codec.write tag) = none := by
  have hnone (s : List Char) (c : Char) (hs : tag.to_str = .ofList s) (hc : c ∈ s)
      (hdigit : Hex.digit_value c = none) (hhead : s.head? ≠ some '0') :
      E.u256.read (codec.write tag) = none := by
    change E.u256_from_str tag.to_str = none
    rw [hs]
    exact E.u256_from_str_eq_none hc hdigit hhead
  cases tag with
  | Earliest => exact hnone "earliest".toList 'r' rfl (by decide) rfl (by decide)
  | Finalized => exact hnone "finalized".toList 'i' rfl (by decide) rfl (by decide)
  | Safe => exact hnone "safe".toList 's' rfl (by decide) rfl (by decide)
  | Latest => exact hnone "latest".toList 'l' rfl (by decide) rfl (by decide)
  | Pending => exact hnone "pending".toList 'p' rfl (by decide) rfl (by decide)

end BlockTag

end EthRpc
