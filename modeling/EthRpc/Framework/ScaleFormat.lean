import EthRpc.Framework.Outcome
import EthRpc.Framework.Scale

/-! # SCALE formats

    A `Format` writes the values of a type and reads them from the front of a
    byte string. It carries both laws: what was written is read back,
    whatever follows, and what is read is exactly what is written for it. A
    value `fits` if the writer does not panic on it, which it does on
    collections of `2 ^ 32` items or more.

    Structs are formats one after the other (`pair`), enums are formats with
    a byte in front that tells them apart (`Enum`).
-/

namespace Scale

variable {α β γ : Type}

/-! ## Compact integers of any width

    From `2 ^ 30` on, the upper bits of the first byte count the bytes
    beyond four that follow.
-/

/-- The number of bytes of `n`, without leading zeros. -/
def byte_count (n : Nat) : Nat := (be_bytes n).length

/-- `Compact<T>`. -/
def compact_big_encode (n : Nat) : List UInt8 :=
  if n < 2 ^ 30 then compact_encode n
  else UInt8.ofNat (3 + 4 * (byte_count n - 4)) :: le_fixed (byte_count n) n

/-- Read a `Compact<T>` for an integer type of `k` bytes. -/
def compact_big_decode (k : Nat) (l : List UInt8) : Option (Nat × List UInt8) :=
  match l with
  | [] => none
  | b :: bs =>
    if b.toNat % 4 = 3 then
      let count := b.toNat / 4 + 4
      if k < count ∨ bs.length < count then none
      else
        let x := of_le (bs.take count)
        if 2 ^ 30 ≤ x ∧ 256 ^ (count - 1) ≤ x then some (x, bs.drop count) else none
    else compact_decode (b :: bs)

theorem lt_byte_count (n : Nat) : n < 256 ^ byte_count n := by
  have h := of_be_lt (be_bytes n)
  rwa [of_be_be_bytes] at h

theorem byte_count_le_iff {n k : Nat} : byte_count n ≤ k ↔ n < 256 ^ k := by
  constructor
  · intro h
    exact (lt_byte_count n).trans_le (Nat.pow_le_pow_right (by omega) h)
  · exact be_bytes_length_le

/-- The count is fixed by the top byte. -/
theorem byte_count_eq {n k : Nat} (hlt : n < 256 ^ k) (hle : 256 ^ (k - 1) ≤ n) (hk : 0 < k) :
    byte_count n = k := by
  have h1 : byte_count n ≤ k := byte_count_le_iff.mpr hlt
  have h2 : ¬ byte_count n ≤ k - 1 := by
    rw [byte_count_le_iff]
    omega
  omega

/-- Below `2 ^ 30` the mode is one of the shorter ones. -/
theorem compact_encode_mode {n : Nat} (h : n < 2 ^ 30) :
    ∃ b bs, compact_encode n = b :: bs ∧ b.toNat % 4 ≠ 3 := by
  unfold compact_encode
  split
  · refine ⟨_, _, rfl, ?_⟩
    rw [toNat_ofNat_mod_four]
    omega
  · split
    · refine ⟨_, _, rfl, ?_⟩
      rw [toNat_ofNat_mod_four]
      omega
    · refine ⟨_, _, rfl, ?_⟩
      rw [toNat_ofNat_mod_four]
      omega

theorem compact_big_decode_encode {k n : Nat} (hk : k ≤ 16) (h : n < 256 ^ k)
    (rest : List UInt8) : compact_big_decode k (compact_big_encode n ++ rest) = some (n, rest) := by
  unfold compact_big_encode
  by_cases h30 : n < 2 ^ 30
  · have hdecode := compact_decode_encode (by omega : n < 2 ^ 32) rest
    obtain ⟨b, bs, hn, hmode⟩ := compact_encode_mode h30
    rw [hn, List.cons_append] at hdecode
    rw [if_pos h30, hn, List.cons_append, compact_big_decode, if_neg hmode, hdecode]
  · rw [if_neg h30]
    have hcount : byte_count n ≤ k := byte_count_le_iff.mpr h
    have hfour : ¬ byte_count n ≤ 3 := by
      rw [byte_count_le_iff]
      omega
    have hb : (UInt8.ofNat (3 + 4 * (byte_count n - 4))).toNat = 3 + 4 * (byte_count n - 4) := by
      rw [UInt8.toNat_ofNat']
      omega
    have hword := of_le_take_le_fixed (lt_byte_count n) rest
    have htop : 256 ^ (byte_count n - 1) ≤ n := by
      by_contra hlt
      have := byte_count_le_iff.mpr (Nat.lt_of_not_le hlt)
      omega
    simp only [List.cons_append, compact_big_decode, hb]
    rw [if_pos (by omega), show (3 + 4 * (byte_count n - 4)) / 4 + 4 = byte_count n by omega,
      if_neg (by rw [List.length_append, le_fixed_length]; omega), hword,
      if_pos ⟨by omega, htop⟩, List.drop_left' (le_fixed_length _ _)]

theorem compact_big_encode_of_decode {k n : Nat} {l rest : List UInt8}
    (h : compact_big_decode k l = some (n, rest)) (hk : 4 ≤ k) :
    n < 256 ^ k ∧ l = compact_big_encode n ++ rest := by
  cases l with
  | nil => cases h
  | cons b bs =>
    simp only [compact_big_decode] at h
    split at h
    · next hmode =>
      split at h
      · cases h
      · next hlen =>
        split at h
        · next htop =>
          simp only [Option.some.injEq, Prod.mk.injEq] at h
          obtain ⟨rfl, rfl⟩ := h
          have hlt := of_le_lt (bs.take (b.toNat / 4 + 4))
          have hword := le_fixed_of_le (bs.take (b.toNat / 4 + 4))
          rw [List.length_take, Nat.min_eq_left (by omega)] at hlt hword
          have hcount := byte_count_eq hlt htop.2 (by omega)
          have hbyte : UInt8.ofNat (3 + 4 * (b.toNat / 4)) = b := by
            apply UInt8.toNat_inj.mp
            have := b.toNat_lt
            rw [UInt8.toNat_ofNat']
            omega
          refine ⟨hlt.trans_le (Nat.pow_le_pow_right (by omega) (by omega)), ?_⟩
          rw [compact_big_encode, if_neg (by omega), hcount, hword, Nat.add_sub_cancel, hbyte,
            List.cons_append, List.take_append_drop]
        · cases h
    · next hmode =>
      obtain ⟨hlt, hl⟩ := compact_encode_of_decode h
      -- in the shorter modes the number is below `2 ^ 30`
      have h30 : n < 2 ^ 30 := by
        by_contra h30
        rw [compact_encode, if_neg (by omega), if_neg (by omega), if_neg h30] at hl
        injection hl with hb
        rw [hb] at hmode
        exact hmode rfl
      refine ⟨h30.trans_le ((by norm_num : 2 ^ 30 ≤ 256 ^ 4).trans
        (Nat.pow_le_pow_right (by omega) hk)), ?_⟩
      rw [compact_big_encode, if_pos h30]
      exact hl

/-! ## Formats -/

/-- A type with a SCALE form. -/
structure Format (α : Type) where
  encode : α → List UInt8
  decode : List UInt8 → Option (α × List UInt8)
  fits : α → Bool
  decode_encode : ∀ {a}, fits a → ∀ rest, decode (encode a ++ rest) = some (a, rest)
  of_decode : ∀ {l a rest}, decode l = some (a, rest) → fits a ∧ l = encode a ++ rest

namespace Format

variable (F : Format α) (G : Format β)

/-- `Encode::encode`, which panics on what does not fit. -/
def try_encode {ε : Type} (a : α) : Outcome ε (List UInt8) :=
  if F.fits a then .ok (F.encode a) else .panic

theorem try_encode_of_fits {F : Format α} {ε : Type} {a : α} (h : F.fits a) :
    F.try_encode (ε := ε) a = .ok (F.encode a) := if_pos h

theorem try_encode_of_not_fits {F : Format α} {ε : Type} {a : α} (h : ¬ F.fits a) :
    F.try_encode (ε := ε) a = .panic := if_neg h

theorem try_encode_eq_ok {F : Format α} {ε : Type} {a : α} {l : List UInt8} :
    F.try_encode (ε := ε) a = .ok l ↔ F.fits a ∧ F.encode a = l := by
  by_cases h : F.fits a
  · simp [try_encode, h]
  · simp [try_encode, h]

/-- What is read is read from no other bytes. -/
theorem decode_eq_some_iff {l : List UInt8} {a : α} {rest : List UInt8} :
    F.decode l = some (a, rest) ↔ F.fits a ∧ l = F.encode a ++ rest := by
  constructor
  · exact F.of_decode
  · rintro ⟨hfits, rfl⟩
    exact F.decode_encode hfits rest

/-! ### Primitive types -/

/-- `[u8; k]`. -/
def fixed (k : Nat) : Format (List.Vector UInt8 k) where
  encode v := v.toList
  decode := fixed_decode k
  fits _ := true
  decode_encode _ rest := fixed_decode_append _ rest
  of_decode {l v rest} h := by
    unfold fixed_decode at h
    split at h
    · cases h
      exact ⟨rfl, (List.take_append_drop k l).symm⟩
    · cases h

/-- `u8`. -/
def byte : Format UInt8 where
  encode b := [b]
  decode
    | [] => none
    | b :: l => some (b, l)
  fits _ := true
  decode_encode _ _ := rfl
  of_decode {l b rest} h := by
    cases l with
    | nil => cases h
    | cons c l =>
      cases h
      exact ⟨rfl, rfl⟩

/-- An unsigned integer of `k` bytes, the lowest first. -/
def word (k : Nat) : Format (BitVec (8 * k)) where
  encode n := le_fixed k n.toNat
  decode l := if k ≤ l.length then some (BitVec.ofNat _ (of_le (l.take k)), l.drop k) else none
  fits _ := true
  decode_encode {n} _ rest := by
    have hlt : n.toNat < 256 ^ k := by
      have := n.isLt
      rwa [Nat.pow_mul] at this
    rw [if_pos (by simp), of_le_take_le_fixed hlt, List.drop_left' (le_fixed_length _ _),
      BitVec.ofNat_toNat, BitVec.setWidth_eq]
  of_decode {l n rest} h := by
    split at h
    · next hlen =>
      simp only [Option.some.injEq, Prod.mk.injEq] at h
      obtain ⟨rfl, rfl⟩ := h
      have hlt := of_le_lt (l.take k)
      have hword := le_fixed_of_le (l.take k)
      rw [List.length_take, Nat.min_eq_left hlen] at hlt hword
      refine ⟨rfl, ?_⟩
      rw [BitVec.toNat_ofNat, Nat.mod_eq_of_lt (by rwa [Nat.pow_mul]), hword,
        List.take_append_drop]
    · cases h

/-- `Compact<T>` for an unsigned integer `T` of `k` bytes. -/
def compact (k : Nat) (hk : 4 ≤ k := by decide) (hk' : k ≤ 16 := by decide) :
    Format (BitVec (8 * k)) where
  encode n := compact_big_encode n.toNat
  decode l := (compact_big_decode k l).map (Prod.map (BitVec.ofNat _) id)
  fits _ := true
  decode_encode {n} _ rest := by
    have hlt : n.toNat < 256 ^ k := by
      have := n.isLt
      rwa [Nat.pow_mul] at this
    rw [compact_big_decode_encode hk' hlt, Option.map_some, Prod.map_apply, BitVec.ofNat_toNat,
      BitVec.setWidth_eq, id]
  of_decode {l n rest} h := by
    obtain ⟨⟨m, l'⟩, hm, heq⟩ := Option.map_eq_some_iff.mp h
    obtain ⟨rfl, rfl⟩ := Prod.mk.injEq .. ▸ heq
    obtain ⟨hlt, hl⟩ := compact_big_encode_of_decode hm hk
    refine ⟨rfl, ?_⟩
    rw [BitVec.toNat_ofNat, Nat.mod_eq_of_lt (by rwa [Nat.pow_mul])]
    exact hl

/-- `Vec<u8>`, which may be longer than can be written. -/
def bytes (bound : Nat) (hbound : 2 ^ 32 ≤ bound := by norm_num) : Format (ByteVec bound) where
  encode v := compact_encode v.data.length ++ v.data
  decode l := (vec_decode l).map (Prod.map (·.widen hbound) id)
  fits v := v.data.length < 2 ^ 32
  decode_encode {v} h rest := by
    have hdecode := vec_decode_encode ⟨v.data, of_decide_eq_true h⟩ rest
    rw [vec_encode] at hdecode
    rw [hdecode, Option.map_some]
    rfl
  of_decode {l v rest} h := by
    obtain ⟨⟨w, l'⟩, hw, heq⟩ := Option.map_eq_some_iff.mp h
    obtain ⟨rfl, rfl⟩ := Prod.mk.injEq .. ▸ heq
    exact ⟨decide_eq_true w.length_lt, vec_encode_of_decode hw⟩

/-- `Vec<u8>` that came out of a decoder. -/
def vec_bytes : Format Vec where
  encode := vec_encode
  decode := vec_decode
  fits _ := true
  decode_encode _ rest := vec_decode_encode _ rest
  of_decode h := ⟨rfl, vec_encode_of_decode h⟩

/-! ### Structs -/

variable {F G}

/-- One value after the other. -/
def pair (F : Format α) (G : Format β) : Format (α × β) where
  encode a := F.encode a.1 ++ G.encode a.2
  decode l := (F.decode l).bind fun a => (G.decode a.2).map (Prod.map (a.1, ·) id)
  fits a := F.fits a.1 && G.fits a.2
  decode_encode {a} h rest := by
    rw [Bool.and_eq_true] at h
    rw [List.append_assoc, F.decode_encode h.1, Option.bind_some, G.decode_encode h.2,
      Option.map_some, Prod.map_apply, id]
  of_decode {l a rest} h := by
    obtain ⟨⟨a', l'⟩, ha, h⟩ := Option.bind_eq_some_iff.mp h
    obtain ⟨⟨b', l''⟩, hb, heq⟩ := Option.map_eq_some_iff.mp h
    obtain ⟨rfl, rfl⟩ := Prod.mk.injEq .. ▸ heq
    obtain ⟨hfa, rfl⟩ := F.of_decode ha
    obtain ⟨hfb, rfl⟩ := G.of_decode hb
    exact ⟨Bool.and_eq_true .. ▸ ⟨hfa, hfb⟩, (List.append_assoc ..).symm⟩

/-- The same bytes, for a type that has the same values. -/
def iso (F : Format α) (f : α → β) (g : β → α) (hfg : ∀ b, f (g b) = b) (hgf : ∀ a, g (f a) = a) :
    Format β where
  encode b := F.encode (g b)
  decode l := (F.decode l).map (Prod.map f id)
  fits b := F.fits (g b)
  decode_encode {b} h rest := by
    rw [F.decode_encode h, Option.map_some, Prod.map_apply, hfg, id]
  of_decode {l b rest} h := by
    obtain ⟨⟨a, l'⟩, ha, heq⟩ := Option.map_eq_some_iff.mp h
    obtain ⟨rfl, rfl⟩ := Prod.mk.injEq .. ▸ heq
    rw [hgf]
    exact F.of_decode ha

/-- Only the values that are admitted are read. -/
def refine (F : Format α) (accept : α → Option β) (g : β → α)
    (h : ∀ a b, accept a = some b ↔ g b = a) : Format β where
  encode b := F.encode (g b)
  decode l := (F.decode l).bind fun a => (accept a.1).map (·, a.2)
  fits b := F.fits (g b)
  decode_encode {b} hb rest := by
    rw [F.decode_encode hb, Option.bind_some, (h _ _).mpr rfl, Option.map_some]
  of_decode {l b rest} hl := by
    obtain ⟨⟨a, l'⟩, ha, hl⟩ := Option.bind_eq_some_iff.mp hl
    obtain ⟨b', hb, heq⟩ := Option.map_eq_some_iff.mp hl
    obtain ⟨rfl, rfl⟩ := Prod.mk.injEq .. ▸ heq
    rw [(h _ _).mp hb]
    exact F.of_decode ha

/-! ### Collections -/

/-- Read `n` items, one after the other. -/
def decode_items (F : Format α) : Nat → List UInt8 → Option (List α × List UInt8)
  | 0, l => some ([], l)
  | n + 1, l => (F.decode l).bind fun a => (decode_items F n a.2).map (Prod.map (a.1 :: ·) id)

theorem decode_items_encode {as : List α} (h : ∀ a ∈ as, F.fits a) (rest : List UInt8) :
    F.decode_items as.length (as.flatMap F.encode ++ rest) = some (as, rest) := by
  induction as with
  | nil => rfl
  | cons a as ih =>
    rw [List.forall_mem_cons] at h
    rw [List.length_cons, List.flatMap_cons, List.append_assoc, decode_items,
      F.decode_encode h.1, Option.bind_some, ih h.2, Option.map_some, Prod.map_apply, id]

theorem of_decode_items {n : Nat} : ∀ {l rest : List UInt8} {as : List α},
    F.decode_items n l = some (as, rest) →
      as.length = n ∧ (∀ a ∈ as, F.fits a) ∧ l = as.flatMap F.encode ++ rest := by
  induction n with
  | zero =>
    intro l rest as h
    cases h
    exact ⟨rfl, by simp, rfl⟩
  | succ n ih =>
    intro l rest as h
    obtain ⟨⟨a, l'⟩, ha, h⟩ := Option.bind_eq_some_iff.mp h
    obtain ⟨⟨as', l''⟩, has, heq⟩ := Option.map_eq_some_iff.mp h
    obtain ⟨rfl, rfl⟩ := Prod.mk.injEq .. ▸ heq
    obtain ⟨hfits, rfl⟩ := F.of_decode ha
    obtain ⟨rfl, hall, rfl⟩ := ih has
    exact ⟨rfl, List.forall_mem_cons.mpr ⟨hfits, hall⟩, (List.append_assoc ..).symm⟩

/-- `Vec<T>`. -/
def vec (F : Format α) : Format (List α) where
  encode as := compact_encode as.length ++ as.flatMap F.encode
  decode l := (compact_decode l).bind fun n => F.decode_items n.1 n.2
  fits as := as.length < 2 ^ 32 && as.all F.fits
  decode_encode {as} h rest := by
    rw [Bool.and_eq_true, decide_eq_true_eq, List.all_eq_true] at h
    rw [List.append_assoc, compact_decode_encode h.1, Option.bind_some]
    exact decode_items_encode h.2 rest
  of_decode {l as rest} h := by
    obtain ⟨⟨n, l'⟩, hn, hitems⟩ := Option.bind_eq_some_iff.mp h
    obtain ⟨hlt, rfl⟩ := compact_encode_of_decode hn
    obtain ⟨rfl, hall, rfl⟩ := of_decode_items hitems
    refine ⟨?_, (List.append_assoc ..).symm⟩
    rw [Bool.and_eq_true, decide_eq_true_eq, List.all_eq_true]
    exact ⟨hlt, hall⟩

/-- `Option<T>`. -/
def option (F : Format α) : Format (Option α) where
  encode
    | none => [0]
    | some a => 1 :: F.encode a
  decode
    | 0 :: l => some (none, l)
    | 1 :: l => (F.decode l).map (Prod.map some id)
    | _ => none
  fits o := o.all F.fits
  decode_encode {o} h rest := by
    cases o with
    | none => rfl
    | some a =>
      show (F.decode (F.encode a ++ rest)).map _ = _
      rw [F.decode_encode h]
      rfl
  of_decode {l o rest} h := by
    split at h
    · next l =>
      cases h
      exact ⟨rfl, rfl⟩
    · next l =>
      obtain ⟨⟨a, l'⟩, ha, heq⟩ := Option.map_eq_some_iff.mp h
      obtain ⟨rfl, rfl⟩ := Prod.mk.injEq .. ▸ heq
      obtain ⟨hfits, rfl⟩ := F.of_decode ha
      exact ⟨hfits, rfl⟩
    · cases h

/-! ### What fits -/

section fits

@[simp] theorem fixed_fits {k : Nat} (v : List.Vector UInt8 k) : (fixed k).fits v = true := rfl

@[simp] theorem byte_fits (b : UInt8) : byte.fits b = true := rfl

@[simp] theorem word_fits {k : Nat} (n : BitVec (8 * k)) : (word k).fits n = true := rfl

@[simp] theorem compact_fits {k : Nat} {hk : 4 ≤ k} {hk' : k ≤ 16} (n : BitVec (8 * k)) :
    (compact k hk hk').fits n = true := rfl

@[simp] theorem bytes_fits {bound : Nat} {h : 2 ^ 32 ≤ bound} (v : ByteVec bound) :
    (bytes bound h).fits v = decide (v.data.length < 2 ^ 32) := rfl

@[simp] theorem vec_bytes_fits (v : Vec) : vec_bytes.fits v = true := rfl

@[simp] theorem pair_fits (a : α × β) : (F.pair G).fits a = (F.fits a.1 && G.fits a.2) := rfl

@[simp] theorem vec_fits (as : List α) :
    F.vec.fits as = (decide (as.length < 2 ^ 32) && as.all F.fits) := rfl

@[simp] theorem option_fits (o : Option α) : F.option.fits o = o.all F.fits := rfl

end fits

end Format

/-! ## Enums -/

/-- A format whose first byte is one of some tags. -/
structure Enum (α : Type) extends Format α where
  tags : List UInt8
  tag_of_encode : ∀ a, ∃ t ∈ tags, ∃ l, encode a = t :: l
  tag_of_decode : ∀ {t l a rest}, decode (t :: l) = some (a, rest) → t ∈ tags

namespace Enum

/-- A variant: its tag, and its fields. -/
def variant (tag : UInt8) (F : Format α) : Enum α where
  encode a := tag :: F.encode a
  decode
    | [] => none
    | t :: l => if t = tag then F.decode l else none
  fits := F.fits
  decode_encode {a} h rest := by
    rw [List.cons_append]
    simp only
    rw [if_pos trivial, F.decode_encode h]
  of_decode {l a rest} h := by
    cases l with
    | nil => cases h
    | cons t l =>
      simp only at h
      split at h
      · next ht =>
        obtain ⟨hfits, rfl⟩ := F.of_decode h
        exact ⟨hfits, by rw [ht, List.cons_append]⟩
      · cases h
  tags := [tag]
  tag_of_encode a := ⟨tag, List.mem_singleton_self _, _, rfl⟩
  tag_of_decode {t l a rest} h := by
    simp only at h
    split at h
    · next ht => exact List.mem_singleton.mpr ht
    · cases h

@[simp] theorem variant_tags (tag : UInt8) (F : Format α) : (variant tag F).tags = [tag] := by
  simp only [variant]

/-- The variants of two enums. -/
def or (F : Enum α) (G : Enum β)
    (h : ∀ t ∈ G.tags, t ∉ F.tags := by simp) : Enum (α ⊕ β) where
  encode
    | .inl a => F.encode a
    | .inr b => G.encode b
  decode l :=
    ((F.decode l).map (Prod.map Sum.inl id)).or ((G.decode l).map (Prod.map Sum.inr id))
  fits
    | .inl a => F.fits a
    | .inr b => G.fits b
  decode_encode {a} hfits rest := by
    cases a with
    | inl a =>
      simp only
      rw [F.decode_encode hfits]
      rfl
    | inr b =>
      simp only
      obtain ⟨t, ht, l, hl⟩ := G.tag_of_encode b
      have hnone : F.decode (G.encode b ++ rest) = none := by
        rw [Option.eq_none_iff_forall_ne_some]
        rintro ⟨a, rest'⟩ ha
        rw [hl, List.cons_append] at ha
        exact h t ht (F.tag_of_decode ha)
      rw [hnone, G.decode_encode hfits]
      rfl
  of_decode {l a rest} hl := by
    rcases Option.or_eq_some_iff.mp hl with hl | ⟨-, hl⟩
    · obtain ⟨⟨b, l'⟩, hb, heq⟩ := Option.map_eq_some_iff.mp hl
      obtain ⟨rfl, rfl⟩ := Prod.mk.injEq .. ▸ heq
      exact F.of_decode hb
    · obtain ⟨⟨b, l'⟩, hb, heq⟩ := Option.map_eq_some_iff.mp hl
      obtain ⟨rfl, rfl⟩ := Prod.mk.injEq .. ▸ heq
      exact G.of_decode hb
  tags := F.tags ++ G.tags
  tag_of_encode a := by
    cases a with
    | inl a =>
      obtain ⟨t, ht, hl⟩ := F.tag_of_encode a
      exact ⟨t, List.mem_append_left _ ht, hl⟩
    | inr b =>
      obtain ⟨t, ht, hl⟩ := G.tag_of_encode b
      exact ⟨t, List.mem_append_right _ ht, hl⟩
  tag_of_decode {t l a rest} hl := by
    rcases Option.or_eq_some_iff.mp hl with hl | ⟨-, hl⟩
    · obtain ⟨⟨b, l'⟩, hb, -⟩ := Option.map_eq_some_iff.mp hl
      exact List.mem_append_left _ (F.tag_of_decode hb)
    · obtain ⟨⟨b, l'⟩, hb, -⟩ := Option.map_eq_some_iff.mp hl
      exact List.mem_append_right _ (G.tag_of_decode hb)

@[simp] theorem or_tags (F : Enum α) (G : Enum β) (h : ∀ t ∈ G.tags, t ∉ F.tags) :
    (F.or G h).tags = F.tags ++ G.tags := by
  simp only [or]

end Enum

end Scale
