import Mathlib

/-! # Reading and writing JSON, as `serde` does

    A `Codec` writes the values of a type and reads them back. A `Record`
    does so for the members of an object, so that two records of different
    names can be put side by side (`and`), which is what a struct of several
    fields is, and also what `flatten` does. A member that no record names
    is ignored; one that is given twice is an error.

    Of an untagged enum only the payload is written. What is read is the
    first variant that accepts the document, and whether this is the one
    that was written depends on the variants before it: `reads_back_iff`.

    A struct is read from an object only. `serde` reads one also from an
    array, by position, but writes none this way.
-/

/-- A JSON document, the members of an object in the order in which they are
    written. A number is kept as its text. -/
inductive Json where
  | null
  | bool (b : Bool)
  | number (text : String)
  | str (s : String)
  | arr (items : List Json)
  | obj (members : List (String × Json))

namespace Serde

variable {α β γ : Type}

/-! ## Codecs -/

/-- A type that is written as JSON, and read back as it was. -/
structure Codec (α : Type) where
  write : α → Json
  read : Json → Option α
  read_write : ∀ a, read (write a) = some a

namespace Codec

/-- A type with a string form. -/
def of_str (to_str : α → String) (from_str : String → Option α)
    (h : ∀ a, from_str (to_str a) = some a) : Codec α where
  write a := .str (to_str a)
  read
    | .str s => from_str s
    | _ => none
  read_write := h

/-- `bool`. -/
def bool : Codec Bool where
  write := .bool
  read
    | .bool b => some b
    | _ => none
  read_write _ := rfl

/-- `String`. -/
def string : Codec String := of_str id some fun _ => rfl

/-- A document that is read later. -/
def raw : Codec Json where
  write := id
  read := some
  read_write _ := rfl

/-- `Vec<T>`. -/
def vec (c : Codec α) : Codec (List α) where
  write as := .arr (as.map c.write)
  read
    | .arr items => items.mapM c.read
    | _ => none
  read_write as := by
    induction as with
    | nil => rfl
    | cons a as ih => simp_all [c.read_write]

end Codec

/-! ## Members of an object -/

/-- How often a name is among the members. -/
inductive Member where
  | absent
  | once (j : Json)
  | duplicate

/-- The member of a name. -/
def member (name : String) (ms : List (String × Json)) : Member :=
  match ms.filter fun m => m.1 = name with
  | [] => .absent
  | [m] => .once m.2
  | _ => .duplicate

@[simp] theorem member_singleton (name : String) (j : Json) :
    member name [(name, j)] = .once j := by
  simp [member]

theorem member_of_notMem {name : String} {ms : List (String × Json)}
    (h : ∀ m ∈ ms, m.1 ≠ name) : member name ms = .absent := by
  have hnil : ms.filter (fun m => m.1 = name) = [] := by
    rw [List.filter_eq_nil_iff]
    intro m hm
    simpa using h m hm
  rw [member, hnil]

/-- Other members do not matter. -/
theorem member_filter (name : String) (ms : List (String × Json)) :
    member name (ms.filter fun m => m.1 ∈ [name]) = member name ms := by
  simp only [member, List.filter_filter, List.mem_singleton, Bool.and_self]

/-! ## Records -/

/-- A type that is written as members of an object. What is read depends on
    the members that are named only; and if a required one is missing,
    nothing is. -/
structure Record (α : Type) where
  names : List String
  required : List String
  write : α → List (String × Json)
  read : List (String × Json) → Option α
  write_names : ∀ a, ∀ m ∈ write a, m.1 ∈ names
  read_filter : ∀ ms, read (ms.filter fun m => m.1 ∈ names) = read ms
  read_required : ∀ n ∈ required, ∀ ms, (∀ m ∈ ms, m.1 ≠ n) → read ms = none
  read_write : ∀ a, read (write a) = some a

namespace Record

theorem filter_names_eq_nil (F : Record α) {ms : List (String × Json)}
    (h : ∀ m ∈ ms, m.1 ∉ F.names) : ms.filter (fun m => m.1 ∈ F.names) = [] := by
  rw [List.filter_eq_nil_iff]
  intro m hm
  simpa using h m hm

/-- Members of other names behind the own ones do not matter. -/
theorem read_append_left (F : Record α) {ms ms' : List (String × Json)}
    (h : ∀ m ∈ ms', m.1 ∉ F.names) : F.read (ms ++ ms') = F.read ms := by
  rw [← F.read_filter, List.filter_append, F.filter_names_eq_nil h, List.append_nil, F.read_filter]

theorem read_append_right (F : Record α) {ms ms' : List (String × Json)}
    (h : ∀ m ∈ ms, m.1 ∉ F.names) : F.read (ms ++ ms') = F.read ms' := by
  rw [← F.read_filter, List.filter_append, F.filter_names_eq_nil h, List.nil_append, F.read_filter]

/-- A superset of the names filters out nothing that is read. -/
theorem read_filter_of_subset (F : Record α) {names : List String} (h : F.names ⊆ names)
    (ms : List (String × Json)) : F.read (ms.filter fun m => m.1 ∈ names) = F.read ms := by
  rw [← F.read_filter, List.filter_filter, ← F.read_filter ms]
  congr 1
  apply List.filter_congr
  intro m _
  by_cases hm : m.1 ∈ F.names
  · simp [hm, h hm]
  · simp [hm]

/-- A record reads nothing from another that lacks a required member. -/
theorem read_eq_none (F : Record α) (G : Record β) (b : β)
    (h : ∃ n ∈ F.required, n ∉ G.names) : F.read (G.write b) = none := by
  obtain ⟨n, hn, hnot⟩ := h
  apply F.read_required n hn
  intro m hm hname
  exact hnot (hname ▸ G.write_names b m hm)

/-! ### Fields -/

/-- A field. -/
def field (name : String) (c : Codec α) : Record α where
  names := [name]
  required := [name]
  write a := [(name, c.write a)]
  read ms :=
    match member name ms with
    | .once j => c.read j
    | _ => none
  write_names a := by simp
  read_filter ms := by simp only [member_filter]
  read_required n hn ms h := by
    rw [List.mem_singleton.mp hn] at h
    rw [member_of_notMem h]
  read_write a := by simp [c.read_write]

/-- A value that may be null. -/
def read_option (c : Codec α) : Json → Option (Option α)
  | .null => some none
  | j => (c.read j).map some

theorem read_option_write (c : Codec α) {a : α} (h : c.write a ≠ .null) :
    read_option c (c.write a) = some (some a) := by
  unfold read_option
  split
  · next hnull => exact absurd hnull h
  · rw [c.read_write, Option.map_some]

/-- A field `Option<T>`, which may also be missing. -/
def read_option_field (name : String) (c : Codec α) (ms : List (String × Json)) :
    Option (Option α) :=
  match member name ms with
  | .absent => some none
  | .once j => read_option c j
  | .duplicate => none

/-- A field `Option<T>` that is not written when it is `None`
    (`skip_serializing_if`). -/
def skipped (name : String) (c : Codec α) (h : ∀ a, c.write a ≠ .null) : Record (Option α) where
  names := [name]
  required := []
  write
    | none => []
    | some a => [(name, c.write a)]
  read := read_option_field name c
  write_names a := by
    cases a with
    | none => simp
    | some a => simp
  read_filter ms := by simp only [read_option_field, member_filter]
  read_required := by simp
  read_write a := by
    cases a with
    | none => rfl
    | some a => simp [read_option_field, read_option_write c (h a)]

/-- A field `Option<T>` that is written as null when it is `None`. -/
def nullable (name : String) (c : Codec α) (h : ∀ a, c.write a ≠ .null) : Record (Option α) where
  names := [name]
  required := []
  write
    | none => [(name, .null)]
    | some a => [(name, c.write a)]
  read := read_option_field name c
  write_names a := by
    cases a with
    | none => simp
    | some a => simp
  read_filter ms := by simp only [read_option_field, member_filter]
  read_required := by simp
  read_write a := by
    cases a with
    | none => simp [read_option_field, read_option]
    | some a => simp [read_option_field, read_option_write c (h a)]

/-- The member of one of several names. -/
def member_of (names : List String) (ms : List (String × Json)) : Member :=
  match ms.filter fun m => m.1 ∈ names with
  | [] => .absent
  | [m] => .once m.2
  | _ => .duplicate

/-- A field `Option<T>` that is not written when it is `None`, and is read
    under a second name too (`alias`). Both names at once are a duplicate. -/
def aliased (name other : String) (c : Codec α) (h : ∀ a, c.write a ≠ .null) :
    Record (Option α) where
  names := [name, other]
  required := []
  write
    | none => []
    | some a => [(name, c.write a)]
  read ms :=
    match member_of [name, other] ms with
    | .absent => some none
    | .once j => read_option c j
    | .duplicate => none
  write_names a := by
    cases a with
    | none => simp
    | some a => simp
  read_filter ms := by simp only [member_of, List.filter_filter, Bool.and_self]
  read_required := by simp
  read_write a := by
    cases a with
    | none => rfl
    | some a => simp [member_of, read_option_write c (h a)]

/-! ### Putting records together -/

/-- Two records of different names, in one object. -/
def and (F : Record α) (G : Record β)
    (h : ∀ n ∈ G.names, n ∉ F.names := by exact of_decide_eq_true rfl) : Record (α × β) where
  names := F.names ++ G.names
  required := F.required ++ G.required
  write a := F.write a.1 ++ G.write a.2
  read ms := do
    let a ← F.read ms
    let b ← G.read ms
    return (a, b)
  write_names a m hm := by
    rw [List.mem_append] at hm ⊢
    exact hm.imp (F.write_names a.1 m) (G.write_names a.2 m)
  read_filter ms := by
    rw [F.read_filter_of_subset (List.subset_append_left ..),
      G.read_filter_of_subset (List.subset_append_right ..)]
  read_required n hn ms hms := by
    rcases List.mem_append.mp hn with hn | hn
    · rw [F.read_required n hn ms hms]
      rfl
    · rw [G.read_required n hn ms hms]
      cases F.read ms with
      | none => rfl
      | some a => rfl
  read_write a := by
    -- each of the two reads its own members
    have hF : F.read (F.write a.1 ++ G.write a.2) = some a.1 := by
      rw [F.read_append_left fun m hm => h _ (G.write_names a.2 m hm), F.read_write]
    have hG : G.read (F.write a.1 ++ G.write a.2) = some a.2 := by
      rw [G.read_append_right fun m hm hG => h _ hG (F.write_names a.1 m hm), G.read_write]
    rw [hF, hG]
    rfl

/-- One of two records, the first that is read. The second has none of some
    member that the first requires. -/
def or (F : Record α) (G : Record β)
    (h : ∃ n ∈ F.required, n ∉ G.names := by exact of_decide_eq_true rfl) : Record (α ⊕ β) where
  names := F.names ++ G.names
  required := F.required.filter (· ∈ G.required)
  write
    | .inl a => F.write a
    | .inr b => G.write b
  read ms := ((F.read ms).map Sum.inl).or ((G.read ms).map Sum.inr)
  write_names a m hm := by
    rw [List.mem_append]
    cases a with
    | inl a => exact Or.inl (F.write_names a m hm)
    | inr b => exact Or.inr (G.write_names b m hm)
  read_filter ms := by
    rw [F.read_filter_of_subset (List.subset_append_left ..),
      G.read_filter_of_subset (List.subset_append_right ..)]
  read_required n hn ms hms := by
    obtain ⟨hF, hG⟩ := List.mem_filter.mp hn
    rw [F.read_required n hF ms hms, G.read_required n (by simpa using hG) ms hms]
    rfl
  read_write a := by
    cases a with
    | inl a =>
      rw [F.read_write]
      rfl
    | inr b =>
      rw [F.read_eq_none G b h, G.read_write]
      rfl

/-- The same members, for a type that has the same values. -/
def iso (F : Record α) (f : α → β) (g : β → α) (h : ∀ b, f (g b) = b) : Record β where
  names := F.names
  required := F.required
  write b := F.write (g b)
  read ms := (F.read ms).map f
  write_names b := F.write_names (g b)
  read_filter ms := by rw [F.read_filter]
  read_required n hn ms hms := by rw [F.read_required n hn ms hms, Option.map_none]
  read_write b := by rw [F.read_write, Option.map_some, h]

/-- An object with these members. -/
def codec (F : Record α) : Codec α where
  write a := .obj (F.write a)
  read
    | .obj ms => F.read ms
    | _ => none
  read_write := F.read_write

end Record

/-! ## Untagged enums -/

/-- A variant: its name, and how a document is read as one. -/
structure Variant (α : Type) where
  name : String
  read : Json → Option α

/-- A variant with a payload. -/
def Codec.variant (c : Codec β) (name : String) (inject : β → α) : Variant α where
  name := name
  read j := (c.read j).map inject

theorem Codec.variant_read_eq_some {c : Codec β} {name : String} {inject : β → α} {j : Json}
    {b : β} (h : c.read j = some b) : (c.variant name inject).read j = some (inject b) := by
  simp [variant, h]

@[simp] theorem Codec.variant_read_write (c : Codec β) (name : String) (inject : β → α) (b : β) :
    (c.variant name inject).read (c.write b) = some (inject b) :=
  variant_read_eq_some (c.read_write b)

theorem Codec.variant_read_eq_none {c : Codec β} {name : String} {inject : β → α} {j : Json}
    (h : c.read j = none) : (c.variant name inject).read j = none := by
  simp [variant, h]

/-- A variant of a struct reads nothing from a struct that lacks a required
    member. -/
theorem Record.variant_read_eq_none {δ : Type} (F : Record α) (G : Record β) (name : String)
    (inject : α → δ) (b : β)
    (h : ∃ n ∈ F.required, n ∉ G.names := by exact of_decide_eq_true rfl) :
    (F.codec.variant name inject).read (G.codec.write b) = none := by
  apply Codec.variant_read_eq_none
  exact F.read_eq_none G b h

/-- Variants, and how values are written: each so that a variant reads it. -/
structure Untagged (α : Type) where
  variants : List (Variant α)
  write : α → Json
  read_write : ∀ a, ∃ v ∈ variants, v.read (write a) = some a

namespace Untagged

/-- The first variant that accepts the document. -/
def read (U : Untagged α) (j : Json) : Option α := U.variants.findSome? (·.read j)

/-- What is written is read back. -/
def RoundTrips (U : Untagged α) (a : α) : Prop := U.read (U.write a) = some a

variable {U : Untagged α} {a : α}

/-- What the first variant accepts is never given to another. -/
theorem read_of_head {v : Variant α} {post : List (Variant α)} {j : Json}
    (hvariants : U.variants = v :: post) (hv : v.read j = some a) : U.read j = some a := by
  rw [read, hvariants, List.findSome?_cons, hv]

/-- **Untagged round trip.** A value is read back exactly if the variants
    before one that reads it accept nothing else. -/
theorem reads_back_iff (pre : List (Variant α)) {post : List (Variant α)} {v : Variant α}
    (hvariants : U.variants = pre ++ v :: post) (hv : v.read (U.write a) = some a) :
    U.RoundTrips a ↔ ∀ b, pre.findSome? (·.read (U.write a)) = some b → b = a := by
  unfold RoundTrips read
  rw [hvariants, List.findSome?_append, List.findSome?_cons, hv]
  cases pre.findSome? (·.read (U.write a)) with
  | none => simp
  | some b => simp

/-- No variant before accepts it at all. -/
theorem round_trips_of_none (pre : List (Variant α)) {post : List (Variant α)} {v : Variant α}
    (hvariants : U.variants = pre ++ v :: post) (hv : v.read (U.write a) = some a)
    (hpre : ∀ w ∈ pre, w.read (U.write a) = none) : U.RoundTrips a := by
  rw [reads_back_iff pre hvariants hv, List.findSome?_eq_none_iff.mpr hpre]
  simp

end Untagged

end Serde
