import Mathlib

/-! # Bulk operations on finite maps

    Hash maps are Mathlib's finite maps: two of them are equal if they look
    up the same. Bulk operations, and what they leave to be looked up:

    * `insert_all`: insert an entry for each element of a list.
    * `erase_values`: erase, in one map, all the values of another.
    * `collect`: the values of the map that a list is collected into.

    `IsIndex key l m` says that `m` is a list `l` by key. It stays one when an
    element with a new key joins at the back and when the first one leaves.

    The last section is about the last `n` elements of a growing list.
-/

/-- A hash map. -/
abbrev Map (K V : Type) := Finmap fun _ : K => V

namespace Map

variable {K V W α : Type} [DecidableEq K]

/-! ## Inserting -/

/-- Insert an entry for each element, in order; a later one replaces an
    earlier one with the same key. -/
def insert_all (key : α → K) (value : α → V) (l : List α) (m : Map K V) : Map K V :=
  l.foldl (fun m a => m.insert (key a) (value a)) m

theorem lookup_insert_all_of_forall_ne {key : α → K} {value : α → V} {l : List α} {m : Map K V}
    {k : K} (h : ∀ a ∈ l, key a ≠ k) : (insert_all key value l m).lookup k = m.lookup k := by
  induction l generalizing m with
  | nil => rfl
  | cons a l ih =>
    rw [List.forall_mem_cons] at h
    show (insert_all key value l (m.insert (key a) (value a))).lookup k = m.lookup k
    rw [ih h.2, Finmap.lookup_insert_of_ne _ h.1.symm]

theorem lookup_insert_all_of_mem {key : α → K} {value : α → V} {l : List α} {m : Map K V} {a : α}
    (hkeys : (l.map key).Nodup) (ha : a ∈ l) :
    (insert_all key value l m).lookup (key a) = some (value a) := by
  induction l generalizing m with
  | nil => cases ha
  | cons b l ih =>
    rw [List.map_cons, List.nodup_cons] at hkeys
    show (insert_all key value l (m.insert (key b) (value b))).lookup (key a) = some (value a)
    rcases List.mem_cons.mp ha with rfl | ha
    · -- no later element overwrites the entry of the first
      have hfresh : ∀ c ∈ l, key c ≠ key a := fun c hc heq =>
        hkeys.1 (heq ▸ List.mem_map_of_mem hc)
      rw [lookup_insert_all_of_forall_ne hfresh, Finmap.lookup_insert]
    · exact ih hkeys.2 ha

/-- What is looked up after inserting into an empty map. -/
theorem lookup_insert_all_empty {key : α → K} {value : α → V} {l : List α} {k : K} {v : V}
    (hkeys : (l.map key).Nodup) :
    (insert_all key value l ∅).lookup k = some v ↔ ∃ a ∈ l, key a = k ∧ value a = v := by
  by_cases h : ∃ a ∈ l, key a = k
  · obtain ⟨a, ha, rfl⟩ := h
    rw [lookup_insert_all_of_mem hkeys ha, Option.some.injEq]
    constructor
    · intro hv
      exact ⟨a, ha, rfl, hv⟩
    · intro hex
      obtain ⟨b, hb, hkey, hv⟩ := hex
      rw [← List.inj_on_of_nodup_map hkeys hb ha hkey]
      exact hv
  · have hne : ∀ a ∈ l, key a ≠ k := fun a ha heq => h ⟨a, ha, heq⟩
    rw [lookup_insert_all_of_forall_ne hne, Finmap.lookup_empty]
    constructor
    · intro hv
      cases hv
    · intro hex
      obtain ⟨a, ha, heq, -⟩ := hex
      exact absurd heq (hne a ha)

/-- One entry for each element, if no key comes twice. -/
theorem card_keys_insert_all_empty {key : α → K} {value : α → V} {l : List α}
    (hkeys : (l.map key).Nodup) : (insert_all key value l ∅).keys.card = l.length := by
  have hkeys_eq : (insert_all key value l ∅).keys = (l.map key).toFinset := by
    ext k
    rw [Finmap.mem_keys, Finmap.mem_iff, List.mem_toFinset, List.mem_map]
    constructor
    · intro hk
      obtain ⟨v, hv⟩ := hk
      obtain ⟨a, ha, heq, -⟩ := (lookup_insert_all_empty hkeys).mp hv
      exact ⟨a, ha, heq⟩
    · intro hk
      obtain ⟨a, ha, heq⟩ := hk
      exact ⟨value a, (lookup_insert_all_empty hkeys).mpr ⟨a, ha, heq, rfl⟩⟩
  rw [hkeys_eq, List.toFinset_card_of_nodup hkeys, List.length_map]

/-! ## Collecting -/

/-- The values of the map a list is collected into: of several elements with
    one key the last is kept. -/
def collect (key : α → K) : List α → List α
  | [] => []
  | a :: l => if key a ∈ l.map key then collect key l else a :: collect key l

section collect
variable {key : α → K} {l : List α} {a : α}

theorem mem_of_mem_collect (h : a ∈ collect key l) : a ∈ l := by
  induction l with
  | nil => exact h
  | cons b l ih =>
    unfold collect at h
    split at h
    · exact List.mem_cons_of_mem _ (ih h)
    · rcases List.mem_cons.mp h with rfl | h
      · exact List.mem_cons_self
      · exact List.mem_cons_of_mem _ (ih h)

theorem collect_sublist (key : α → K) (l : List α) : (collect key l).Sublist l := by
  induction l with
  | nil => exact .slnil
  | cons b l ih =>
    unfold collect
    split
    · exact ih.cons b
    · exact ih.cons_cons b

theorem nodup_collect (key : α → K) (l : List α) : ((collect key l).map key).Nodup := by
  induction l with
  | nil => exact List.nodup_nil
  | cons b l ih =>
    unfold collect
    split
    · exact ih
    · next hb =>
      rw [List.map_cons, List.nodup_cons]
      refine ⟨fun hmem => hb ?_, ih⟩
      obtain ⟨c, hc, heq⟩ := List.mem_map.mp hmem
      exact List.mem_map.mpr ⟨c, mem_of_mem_collect hc, heq⟩

/-- Something is collected from a list that is not empty: its last element. -/
theorem collect_eq_nil : collect key l = [] ↔ l = [] := by
  induction l with
  | nil => simp [collect]
  | cons b l ih =>
    unfold collect
    split
    · next hb =>
      have hl : l ≠ [] := by
        intro hl
        rw [hl] at hb
        simp at hb
      simp [ih, hl]
    · simp

/-- Without a key that comes twice, nothing is lost. -/
theorem collect_eq_self (h : (l.map key).Nodup) : collect key l = l := by
  induction l with
  | nil => rfl
  | cons b l ih =>
    rw [List.map_cons, List.nodup_cons] at h
    unfold collect
    rw [if_neg h.1, ih h.2]

/-- Nothing is lost exactly if no key comes twice. -/
theorem length_collect_eq : (collect key l).length = l.length ↔ (l.map key).Nodup := by
  constructor
  · intro h
    rw [← (collect_sublist key l).eq_of_length h]
    exact nodup_collect key l
  · intro h
    rw [collect_eq_self h]

end collect

/-! ## Looking up after an erasure -/

/-- What is found after an erasure was there, under another key. -/
theorem lookup_erase_eq_some {m : Map K V} {k k' : K} {v : V} :
    (m.erase k').lookup k = some v ↔ m.lookup k = some v ∧ k ≠ k' := by
  by_cases hk : k = k'
  · subst hk
    rw [Finmap.lookup_erase]
    simp
  · rw [Finmap.lookup_erase_ne hk]
    simp [hk]

/-! ## A list by key -/

/-- The map `m` is the list `l` by key. -/
def IsIndex (key : α → K) (l : List α) (m : Map K α) : Prop :=
  ∀ k a, m.lookup k = some a ↔ a ∈ l ∧ key a = k

section index
variable {key : α → K} {l : List α} {m : Map K α} {a : α}

theorem IsIndex.empty (key : α → K) : IsIndex key [] ∅ := by
  intro k a
  simp

theorem IsIndex.unique {m' : Map K α} (h : IsIndex key l m) (h' : IsIndex key l m') : m = m' := by
  apply Finmap.ext_lookup
  intro k
  apply Option.ext
  intro a
  rw [h k a, h' k a]

/-- An element with a new key joins. -/
theorem IsIndex.insert (h : IsIndex key l m) (hne : ∀ b ∈ l, key b ≠ key a) :
    IsIndex key (l ++ [a]) (m.insert (key a) a) := by
  intro k b
  rw [List.mem_append, List.mem_singleton]
  by_cases hk : k = key a
  · -- no element that was there has the new key
    subst hk
    rw [Finmap.lookup_insert, Option.some.injEq]
    constructor
    · intro heq
      exact ⟨Or.inr heq.symm, congrArg key heq.symm⟩
    · intro hb
      obtain ⟨hmem | heq, hkey⟩ := hb
      · exact absurd hkey (hne b hmem)
      · exact heq.symm
  · rw [Finmap.lookup_insert_of_ne _ hk, h k b]
    constructor
    · intro hb
      exact ⟨Or.inl hb.1, hb.2⟩
    · intro hb
      obtain ⟨hmem | rfl, hkey⟩ := hb
      · exact ⟨hmem, hkey⟩
      · exact absurd hkey.symm hk

/-- The first element leaves. -/
theorem IsIndex.erase (h : IsIndex key (a :: l) m) (hne : ∀ b ∈ l, key b ≠ key a) :
    IsIndex key l (m.erase (key a)) := by
  intro k b
  rw [lookup_erase_eq_some, h k b, List.mem_cons]
  constructor
  · intro hb
    obtain ⟨⟨rfl | hmem, hkey⟩, hk⟩ := hb
    · exact absurd hkey.symm hk
    · exact ⟨hmem, hkey⟩
  · intro hb
    obtain ⟨hmem, rfl⟩ := hb
    exact ⟨⟨Or.inr hmem, rfl⟩, hne b hmem⟩

end index

/-! ## Erasing -/

variable [DecidableEq V]

/-- Erase all values of `index`, in any order. -/
def erase_values (index : Map K V) (m : Map V W) : Map V W :=
  index.foldl (fun m _ v => m.erase v) (fun _ _ _ _ _ => Finmap.erase_erase) m

omit [DecidableEq K] in
private theorem lookup_foldl_erase {l : List (Sigma fun _ : K => V)} {m : Map V W} {v : V} {w : W} :
    (l.foldl (fun m e => m.erase e.2) m).lookup v = some w ↔
      m.lookup v = some w ∧ ∀ e ∈ l, e.2 ≠ v := by
  induction l generalizing m with
  | nil => simp
  | cons e l ih =>
    rw [List.foldl_cons, ih, List.forall_mem_cons, lookup_erase_eq_some, and_assoc, ne_comm]

/-- An entry survives if its key is not among the values of `index`. -/
theorem lookup_erase_values {index : Map K V} {m : Map V W} {v : V} {w : W} :
    (erase_values index m).lookup v = some w ↔
      m.lookup v = some w ∧ ∀ k, index.lookup k ≠ some v := by
  -- the order of the erasures does not matter, so any list of the entries will do
  induction index using Finmap.induction_on with
  | H s =>
    have hfold := lookup_foldl_erase (l := s.entries) (m := m) (v := v) (w := w)
    have hmem : (∀ e ∈ s.entries, e.2 ≠ v) ↔ ∀ k, Finmap.lookup k s.toFinmap ≠ some v := by
      constructor
      · intro h k hk
        rw [Finmap.lookup_toFinmap] at hk
        exact h ⟨k, v⟩ (AList.mem_lookup_iff.mp hk) rfl
      · intro h e he heq
        subst heq
        apply h e.1
        rw [Finmap.lookup_toFinmap]
        exact AList.mem_lookup_iff.mpr he
    rw [← hmem]
    exact hfold

end Map

/-! ## Fallible maps over a list -/

namespace List

section mapM
variable {ε α β γ : Type} {f : α → Except ε β} {l : List α} {bs : List β}

theorem exists_of_forall₂ {R : α → β → Prop} (h : List.Forall₂ R l bs) {b : β} (hb : b ∈ bs) :
    ∃ a ∈ l, R a b := by
  induction h with
  | nil => cases hb
  | cons hab _ ih =>
    rcases List.mem_cons.mp hb with rfl | hb
    · exact ⟨_, List.mem_cons_self, hab⟩
    · obtain ⟨a, ha, hR⟩ := ih hb
      exact ⟨a, List.mem_cons_of_mem _ ha, hR⟩

/-- All elements succeed, each with its own result. -/
theorem mapM_eq_ok :
    l.mapM f = .ok bs ↔ List.Forall₂ (fun a b => f a = .ok b) l bs := by
  induction l generalizing bs with
  | nil =>
    rw [List.mapM_nil, List.forall₂_nil_left_iff]
    constructor
    · intro h
      cases h
      rfl
    · intro h
      rw [h]
      rfl
  | cons a l ih =>
    rw [List.mapM_cons, List.forall₂_cons_left_iff]
    cases ha : f a with
    | error e =>
      constructor
      · intro h
        cases h
      · intro h
        obtain ⟨b, bs', hb, -, -⟩ := h
        cases hb
    | ok b =>
      cases hl : l.mapM f with
      | error e =>
        constructor
        · intro h
          cases h
        · intro h
          obtain ⟨b', bs', -, hbs, -⟩ := h
          rw [ih.mpr hbs] at hl
          cases hl
      | ok bs' =>
        constructor
        · intro h
          cases h
          exact ⟨b, bs', rfl, ih.mp hl, rfl⟩
        · intro h
          obtain ⟨b', bs'', hb, hbs, rfl⟩ := h
          cases hb
          rw [ih.mpr hbs] at hl
          cases hl
          rfl

/-- Every result is that of an element. -/
theorem exists_of_mapM (h : l.mapM f = .ok bs) {b : β} (hb : b ∈ bs) : ∃ a ∈ l, f a = .ok b :=
  exists_of_forall₂ (mapM_eq_ok.mp h) hb

/-- Every element has a result. -/
theorem exists_of_mem_mapM (h : l.mapM f = .ok bs) {a : α} (ha : a ∈ l) :
    ∃ b ∈ bs, f a = .ok b := by
  have hall := mapM_eq_ok.mp h
  induction hall with
  | nil => cases ha
  | @cons a' b l bs hab hrest ih =>
    rcases List.mem_cons.mp ha with rfl | ha
    · exact ⟨b, List.mem_cons_self, hab⟩
    · obtain ⟨b', hb', hab'⟩ := ih (mapM_eq_ok.mpr hrest) ha
      exact ⟨b', List.mem_cons_of_mem _ hb', hab'⟩

/-- What can be told from an element can be told from its result. -/
theorem map_eq_of_mapM (key : α → γ) (key' : β → γ) (h : l.mapM f = .ok bs)
    (hkey : ∀ a b, f a = .ok b → key a = key' b) : l.map key = bs.map key' := by
  have hall := mapM_eq_ok.mp h
  induction hall with
  | nil => rfl
  | cons hab hrest ih => rw [List.map_cons, List.map_cons, hkey _ _ hab, ih (mapM_eq_ok.mpr hrest)]

end mapM

end List

/-! ## The last elements of a list -/

namespace List

variable {α : Type}

/-- One more element: the window grows until it is full, then drops its
    first element. -/
theorem rtake_concat_rtake (l : List α) (n : Nat) (x : α) :
    (l ++ [x]).rtake n = (l.rtake n ++ [x]).rtake n := by
  cases n with
  | zero => rw [List.rtake_zero, List.rtake_zero]
  | succ n =>
    rw [List.rtake_concat_succ, List.rtake_concat_succ]
    congr 1
    simp only [List.rtake, List.length_drop, List.drop_drop]
    congr 1
    omega

theorem rtake_of_length_le {l : List α} {n : Nat} (h : l.length ≤ n) : l.rtake n = l := by
  rw [List.rtake, Nat.sub_eq_zero_of_le h, List.drop_zero]

theorem rtake_length_le (l : List α) (n : Nat) : (l.rtake n).length ≤ n := by
  rw [List.rtake, List.length_drop]
  omega

theorem rtake_cons_of_length_eq {l : List α} {n : Nat} (x : α) (h : l.length = n) :
    (x :: l).rtake n = l := by
  rw [List.rtake, List.length_cons, h, Nat.add_sub_cancel_left, List.drop_one, List.tail_cons]

theorem rtake_sublist (l : List α) (n : Nat) : (l.rtake n).Sublist l := List.drop_sublist _ _

end List
