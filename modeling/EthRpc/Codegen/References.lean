import EthRpc.Codegen.Generator

/-! # References

    A reference is split at its slashes twice: `get_schema` reads it from the
    front, as far as the name of a component, and `reference_to_name` takes what
    comes last.

    * `leads_to_iff`: the component a reference leads to is its fourth segment.
    * `names_component_iff`: a reference carries the name of this component if
      and only if it does not lead inside of it.
-/

namespace EthRpc

namespace Codegen

/-! ## Segments -/

/-- `reference.split('/').last()`. -/
def last_segment (reference : String) : String := (split_slash reference).getLast?.getD ""

/-- Type names come from the last segment, but for those of the primitive types. -/
theorem reference_to_name_eq (inflector : Inflector) {reference : String}
    (h : PRIMITIVE_MAPPINGS.lookup reference = none) :
    reference_to_name inflector reference = inflector.to_pascal_case (last_segment reference) := by
  unfold reference_to_name
  rw [h]
  rfl

theorem last_segment_eq {reference k last : String} {rest : List String}
    (h : split_slash reference = "#" :: "components" :: "schemas" :: k :: (rest ++ [last])) :
    last_segment reference = last := by
  unfold last_segment
  rw [h]
  simp [List.getLast?_cons]

theorem last_segment_of_four {reference k : String}
    (h : split_slash reference = ["#", "components", "schemas", k]) :
    last_segment reference = k := by
  unfold last_segment
  rw [h]
  rfl

/-! ## Components -/

namespace OpenRpc

/-- The schema of a component. -/
def component_schema (specs : OpenRpc) (k : String) : Option Schema := do
  let schemas ← specs.components
  schemas.lookup k

/-- The document with another schema for the component. -/
def with_component (specs : OpenRpc) (k : String) (schema : Schema) : OpenRpc :=
  { specs with components := specs.components.map fun schemas => schemas.insert k schema }

/-- `OpenRpc::get_schema_mut`: the schema, and the document when it is replaced. -/
def get_schema_mut (specs : OpenRpc) (reference : String) :
    Option (Schema × (Schema → OpenRpc)) :=
  match split_slash reference with
  | "#" :: "components" :: "schemas" :: name :: _ => do
    let schemas ← specs.components
    let schema ← schemas.lookup name
    return (schema, fun schema => { specs with components := some (schemas.insert name schema) })
  | _ => none

variable {specs : OpenRpc} {reference : String} {schema : Schema}

theorem get_schema_of_split {k : String} {rest : List String}
    (h : split_slash reference = "#" :: "components" :: "schemas" :: k :: rest) :
    specs.get_schema reference = specs.component_schema k := by
  unfold get_schema
  rw [h]
  rfl

theorem get_schema_eq_some (h : specs.get_schema reference = some schema) :
    ∃ k rest, split_slash reference = "#" :: "components" :: "schemas" :: k :: rest ∧
      specs.component_schema k = some schema := by
  have h' := h
  unfold get_schema at h
  split at h
  · next k rest hsplit =>
    exact ⟨k, rest, hsplit, (get_schema_of_split hsplit).symm.trans h'⟩
  · simp at h

theorem get_schema_mut_of_split {k : String} {rest : List String}
    (h : split_slash reference = "#" :: "components" :: "schemas" :: k :: rest)
    (hschema : specs.component_schema k = some schema) :
    specs.get_schema_mut reference = some (schema, specs.with_component k) := by
  unfold get_schema_mut
  rw [h]
  unfold component_schema at hschema
  unfold with_component
  cases hcomponents : specs.components with
  | none => simp [hcomponents] at hschema
  | some schemas =>
    have hlookup : schemas.lookup k = some schema := by simpa [hcomponents] using hschema
    simp [hlookup]

theorem get_schema_mut_eq_some {replace : Schema → OpenRpc}
    (h : specs.get_schema_mut reference = some (schema, replace)) :
    ∃ k rest, split_slash reference = "#" :: "components" :: "schemas" :: k :: rest ∧
      specs.component_schema k = some schema ∧ replace = specs.with_component k := by
  have h' := h
  unfold get_schema_mut at h
  split at h
  · next k rest hsplit =>
    cases hschema : specs.component_schema k with
    | none =>
      unfold component_schema at hschema
      cases hcomponents : specs.components with
      | none => simp [hcomponents] at h
      | some schemas =>
        have hlookup : schemas.lookup k = none := by simpa [hcomponents] using hschema
        simp [hcomponents, hlookup] at h
    | some found =>
      rw [get_schema_mut_of_split hsplit hschema] at h'
      obtain ⟨rfl, rfl⟩ := Prod.mk.inj (Option.some.inj h')
      exact ⟨k, rest, hsplit, hschema, rfl⟩
  · simp at h

/-- A component is told by what replaces its schema. -/
theorem with_component_inj {k k' : String} (hschema : specs.component_schema k = some schema)
    (h : ∀ other, specs.with_component k other = specs.with_component k' other) : k = k' := by
  by_contra hne
  obtain ⟨other, hother⟩ : ∃ other, other ≠ schema := by
    by_cases hnull : schema = .of_contents (.Literal .Null)
    · refine ⟨.of_contents (.Literal .Boolean), fun heq => ?_⟩
      rw [hnull] at heq
      simp [Schema.of_contents] at heq
    · exact ⟨_, Ne.symm hnull⟩
  cases hcomponents : specs.components with
  | none => simp [component_schema, hcomponents] at hschema
  | some schemas =>
    have hlookup : schemas.lookup k = some schema := by
      simpa [component_schema, hcomponents] using hschema
    -- replaced under the one name, and as it was under the other
    have hmaps : schemas.insert k other = schemas.insert k' other := by
      have hspecs := congrArg OpenRpc.components (h other)
      simpa [with_component, hcomponents] using hspecs
    have hsame := congrArg (fun m : Map String Schema => m.lookup k) hmaps
    simp only [Finmap.lookup_insert, Finmap.lookup_insert_of_ne _ hne, hlookup] at hsame
    exact hother (Option.some.inj hsame)

end OpenRpc

/-! ## Where a reference leads -/

/-- In every document the reference is read as the component of this name. -/
def LeadsTo (reference k : String) : Prop :=
  ∀ specs : OpenRpc, specs.get_schema reference = specs.component_schema k

/-- A document with a single component. -/
def single_component (k : String) (schema : Schema) : OpenRpc where
  methods := []
  components := some ((∅ : Map String Schema).insert k schema)

theorem component_schema_single {k k' : String} {schema : Schema} :
    (single_component k schema).component_schema k' = if k' = k then some schema else none := by
  show ((∅ : Map String Schema).insert k schema).lookup k' = _
  by_cases heq : k' = k
  · rw [if_pos heq, heq, Finmap.lookup_insert]
  · rw [if_neg heq, Finmap.lookup_insert_of_ne _ heq, Finmap.lookup_empty]

/-- **A reference leads to its fourth segment**, after the three that it begins
    with. -/
theorem leads_to_iff {reference k : String} :
    LeadsTo reference k ↔
      ∃ rest, split_slash reference = "#" :: "components" :: "schemas" :: k :: rest := by
  constructor
  · intro h
    have hread := h (single_component k (.of_contents (.Literal .Null)))
    rw [component_schema_single, if_pos rfl] at hread
    obtain ⟨k', rest, hsplit, hschema⟩ := OpenRpc.get_schema_eq_some hread
    rw [component_schema_single] at hschema
    by_cases heq : k' = k
    · exact ⟨rest, heq ▸ hsplit⟩
    · simp [heq] at hschema
  · intro h specs
    obtain ⟨rest, hsplit⟩ := h
    exact OpenRpc.get_schema_of_split hsplit

/-! ## Names of components -/

/-- If the reference resolves to the schema of a component, to be read or to be
    replaced, its last segment is the name of this component. -/
structure NamesComponent (specs : OpenRpc) (reference : String) : Prop where
  read : ∀ k schema, specs.get_schema reference = some schema → LeadsTo reference k →
    last_segment reference = k
  replaced : ∀ k schema replace, specs.get_schema_mut reference = some (schema, replace) →
    (∀ other, replace other = specs.with_component k other) → last_segment reference = k

/-- The reference has segments after the name of a component, and does not end
    with this name. -/
def LeadsInside (specs : OpenRpc) (reference : String) : Prop :=
  ∃ k rest last, split_slash reference =
      "#" :: "components" :: "schemas" :: k :: (rest ++ [last]) ∧
    (specs.component_schema k).isSome ∧ last ≠ k

theorem last_segment_of_not_inside {specs : OpenRpc} {reference k : String} {rest : List String}
    {schema : Schema} (hinside : ¬ LeadsInside specs reference)
    (hsplit : split_slash reference = "#" :: "components" :: "schemas" :: k :: rest)
    (hschema : specs.component_schema k = some schema) : last_segment reference = k := by
  rcases List.eq_nil_or_concat rest with rfl | ⟨rest, last, rfl⟩
  · exact last_segment_of_four hsplit
  · rw [List.concat_eq_append] at hsplit
    by_contra hne
    rw [last_segment_eq hsplit] at hne
    exact hinside ⟨k, rest, last, hsplit, by rw [hschema]; rfl, hne⟩

/-- **A reference carries the name of its component**, if and only if it does
    not lead inside of it. -/
theorem names_component_iff (specs : OpenRpc) (reference : String) :
    NamesComponent specs reference ↔ ¬ LeadsInside specs reference := by
  constructor
  · intro hnames hinside
    obtain ⟨k, rest, last, hsplit, hsome, hne⟩ := hinside
    obtain ⟨schema, hschema⟩ := Option.isSome_iff_exists.mp hsome
    have hread : specs.get_schema reference = some schema :=
      (OpenRpc.get_schema_of_split hsplit).trans hschema
    have hlast := hnames.read k schema hread (leads_to_iff.mpr ⟨_, hsplit⟩)
    rw [last_segment_eq hsplit] at hlast
    exact hne hlast
  · intro hinside
    refine ⟨fun k schema hread hleads => ?_, fun k schema replace hmut hreplace => ?_⟩
    · obtain ⟨rest, hsplit⟩ := leads_to_iff.mp hleads
      exact last_segment_of_not_inside hinside hsplit ((hleads specs).symm.trans hread)
    · obtain ⟨k', rest, hsplit, hschema, rfl⟩ := OpenRpc.get_schema_mut_eq_some hmut
      obtain rfl := OpenRpc.with_component_inj hschema hreplace
      exact last_segment_of_not_inside hinside hsplit hschema

/-! ## A reference into a component -/

/-- The property of a component has the schema of the whole component, and
    another name. -/
theorem property_named_apart :
    let specs := single_component "Foo" (.of_contents (.Object (.mk [] [] [])))
    specs.get_schema "#/components/schemas/Foo/properties/bar" = specs.component_schema "Foo" ∧
      last_segment "#/components/schemas/Foo/properties/bar" = "bar" ∧
      ¬ NamesComponent specs "#/components/schemas/Foo/properties/bar" := by
  intro specs
  have hsplit : split_slash "#/components/schemas/Foo/properties/bar" =
      "#" :: "components" :: "schemas" :: "Foo" :: (["properties"] ++ ["bar"]) := by
    decide +kernel
  refine ⟨OpenRpc.get_schema_of_split hsplit, last_segment_eq hsplit, ?_⟩
  intro hnames
  have hread : specs.get_schema "#/components/schemas/Foo/properties/bar" =
      some (.of_contents (.Object (.mk [] [] []))) := by
    rw [OpenRpc.get_schema_of_split hsplit, component_schema_single, if_pos rfl]
  have hlast := hnames.read "Foo" _ hread (leads_to_iff.mpr ⟨_, hsplit⟩)
  rw [last_segment_eq hsplit] at hlast
  exact absurd hlast (by decide)

end Codegen

end EthRpc
