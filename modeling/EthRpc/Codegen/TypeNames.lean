import EthRpc.Codegen.Generator

/-! # Type names and what is asked for with them

    What `type_info` yields, by the shape of the schema: the name of its type,
    and the types it asks `collect` for.

    * `RecordsName`: the schemas whose name is asked for with them.
    * `places`, `printed_places`: the schemas in a definition that are given to
      `type_info`, and those among them whose names are printed.
    * `generate_type_yields`: a definition in terms of these.
-/

namespace EthRpc

namespace Codegen

section closed
variable (inflector : Inflector)

/-! ## What `type_info` yields -/

/-- The type name of a schema that has one. -/
def type_name (schema : Schema) : String :=
  match (type_info inflector schema : Outcome Empty (Option TypeInfo × List Ask)) with
  | .ok (some info, _) => info.name
  | _ => ""

/-- What is asked for with the type of a schema. -/
def asks (schema : Schema) : List Ask :=
  match (type_info inflector schema : Outcome Empty (Option TypeInfo × List Ask)) with
  | .ok (_, asks) => asks
  | _ => []

/-- The names that make a type optional. -/
def null_name (name : String) : Bool := name = "Null" || name = "NotFound"

/-- The alternatives of a union, without those that make it optional. -/
def alternatives (items : List Schema) : List Schema :=
  items.filter fun schema => ! null_name (type_name inflector schema)

variable {inflector}
variable {schema : Schema} {info : TypeInfo} {calls : List Ask}

theorem name_of_yields (h : (type_info inflector schema).Yields (some info) calls) :
    info.name = type_name inflector schema := by
  unfold Gen.Yields at h
  rw [type_name, h]

theorem asks_of_yields {o : Option TypeInfo} (h : (type_info inflector schema).Yields o calls) :
    calls = asks inflector schema := by
  unfold Gen.Yields at h
  rw [asks, h]

/-- The schema has a type with a name. -/
def HasName (inflector : Inflector) (schema : Schema) : Prop :=
  ∃ info calls, (type_info inflector schema).Yields (some info) calls

/-- Where a type with a name is expected. -/
theorem of_yields_expect (h : (type_info inflector schema).expect.Yields info calls) :
    info.name = type_name inflector schema ∧ calls = asks inflector schema ∧
      HasName inflector schema := by
  have h' := Gen.yields_expect.mp h
  exact ⟨name_of_yields h', asks_of_yields h', info, calls, h'⟩

theorem type_infos_eq_each (schemas : List Schema) :
    type_infos inflector schemas =
      Gen.each (fun schema => (type_info inflector schema).expect) schemas := by
  induction schemas with
  | nil => simp only [type_infos, Gen.each]
  | cons schema schemas ih => simp only [type_infos, Gen.each, ih]

theorem type_infos_yields {schemas : List Schema} {infos : List TypeInfo}
    (h : (type_infos inflector schemas).Yields infos calls) :
    infos.map (·.name) = schemas.map (type_name inflector) ∧
      calls = schemas.flatMap (asks inflector) ∧ ∀ schema ∈ schemas, HasName inflector schema := by
  rw [type_infos_eq_each] at h
  exact Gen.yields_each (fun schema info asks hinfo => of_yields_expect hinfo) h

/-- A union has a name, which is asked for if it is made of two. -/
theorem union_info_yields {infos : List TypeInfo} {o : Option TypeInfo}
    (h : (union_info schema infos).Yields o calls) :
    let names := (infos.filter (! ·.is_null)).map (·.name)
    ∃ info, o = some info ∧ info.name = "Or".intercalate names ∧
      calls = if 1 < names.length then [(info.name, .Schema schema)] else [] := by
  intro names
  unfold union_info at h
  by_cases hmany : names.length > 1
  · rw [if_pos hmany] at h
    obtain ⟨u, hcollect, rfl⟩ := Gen.yields_map.mp h
    rw [Gen.yields_collect.mp hcollect]
    exact ⟨_, rfl, rfl, (if_pos hmany).symm⟩
  · rw [if_neg hmany] at h
    obtain ⟨rfl, rfl⟩ := Gen.yields_pure.mp h
    exact ⟨_, rfl, rfl, (if_neg hmany).symm⟩

/-- A string with a name has one of three. -/
theorem string_info_eq_of_name {s : StringLiteral} {o : Option TypeInfo}
    (h : (string_info s).Yields o calls) :
    ∃ name ∈ ["Type0", "Type1", "Type2"], o = some (.of_name name) ∧ calls = [] := by
  unfold string_info at h
  split at h
  · next pattern =>
    by_cases hpattern : pattern ∈ ["^0x0$", "^0x1$", "^0x2$"]
    · rw [if_pos hpattern] at h
      obtain ⟨rfl, rfl⟩ := Gen.yields_pure.mp h
      refine ⟨_, ?_, rfl, rfl⟩
      simp only [List.mem_cons, List.not_mem_nil, or_false] at hpattern
      rcases hpattern with rfl | rfl | rfl
      · decide +kernel
      · decide +kernel
      · decide +kernel
    · rw [if_neg hpattern] at h
      exact absurd h Gen.not_yields_panic
  · exact absurd h Gen.not_yields_panic

theorem string_info_yields {s : StringLiteral} {o : Option TypeInfo}
    (h : (string_info s).Yields o calls) :
    ∃ info, o = some info ∧ info.name ∈ ["Type0", "Type1", "Type2"] ∧ calls = [] := by
  obtain ⟨name, hname, rfl, rfl⟩ := string_info_eq_of_name h
  exact ⟨_, rfl, hname, rfl⟩

/-- A literal with a name is an array of items, or its name is a fixed one. -/
theorem literal_of_yields {title description : Option String} {l : Literal}
    (h : (type_info inflector (.mk title description (.Literal l))).Yields (some info) calls) :
    (∃ items, l = .Array (some items)) ∨
      (∀ items, l ≠ .Array items) ∧ info = .of_name info.name ∧ calls = [] ∧
        (l = .Null ∨ info.name ∈ ["Type0", "Type1", "Type2", "bool"]) := by
  cases l with
  | Array items =>
    cases items with
    | none => simp [type_info] at h
    | some items => exact Or.inl ⟨items, rfl⟩
  | String s =>
    simp only [type_info] at h
    obtain ⟨name, hname, heq, rfl⟩ := string_info_eq_of_name h
    obtain rfl := Option.some.inj heq
    exact Or.inr ⟨by simp, rfl, rfl, Or.inr (List.mem_append_left ["bool"] hname)⟩
  | Boolean =>
    simp only [type_info] at h
    obtain ⟨heq, rfl⟩ := Gen.yields_pure.mp h
    obtain rfl := Option.some.inj heq
    exact Or.inr ⟨by simp, rfl, rfl, Or.inr (by decide)⟩
  | Null =>
    simp only [type_info] at h
    obtain ⟨heq, rfl⟩ := Gen.yields_pure.mp h
    obtain rfl := Option.some.inj heq
    exact Or.inr ⟨by simp, rfl, rfl, Or.inl rfl⟩
  | Integer => simp [type_info] at h
  | Number => simp [type_info] at h
  | Object object => simp [type_info] at h

/-- Only an object without a type has no name. -/
theorem object_of_yields_none (h : (type_info inflector schema).Yields none calls) :
    (∃ object, schema.contents = .Object object) ∧ calls = [] := by
  rcases schema with ⟨title, description, contents⟩
  cases contents with
  | Object object =>
    simp only [type_info] at h
    exact ⟨⟨object, rfl⟩, (Gen.yields_pure.mp h).2⟩
  | Reference reference =>
    simp only [type_info] at h
    exact absurd h Gen.not_yields_none
  | AllOf all_of =>
    simp only [type_info] at h
    exact absurd h Gen.not_yields_none
  | AnyOf items =>
    simp only [type_info] at h
    obtain ⟨infos, calls₁, calls₂, -, hunion, -⟩ := Gen.yields_bind.mp h
    obtain ⟨info, heq, -⟩ := union_info_yields hunion
    cases heq
  | OneOf items =>
    simp only [type_info] at h
    obtain ⟨infos, calls₁, calls₂, -, hunion, -⟩ := Gen.yields_bind.mp h
    obtain ⟨info, heq, -⟩ := union_info_yields hunion
    cases heq
  | Literal l =>
    cases l with
    | Array items =>
      cases items with
      | none => cases h
      | some items =>
        simp only [type_info] at h
        exact absurd h Gen.not_yields_none
    | String s =>
      simp only [type_info] at h
      obtain ⟨info, heq, -⟩ := string_info_yields h
      cases heq
    | Boolean => cases h
    | Null => cases h
    | Integer => cases h
    | Number => cases h
    | Object object => cases h

/-! ## Names and requests, by the shape of the schema -/

theorem HasName.reference {reference : String} (h : HasName inflector schema)
    (hcontents : schema.contents = .Reference reference) :
    asks inflector schema = [(type_name inflector schema, .Reference reference)] := by
  rcases schema with ⟨title, description, contents⟩
  cases hcontents
  obtain ⟨info, calls, h⟩ := h
  rw [← name_of_yields h, ← asks_of_yields h]
  simp only [type_info] at h
  obtain ⟨u, hcollect, heq⟩ := Gen.yields_map.mp h
  cases heq
  rw [Gen.yields_collect.mp hcollect]
  rfl

theorem HasName.array {items : Schema} (h : HasName inflector schema)
    (hcontents : schema.contents = .Literal (.Array (some items))) :
    HasName inflector items ∧ type_name inflector schema = type_name inflector items ∧
      asks inflector schema = asks inflector items := by
  rcases schema with ⟨title, description, contents⟩
  cases hcontents
  obtain ⟨info, calls, h⟩ := h
  rw [← name_of_yields h, ← asks_of_yields h]
  simp only [type_info] at h
  obtain ⟨info', hitems, heq⟩ := Gen.yields_map.mp h
  cases heq
  obtain ⟨hname, hasks, hhas⟩ := of_yields_expect hitems
  exact ⟨hhas, hname, hasks⟩

theorem HasName.all_of {all_of : List Schema} (h : HasName inflector schema)
    (hcontents : schema.contents = .AllOf all_of) :
    (∀ item ∈ all_of, HasName inflector item) ∧
      type_name inflector schema = "And".intercalate (all_of.map (type_name inflector)) ∧
      asks inflector schema = all_of.flatMap (asks inflector) := by
  rcases schema with ⟨title, description, contents⟩
  cases hcontents
  obtain ⟨info, calls, h⟩ := h
  rw [← name_of_yields h, ← asks_of_yields h]
  simp only [type_info] at h
  obtain ⟨infos, hinfos, heq⟩ := Gen.yields_map.mp h
  cases heq
  obtain ⟨hnames, rfl, hitems⟩ := type_infos_yields hinfos
  exact ⟨hitems, by rw [← hnames]; rfl, rfl⟩

/-- The names that are left of the types are those of the alternatives. -/
theorem map_name_filter {infos : List TypeInfo} {items : List Schema}
    (h : infos.map (·.name) = items.map (type_name inflector)) :
    (infos.filter (! ·.is_null)).map (·.name) =
      (alternatives inflector items).map (type_name inflector) := by
  have hleft : (infos.filter (! ·.is_null)).map (·.name) =
      (infos.map (·.name)).filter (! null_name ·) := by
    rw [List.filter_map]
    rfl
  rw [hleft, h, List.filter_map]
  rfl

/-- The contents are a union of the items. -/
def UnionOf (contents : SchemaContents) (items : List Schema) : Prop :=
  contents = .AnyOf items ∨ contents = .OneOf items

theorem type_info_union {items : List Schema} (hunion : UnionOf schema.contents items) :
    type_info inflector schema = type_infos inflector items >>= union_info schema := by
  rcases schema with ⟨title, description, contents⟩
  rcases hunion with rfl | rfl
  · simp only [type_info]
  · simp only [type_info]

theorem HasName.union {items : List Schema} (h : HasName inflector schema)
    (hunion : UnionOf schema.contents items) :
    (∀ item ∈ items, HasName inflector item) ∧
      type_name inflector schema =
        "Or".intercalate ((alternatives inflector items).map (type_name inflector)) ∧
      asks inflector schema = items.flatMap (asks inflector) ++
        if 1 < (alternatives inflector items).length
          then [(type_name inflector schema, .Schema schema)] else [] := by
  obtain ⟨info, calls, h⟩ := h
  rw [← name_of_yields h, ← asks_of_yields h]
  rw [type_info_union hunion] at h
  obtain ⟨infos, calls₁, calls₂, hinfos, hrest, rfl⟩ := Gen.yields_bind.mp h
  obtain ⟨hnames, rfl, hitems⟩ := type_infos_yields hinfos
  obtain ⟨info', heq, hname, rfl⟩ := union_info_yields hrest
  cases heq
  rw [map_name_filter hnames] at hname ⊢
  rw [List.length_map]
  exact ⟨hitems, hname, rfl⟩

/-! ## Names that are asked for with their schema -/

/-- A predefined type name. -/
def Predefined (name : String) : Prop :=
  name ∈ PRIMITIVE_MAPPINGS.map Prod.snd ∨ name ∈ ["Type0", "Type1", "Type2", "bool", "String"]

/-- The name of the schema is a predefined one, or is asked for with it. The
    `allOf` of several schemas, null, and the union without alternatives are
    missing. -/
inductive RecordsName (inflector : Inflector) : Schema → Prop where
  | reference {title description : Option String} (reference : String) :
      RecordsName inflector (.mk title description (.Reference reference))
  | boolean {title description : Option String} :
      RecordsName inflector (.mk title description (.Literal .Boolean))
  | string {title description : Option String} (s : StringLiteral) :
      RecordsName inflector (.mk title description (.Literal (.String s)))
  | array {title description : Option String} {items : Schema} (h : RecordsName inflector items) :
      RecordsName inflector (.mk title description (.Literal (.Array (some items))))
  | all_of {title description : Option String} {item : Schema} (h : RecordsName inflector item) :
      RecordsName inflector (.mk title description (.AllOf [item]))
  | alternative {title description : Option String} {contents : SchemaContents}
      {items : List Schema} {item : Schema} (hunion : UnionOf contents items)
      (hone : alternatives inflector items = [item]) (h : RecordsName inflector item) :
      RecordsName inflector (.mk title description contents)
  | union {title description : Option String} {contents : SchemaContents} {items : List Schema}
      (hunion : UnionOf contents items) (hmany : 1 < (alternatives inflector items).length) :
      RecordsName inflector (.mk title description contents)

/-- **Recorded names.** By the constructors: the name is that of a part, or is
    asked for by the schema itself. -/
theorem RecordsName.asked (h : RecordsName inflector schema) (hname : HasName inflector schema) :
    Predefined (type_name inflector schema) ∨
      type_name inflector schema ∈ Worklist.names (asks inflector schema) := by
  induction h with
  | reference reference =>
    right
    rw [hname.reference rfl]
    exact List.mem_singleton_self _
  | boolean =>
    refine Or.inl (Or.inr ?_)
    show "bool" ∈ _
    decide
  | string s =>
    obtain ⟨info, calls, hinfo⟩ := hname
    rw [← name_of_yields hinfo]
    simp only [type_info] at hinfo
    obtain ⟨info', heq, hmem, -⟩ := string_info_yields hinfo
    cases heq
    exact Or.inl (Or.inr (List.mem_append_left ["bool", "String"] hmem))
  | array h ih =>
    obtain ⟨hitems, htype, hasks⟩ := hname.array rfl
    rw [htype, hasks]
    exact ih hitems
  | all_of h ih =>
    obtain ⟨hitems, htype, hasks⟩ := hname.all_of rfl
    rw [htype, hasks, List.flatMap_singleton]
    exact ih (hitems _ (List.mem_singleton_self _))
  | @alternative _ _ _ items item hunion hone h ih =>
    obtain ⟨hitems, htype, hasks⟩ := hname.union hunion
    have hitem : item ∈ items := by
      have hmem : item ∈ alternatives inflector items := by
        rw [hone]
        exact List.mem_singleton_self _
      exact (List.mem_filter.mp hmem).1
    have hjoin : "Or".intercalate [type_name inflector item] = type_name inflector item := rfl
    rw [htype, hasks, hone, List.map_singleton, hjoin]
    rcases ih (hitems item hitem) with hpre | hasked
    · exact Or.inl hpre
    · -- what is asked for with an alternative is asked for with the union
      right
      obtain ⟨v, hv⟩ := Worklist.mem_names.mp hasked
      exact Worklist.mem_names.mpr
        ⟨v, List.mem_append_left _ (List.mem_flatMap.mpr ⟨item, hitem, hv⟩)⟩
  | union hunion hmany =>
    obtain ⟨-, -, hasks⟩ := hname.union hunion
    rw [hasks, if_pos hmany]
    right
    exact Worklist.mem_names.mpr ⟨_, List.mem_append_right _ (List.mem_singleton_self _)⟩

/-! ## What a definition prints and asks for -/

/-- Where names are asked for in an item of an `allOf`: for the item, or for
    the properties of an object without a type. -/
def item_places (schema : Schema) : List Schema :=
  match schema.contents with
  | .Object object => object.properties.map Prod.snd
  | _ => [schema]

/-- Where names are asked for in a definition. -/
def places (schema : Schema) : List Schema :=
  match schema.contents with
  | .Literal (.Object object) | .Object object => object.properties.map Prod.snd
  | .AllOf all_of => all_of.flatMap item_places
  | .AnyOf items | .OneOf items => items
  | .Literal (.Array (some items)) => [items]
  | _ => []

/-- Where names are printed: of a union, for the alternatives only. -/
def printed_places (inflector : Inflector) (schema : Schema) : List Schema :=
  match schema.contents with
  | .AnyOf items | .OneOf items => alternatives inflector items
  | _ => places schema

theorem field_of_property_yields {object : ObjectLiteral} {property : String × Schema}
    {field : Field} (h : (field_of_property inflector object property).Yields field calls) :
    field.type_info.name = type_name inflector property.2 ∧
      calls = asks inflector property.2 ∧ HasName inflector property.2 := by
  obtain ⟨info, hinfo, rfl⟩ := Gen.yields_map.mp h
  obtain ⟨hname, rfl, hhas⟩ := of_yields_expect hinfo
  exact ⟨hname, rfl, hhas⟩

theorem fields_from_yields {object : ObjectLiteral} {fields : List Field}
    (h : (fields_from inflector object).Yields fields calls) :
    let schemas := object.properties.map Prod.snd
    fields.map (·.type_info.name) = schemas.map (type_name inflector) ∧
      calls = schemas.flatMap (asks inflector) ∧ ∀ schema ∈ schemas, HasName inflector schema := by
  intro schemas
  obtain ⟨hnames, rfl, hhas⟩ := Gen.yields_each (g := fun field : Field => field.type_info.name)
    (fun property field calls hfield => field_of_property_yields hfield) h
  rw [hnames, List.map_map, List.flatMap_map]
  exact ⟨rfl, rfl, List.forall_mem_map.mpr hhas⟩

theorem fields_of_item_yields {fields : List Field}
    (h : (fields_of_item inflector schema).Yields fields calls) :
    fields.map (·.type_info.name) = (item_places schema).map (type_name inflector) ∧
      calls = (item_places schema).flatMap (asks inflector) ∧
      ∀ item ∈ item_places schema, HasName inflector item := by
  obtain ⟨o, calls₁, calls₂, ho, hrest, rfl⟩ := Gen.yields_bind.mp h
  cases o with
  | some info =>
    obtain ⟨rfl, rfl⟩ := Gen.yields_pure.mp hrest
    have hplaces : item_places schema = [schema] := by
      unfold item_places
      split
      · next object hobject =>
        -- an object has no type name
        rcases schema with ⟨title, description, contents⟩
        cases hobject
        simp only [type_info] at ho
        cases (Gen.yields_pure.mp ho).1
      · rfl
    rw [hplaces, List.map_singleton, List.flatMap_singleton, List.append_nil]
    exact ⟨congrArg (fun name => [name]) (name_of_yields ho), asks_of_yields ho,
      List.forall_mem_singleton.mpr ⟨info, calls₁, ho⟩⟩
  | none =>
    obtain ⟨⟨object, hobject⟩, rfl⟩ := object_of_yields_none ho
    simp only [hobject] at hrest
    unfold item_places
    rw [hobject, List.nil_append]
    exact fields_from_yields hrest

theorem fields_from_all_of_yields {all_of : List Schema} {fields : List Field}
    (h : (fields_from_all_of inflector all_of).Yields fields calls) :
    let schemas := all_of.flatMap item_places
    fields.map (·.type_info.name) = schemas.map (type_name inflector) ∧
      calls = schemas.flatMap (asks inflector) ∧ ∀ schema ∈ schemas, HasName inflector schema := by
  intro schemas
  obtain ⟨lists, hlists, rfl⟩ := Gen.yields_map.mp h
  obtain ⟨hnames, rfl, hhas⟩ := Gen.yields_each (fun schema fields calls hfields =>
    fields_of_item_yields hfields) hlists
  refine ⟨?_, ?_, ?_⟩
  · rw [List.map_flatten, hnames, List.map_flatMap, List.flatMap_def]
  · rw [List.flatMap_assoc]
  · intro schema hmem
    obtain ⟨item, hitem, hschema⟩ := List.mem_flatMap.mp hmem
    exact hhas item hitem schema hschema

/-- The names of the alternatives, where the others are left out. -/
theorem reduceOption_map_alternatives (items : List Schema) :
    (items.map fun item => if null_name (type_name inflector item) then none
      else some (type_name inflector item)).reduceOption =
      (alternatives inflector items).map (type_name inflector) := by
  induction items with
  | nil => rfl
  | cons item items ih =>
    unfold alternatives at ih ⊢
    rw [List.map_cons, List.filter_cons]
    cases hnull : null_name (type_name inflector item) with
    | true => simpa using ih
    | false => simpa using ih

theorem variant_of_item_yields {variant : Option Variant}
    (h : (variant_of_item inflector schema).Yields variant calls) :
    variant.map (·.type_info.name) = (if null_name (type_name inflector schema) then none
      else some (type_name inflector schema)) ∧ calls = asks inflector schema ∧
      HasName inflector schema := by
  obtain ⟨info, hinfo, rfl⟩ := Gen.yields_map.mp h
  obtain ⟨hname, rfl, hhas⟩ := of_yields_expect hinfo
  refine ⟨?_, rfl, hhas⟩
  have hnull : info.is_null = null_name info.name := rfl
  rw [← hname, hnull]
  cases null_name info.name with
  | true => rfl
  | false => rfl

theorem variants_from_one_of_yields {items : List Schema} {variants : List Variant}
    (h : (variants_from_one_of inflector items).Yields variants calls) :
    variants.map (·.type_info.name) = (alternatives inflector items).map (type_name inflector) ∧
      calls = items.flatMap (asks inflector) ∧ ∀ item ∈ items, HasName inflector item := by
  obtain ⟨variants', hvariants, rfl⟩ := Gen.yields_map.mp h
  obtain ⟨hnames, rfl, hhas⟩ := Gen.yields_each
    (g := fun variant : Option Variant => variant.map (·.type_info.name))
    (fun schema variant calls hvariant => variant_of_item_yields hvariant) hvariants
  rw [← List.reduceOption_map, hnames, reduceOption_map_alternatives]
  exact ⟨rfl, rfl, hhas⟩

/-- The type of a schema, if it has one. -/
def named_type (inflector : Inflector) (schema : Schema) : Option TypeInfo :=
  match (type_info inflector schema : Outcome Empty (Option TypeInfo × List Ask)) with
  | .ok (info, _) => info
  | _ => none

theorem string_content_yields {s : StringLiteral} {content : TypeContent}
    (h : (string_content s).Yields content calls) :
    (∃ enumeration, content = .UntaggedEnum enumeration) ∧ calls = [] := by
  unfold string_content at h
  split at h
  · obtain ⟨rfl, rfl⟩ := Gen.yields_pure.mp h
    exact ⟨⟨_, rfl⟩, rfl⟩
  · exact absurd h Gen.not_yields_panic

/-- The type names in the content of a type. -/
theorem type_content_yields {content : TypeContent}
    (h : (type_content inflector schema).Yields content calls) :
    (TypePrinter.mk none "" content).type_names =
        (printed_places inflector schema).map (type_name inflector) ∧
      calls = (places schema).flatMap (asks inflector) ∧
      ∀ place ∈ places schema, HasName inflector place := by
  rcases schema with ⟨title, description, contents⟩
  cases contents with
  | Object object =>
    obtain ⟨fields, hfields, rfl⟩ := Gen.yields_map.mp h
    exact fields_from_yields hfields
  | AllOf all_of =>
    obtain ⟨fields, hfields, rfl⟩ := Gen.yields_map.mp h
    exact fields_from_all_of_yields hfields
  | AnyOf items =>
    obtain ⟨variants, hvariants, rfl⟩ := Gen.yields_map.mp h
    exact variants_from_one_of_yields hvariants
  | OneOf items =>
    obtain ⟨variants, hvariants, rfl⟩ := Gen.yields_map.mp h
    exact variants_from_one_of_yields hvariants
  | Reference reference => exact absurd h Gen.not_yields_panic
  | Literal l =>
    cases l with
    | Object object =>
      obtain ⟨fields, hfields, rfl⟩ := Gen.yields_map.mp h
      exact fields_from_yields hfields
    | Array items =>
      cases items with
      | none => exact absurd h Gen.not_yields_panic
      | some items =>
        obtain ⟨info, hinfo, rfl⟩ := Gen.yields_map.mp h
        obtain ⟨hname, rfl, hhas⟩ := of_yields_expect hinfo
        exact ⟨congrArg (fun name => [name]) hname, (List.flatMap_singleton _ _).symm,
          List.forall_mem_singleton.mpr hhas⟩
    | String s =>
      obtain ⟨⟨enumeration, rfl⟩, rfl⟩ := string_content_yields h
      exact ⟨rfl, rfl, by simp [places, Schema.contents]⟩
    | Boolean => exact absurd h Gen.not_yields_panic
    | Null => exact absurd h Gen.not_yields_panic
    | Integer => exact absurd h Gen.not_yields_panic
    | Number => exact absurd h Gen.not_yields_panic

/-- **A definition** prints the names of its places, and asks for what they
    ask for. -/
theorem generate_type_yields {name : String} {printer : TypePrinter}
    (h : (generate_type inflector name schema).Yields printer calls) :
    printer.name = name ∧
      printer.type_names = (printed_places inflector schema).map (type_name inflector) ∧
      calls = (places schema).flatMap (asks inflector) ∧
      ∀ place ∈ places schema, HasName inflector place := by
  obtain ⟨content, hcontent, rfl⟩ := Gen.yields_map.mp h
  obtain ⟨hnames, rfl, hhas⟩ := type_content_yields hcontent
  exact ⟨rfl, hnames, rfl, hhas⟩

end closed

end Codegen

end EthRpc
