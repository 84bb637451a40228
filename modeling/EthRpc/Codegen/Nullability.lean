import EthRpc.Codegen.Closed

/-! # Optional types and vectors

    `type_info` tells three things of a type: its name, whether it is a vector,
    and whether it is optional. The last two do not go through a union, a
    parameter or a field unchanged.

    * `null_name_iff`: the schemas whose name stands for null, by their shape.
    * `attributes_of_yields`: vectors and optional types, by the shape.
    * `optional_of_union_iff`, `optional_parameter_iff`, `optional_field_iff`:
      where the generated type is the optional one it should be.
-/

namespace EthRpc

namespace Codegen

section nullability
variable (inflector : Inflector)

/-! ## By the shape of the schema -/

/-- An array, whose type is a vector. -/
def Schema.is_array (schema : Schema) : Bool :=
  match schema.contents with
  | .Literal (.Array (some _)) => true
  | _ => false

/-- The name of the schema is one of those that make a union optional. -/
inductive NamesNull (inflector : Inflector) : Schema → Prop where
  | null {title description : Option String} :
      NamesNull inflector (.mk title description (.Literal .Null))
  | reference {title description : Option String} {reference : String}
      (h : null_name (reference_to_name inflector reference)) :
      NamesNull inflector (.mk title description (.Reference reference))
  | array {title description : Option String} {items : Schema} (h : NamesNull inflector items) :
      NamesNull inflector (.mk title description (.Literal (.Array (some items))))
  | all_of {title description : Option String} {item : Schema} (h : NamesNull inflector item) :
      NamesNull inflector (.mk title description (.AllOf [item]))

/-- A union that is made optional by one of its alternatives. -/
def OptionalUnion (schema : Schema) : Prop :=
  ∃ items, UnionOf schema.contents items ∧ ∃ item ∈ items, NamesNull inflector item

variable {inflector}
variable {schema : Schema} {info : TypeInfo} {calls : List Ask}

/-! ## Names that stand for null -/

/-- The separator is a part of a joined name. -/
theorem mem_intercalate {c : Char} {sep a b : String} {names : List String} (h : c ∈ sep.toList) :
    c ∈ (sep.intercalate (a :: b :: names)).toList := by
  rw [String.intercalate_cons_cons, String.toList_append, String.toList_append]
  exact List.mem_append_left _ (List.mem_append_right _ h)

theorem null_name_eq_true {name : String} (h : null_name name = true) :
    name = "Null" ∨ name = "NotFound" := by
  simpa [null_name] using h

/-- No name is null that is joined by `And` or `Or`. -/
theorem not_null_name_of_mem {name : String} {c : Char} (hmem : c ∈ name.toList)
    (hc : c = 'A' ∨ c = 'O') : null_name name = false := by
  rw [← Bool.not_eq_true]
  intro hnull
  rcases null_name_eq_true hnull with rfl | rfl
  · rcases hc with rfl | rfl
    · exact absurd hmem (by decide)
    · exact absurd hmem (by decide)
  · rcases hc with rfl | rfl
    · exact absurd hmem (by decide)
    · exact absurd hmem (by decide)

theorem type_name_reference {title description : Option String} {reference : String} :
    type_name inflector (.mk title description (.Reference reference)) =
      reference_to_name inflector reference := by
  simp only [type_name, type_info]
  rfl

/-- A union has no name that stands for null. -/
theorem null_name_of_union {items : List Schema} (hname : HasName inflector schema)
    (hunion : UnionOf schema.contents items) : null_name (type_name inflector schema) = false := by
  rw [(hname.union hunion).2.1]
  have hnull : ∀ item ∈ alternatives inflector items,
      null_name (type_name inflector item) = false := by
    intro item hitem
    simpa using (List.mem_filter.mp hitem).2
  revert hnull
  rcases alternatives inflector items with _ | ⟨a, _ | ⟨b, rest⟩⟩
  · intro _
    rfl
  · intro hnull
    exact hnull a (List.mem_singleton_self a)
  · intro _
    exact not_null_name_of_mem (c := 'O') (mem_intercalate (by decide)) (Or.inr rfl)

theorem NamesNull.null_name (h : NamesNull inflector schema) (hname : HasName inflector schema) :
    null_name (type_name inflector schema) = true := by
  induction h with
  | null => simp [type_name, type_info, TypeInfo.of_name, Codegen.null_name, pure]
  | reference h => rwa [type_name_reference]
  | array h ih =>
    obtain ⟨hitems, htype, -⟩ := hname.array rfl
    rw [htype]
    exact ih hitems
  | all_of h ih =>
    obtain ⟨hitems, htype, -⟩ := hname.all_of rfl
    rw [htype, List.map_singleton, String.intercalate_singleton]
    exact ih (hitems _ (List.mem_singleton_self _))

theorem NamesNull.of_null_name (hname : HasName inflector schema)
    (hnull : Codegen.null_name (type_name inflector schema) = true) :
    NamesNull inflector schema := by
  induction schema using Schema.induction_parts with
  | h schema ih =>
    rcases schema with ⟨title, description, contents⟩
    cases contents with
    | Reference reference =>
      rw [type_name_reference] at hnull
      exact .reference hnull
    | AllOf all_of =>
      obtain ⟨hitems, htype, -⟩ := hname.all_of rfl
      rw [htype] at hnull
      rcases all_of with _ | ⟨a, _ | ⟨b, rest⟩⟩
      · simp [Codegen.null_name] at hnull
      · have ha := List.mem_singleton_self a
        rw [List.map_singleton, String.intercalate_singleton] at hnull
        exact .all_of (ih a ha (hitems a ha) hnull)
      · have hjoin : 'A' ∈ ("And".intercalate ((a :: b :: rest).map (type_name inflector))).toList :=
          mem_intercalate (by decide)
        rw [not_null_name_of_mem hjoin (Or.inl rfl)] at hnull
        simp at hnull
    | AnyOf items =>
      rw [null_name_of_union hname (Or.inl rfl)] at hnull
      simp at hnull
    | OneOf items =>
      rw [null_name_of_union hname (Or.inr rfl)] at hnull
      simp at hnull
    | Object object =>
      obtain ⟨info, calls, h⟩ := hname
      simp [type_info] at h
    | Literal l =>
      obtain ⟨info, calls, h⟩ := hname
      rcases literal_of_yields h with ⟨items, rfl⟩ | ⟨-, -, -, rfl | hfixed⟩
      · obtain ⟨hitems, htype, -⟩ := HasName.array ⟨info, calls, h⟩ rfl
        rw [htype] at hnull
        exact .array (ih items (List.mem_singleton_self items) hitems hnull)
      · exact .null
      · have hnames : ∀ name ∈ ["Type0", "Type1", "Type2", "bool"],
            Codegen.null_name name = false := by decide
        rw [← name_of_yields h, hnames _ hfixed] at hnull
        simp at hnull

/-- **Names that stand for null**, told from the shape. -/
theorem null_name_iff (hname : HasName inflector schema) :
    null_name (type_name inflector schema) = true ↔ NamesNull inflector schema :=
  ⟨NamesNull.of_null_name hname, fun h => h.null_name hname⟩

/-! ## What the type tells -/

/-- All items have types, if each of them has. -/
theorem type_infos_of_has_name {items : List Schema} (h : ∀ item ∈ items, HasName inflector item) :
    ∃ infos calls, (type_infos inflector items).Yields infos calls := by
  rw [type_infos_eq_each]
  apply Gen.exists_yields_each
  intro item hitem
  obtain ⟨info, calls, hinfo⟩ := h item hitem
  exact ⟨info, calls, Gen.yields_expect.mpr hinfo⟩

theorem union_info_of_infos (schema : Schema) (infos : List TypeInfo) :
    ∃ info calls, (union_info schema infos).Yields (some info) calls := by
  unfold union_info
  by_cases hmany : ((infos.filter (! ·.is_null)).map (·.name)).length > 1
  · rw [if_pos hmany]
    exact ⟨_, _, Gen.yields_map.mpr ⟨(), Gen.yields_collect.mpr rfl, rfl⟩⟩
  · rw [if_neg hmany]
    exact ⟨_, _, Gen.yields_pure.mpr ⟨rfl, rfl⟩⟩

theorem HasName.of_union {items : List Schema} (hunion : UnionOf schema.contents items)
    (hitems : ∀ item ∈ items, HasName inflector item) : HasName inflector schema := by
  obtain ⟨infos, calls, hinfos⟩ := type_infos_of_has_name hitems
  obtain ⟨info, calls', hinfo⟩ := union_info_of_infos schema infos
  refine ⟨info, calls ++ calls', ?_⟩
  rw [type_info_union hunion]
  exact Gen.yields_bind.mpr ⟨infos, calls, calls', hinfos, hinfo, rfl⟩

/-- A union is never a vector, and it is optional if an item is null. -/
theorem union_info_attributes {infos : List TypeInfo}
    (h : (union_info schema infos).Yields (some info) calls) :
    info.array = false ∧ info.is_optional = infos.any (·.is_null) ∧ info.required ≠ .No true := by
  have hinfo : info = ⟨"Or".intercalate ((infos.filter (! ·.is_null)).map (·.name)), false,
      if infos.any (·.is_null) then .No false else .Yes⟩ := by
    unfold union_info at h
    by_cases hmany : ((infos.filter (! ·.is_null)).map (·.name)).length > 1
    · rw [if_pos hmany] at h
      obtain ⟨u, -, heq⟩ := Gen.yields_map.mp h
      exact Option.some.inj heq
    · rw [if_neg hmany] at h
      exact Option.some.inj (Gen.yields_pure.mp h).1
  rw [hinfo]
  refine ⟨rfl, ?_⟩
  cases infos.any (·.is_null) with
  | true => exact ⟨rfl, by simp⟩
  | false => exact ⟨rfl, by simp⟩

theorem optional_union_of_union {items : List Schema} (hunion : UnionOf schema.contents items) :
    OptionalUnion inflector schema ↔ ∃ item ∈ items, NamesNull inflector item := by
  constructor
  · intro h
    obtain ⟨items', hunion', item, hitem, hnull⟩ := h
    have hsame : items' = items := by
      rcases hunion with h | h
      · rcases hunion' with h' | h'
        · exact SchemaContents.AnyOf.inj (h'.symm.trans h)
        · simp [h] at h'
      · rcases hunion' with h' | h'
        · simp [h] at h'
        · exact SchemaContents.OneOf.inj (h'.symm.trans h)
    exact ⟨item, hsame ▸ hitem, hnull⟩
  · intro h
    exact ⟨items, hunion, h⟩

/-- What the type tells beside its name. -/
structure Attributes (inflector : Inflector) (schema : Schema) (info : TypeInfo) : Prop where
  array : info.array = schema.is_array
  optional : info.is_optional = true ↔ OptionalUnion inflector schema
  /-- A null value is not skipped, unless it is the field that says so. -/
  required : info.required ≠ .No true

theorem is_array_of_union {items : List Schema} (hunion : UnionOf schema.contents items) :
    schema.is_array = false := by
  unfold Schema.is_array
  rcases hunion with heq | heq
  · rw [heq]
  · rw [heq]

/-- Of a union, the names of the items are looked at. -/
theorem Attributes.of_union {items : List Schema} (hunion : UnionOf schema.contents items)
    (h : (type_info inflector schema).Yields (some info) calls) :
    Attributes inflector schema info := by
  rw [type_info_union hunion] at h
  obtain ⟨infos, calls₁, calls₂, hinfos, hrest, rfl⟩ := Gen.yields_bind.mp h
  obtain ⟨hnames, -, hhas⟩ := type_infos_yields hinfos
  obtain ⟨harray, hoptional, hrequired⟩ := union_info_attributes hrest
  refine ⟨harray.trans (is_array_of_union hunion).symm, ?_, hrequired⟩
  have hany : infos.any (·.is_null) = items.any fun item => null_name (type_name inflector item) := by
    have hmap : (infos.map (·.name)).any null_name =
        (items.map (type_name inflector)).any null_name := by rw [hnames]
    rwa [List.any_map, List.any_map] at hmap
  rw [hoptional, hany, optional_union_of_union hunion, List.any_eq_true]
  exact exists_congr fun item => and_congr_right fun hitem => null_name_iff (hhas item hitem)

/-- What is no union is required. -/
theorem Attributes.of_required (hunion : ∀ items, ¬ UnionOf schema.contents items)
    (harray : info.array = schema.is_array) (hrequired : info.required = .Yes) :
    Attributes inflector schema info := by
  refine ⟨harray, ?_, by simp [hrequired]⟩
  constructor
  · intro h
    simp [TypeInfo.is_optional, hrequired] at h
  · intro h
    obtain ⟨items, h, -⟩ := h
    exact absurd h (hunion items)

/-- **Vectors and optional types**, told from the shape. -/
theorem attributes_of_yields (h : (type_info inflector schema).Yields (some info) calls) :
    Attributes inflector schema info := by
  rcases schema with ⟨title, description, contents⟩
  cases contents with
  | AnyOf items => exact .of_union (Or.inl rfl) h
  | OneOf items => exact .of_union (Or.inr rfl) h
  | Reference reference =>
    simp only [type_info] at h
    obtain ⟨u, -, heq⟩ := Gen.yields_map.mp h
    obtain rfl := Option.some.inj heq
    exact .of_required (by simp [UnionOf, Schema.contents]) rfl rfl
  | AllOf all_of =>
    simp only [type_info] at h
    obtain ⟨infos, -, heq⟩ := Gen.yields_map.mp h
    obtain rfl := Option.some.inj heq
    exact .of_required (by simp [UnionOf, Schema.contents]) rfl rfl
  | Object object => simp [type_info] at h
  | Literal l =>
    have hunion : ∀ items, ¬ UnionOf (Schema.mk title description (.Literal l)).contents items := by
      simp [UnionOf, Schema.contents]
    rcases literal_of_yields h with ⟨items, rfl⟩ | ⟨harray, hinfo, -, -⟩
    · simp only [type_info] at h
      obtain ⟨info', -, heq⟩ := Gen.yields_map.mp h
      obtain rfl := Option.some.inj heq
      exact .of_required hunion rfl rfl
    · have hno_array : (Schema.mk title description (.Literal l)).is_array = false := by
        cases l with
        | Array items => exact absurd rfl (harray items)
        | _ => rfl
      rw [hinfo]
      exact .of_required hunion hno_array.symm rfl

/-! ## One alternative beside null -/

/-- An alternative that stands for null itself. -/
def NullAlternative (inflector : Inflector) (schema : Schema) : Bool :=
  match schema.contents with
  | .Literal .Null => true
  | .Reference reference => null_name (reference_to_name inflector reference)
  | _ => false

/-- A union of null with one other schema. -/
def NullOr (inflector : Inflector) (schema other : Schema) : Prop :=
  ∃ items, UnionOf schema.contents items ∧ items.any (NullAlternative inflector) ∧
    items.filter (! NullAlternative inflector ·) = [other]

theorem NullAlternative.names_null (h : NullAlternative inflector schema = true) :
    NamesNull inflector schema := by
  rcases schema with ⟨title, description, contents⟩
  unfold NullAlternative at h
  split at h
  · next hcontents =>
    obtain rfl := hcontents
    exact .null
  · next reference hcontents =>
    obtain rfl := hcontents
    exact .reference h
  · simp at h

theorem NullAlternative.has_name (h : NullAlternative inflector schema = true) :
    HasName inflector schema := by
  rcases schema with ⟨title, description, contents⟩
  unfold NullAlternative at h
  split at h
  · next hcontents =>
    obtain rfl := hcontents
    refine ⟨.of_name "Null", [], ?_⟩
    simp [type_info]
  · next reference hcontents =>
    obtain rfl := hcontents
    let name := reference_to_name inflector reference
    refine ⟨.of_name name, [(name, .Reference reference)], ?_⟩
    simp only [type_info]
    exact Gen.yields_map.mpr ⟨(), Gen.yields_collect.mpr rfl, rfl⟩
  · simp at h

theorem NullOr.has_name {other : Schema} (h : NullOr inflector schema other)
    (hother : HasName inflector other) : HasName inflector schema := by
  obtain ⟨items, hunion, -, hone⟩ := h
  apply HasName.of_union hunion
  intro item hitem
  cases hnull : NullAlternative inflector item with
  | true => exact NullAlternative.has_name hnull
  | false =>
    have hmem : item ∈ items.filter (! NullAlternative inflector ·) :=
      List.mem_filter.mpr ⟨hitem, by rw [hnull]; rfl⟩
    rw [hone] at hmem
    rwa [List.mem_singleton.mp hmem]

/-- The union has the name of the other schema, unless that stands for null. -/
theorem NullOr.type_name {other : Schema} (h : NullOr inflector schema other)
    (hother : HasName inflector other) :
    type_name inflector schema =
      if null_name (Codegen.type_name inflector other) then ""
      else Codegen.type_name inflector other := by
  have hname := h.has_name hother
  obtain ⟨items, hunion, -, hone⟩ := h
  have halternatives : alternatives inflector items = alternatives inflector [other] := by
    rw [← hone]
    unfold alternatives
    rw [List.filter_filter]
    apply List.filter_congr
    intro item hitem
    cases hnull : NullAlternative inflector item with
    | false => simp
    | true =>
      have hnamed := (NullAlternative.names_null hnull).null_name (NullAlternative.has_name hnull)
      rw [hnamed]
      rfl
  rw [(hname.union hunion).2.1, halternatives]
  unfold alternatives
  cases hnull : null_name (Codegen.type_name inflector other) with
  | true =>
    rw [List.filter_singleton, hnull]
    rfl
  | false =>
    rw [List.filter_singleton, hnull]
    exact String.intercalate_singleton

/-! ## Types as they are printed -/

theorem length_get_type (info : TypeInfo) :
    info.get_type.length = info.name.length + (if info.array then 5 else 0) +
      (if info.is_optional then 8 else 0) := by
  have hvec : "Vec<".length = 4 := by decide
  have hoption : "Option<".length = 7 := by decide
  have hclose : ">".length = 1 := by decide
  unfold TypeInfo.get_type
  cases info.array with
  | true =>
    cases info.is_optional with
    | true =>
      simp only [if_true, String.length_append, hvec, hoption, hclose]
      omega
    | false =>
      simp only [if_true, Bool.false_eq_true, if_false, String.length_append, hvec, hclose]
      omega
  | false =>
    cases info.is_optional with
    | true =>
      simp only [if_true, Bool.false_eq_true, if_false, String.length_append, hoption, hclose]
      omega
    | false => rfl

/-- The name alone is printed if it is no vector, and not optional. -/
theorem get_type_eq_name_iff :
    info.get_type = info.name ↔ info.array = false ∧ info.is_optional = false := by
  constructor
  · intro h
    have hlen := length_get_type info
    rw [h] at hlen
    constructor
    · cases harray : info.array with
      | false => rfl
      | true =>
        rw [harray, if_pos rfl] at hlen
        omega
    · cases hoptional : info.is_optional with
      | false => rfl
      | true =>
        rw [hoptional, if_pos rfl] at hlen
        omega
  · rintro ⟨harray, hoptional⟩
    simp [TypeInfo.get_type, harray, hoptional]

/-- The type of the union is the optional one of the other schema. -/
def OptionOf (inflector : Inflector) (schema other : Schema) : Prop :=
  ∃ info calls info' calls', (type_info inflector schema).Yields (some info) calls ∧
    (type_info inflector other).Yields (some info') calls' ∧
    info.get_type = "Option<" ++ info'.get_type ++ ">"

/-- The union itself is optional, and no vector. -/
theorem NullOr.get_type {other : Schema} (hunion : NullOr inflector schema other)
    (hinfo : (type_info inflector schema).Yields (some info) calls) :
    info.get_type = "Option<" ++ info.name ++ ">" := by
  obtain ⟨items, hitems, hany, -⟩ := hunion
  obtain ⟨item, hitem, hnull⟩ := List.any_eq_true.mp hany
  obtain ⟨harray, hoptional, -⟩ := Attributes.of_union hitems hinfo
  have hoptional := hoptional.mpr ⟨items, hitems, item, hitem, NullAlternative.names_null hnull⟩
  simp [TypeInfo.get_type, harray, is_array_of_union hitems, hoptional]

/-- A name that stands for null is not empty, nor is what is printed of it. -/
theorem get_type_ne_empty (hnull : null_name info.name = true) : info.get_type ≠ "" := by
  intro h
  have hzero : info.name.length = 0 := by
    have hlen := length_get_type info
    rw [h, String.length_empty] at hlen
    omega
  rcases null_name_eq_true hnull with hname | hname
  · rw [hname] at hzero
    exact absurd hzero (by decide)
  · rw [hname] at hzero
    exact absurd hzero (by decide)

/-- **Null or one other schema**: the type is the optional one if this schema is
    no array, not optional itself, and does not stand for null. -/
theorem option_of_iff {other : Schema} (hunion : NullOr inflector schema other)
    (hother : HasName inflector other) :
    OptionOf inflector schema other ↔
      other.is_array = false ∧ ¬ OptionalUnion inflector other ∧ ¬ NamesNull inflector other := by
  obtain ⟨info, calls, hinfo⟩ := hunion.has_name hother
  obtain ⟨info', calls', hinfo'⟩ := id hother
  have hname := hunion.type_name hother
  rw [← name_of_yields hinfo, ← name_of_yields hinfo'] at hname
  obtain ⟨harray', hoptional', -⟩ := attributes_of_yields hinfo'
  have hsame : OptionOf inflector schema other ↔ info'.get_type = info.name := by
    constructor
    · rintro ⟨i, c, i', c', hi, hi', heq⟩
      obtain rfl := Option.some.inj (hi.unique hinfo).1
      obtain rfl := Option.some.inj (hi'.unique hinfo').1
      rw [hunion.get_type hinfo, String.append_left_inj, String.append_right_inj] at heq
      exact heq.symm
    · intro h
      exact ⟨info, calls, info', calls', hinfo, hinfo', by rw [hunion.get_type hinfo, h]⟩
  rw [hsame, hname]
  cases hnull : null_name info'.name with
  | true =>
    have hnames : NamesNull inflector other := by
      rw [name_of_yields hinfo'] at hnull
      exact NamesNull.of_null_name hother hnull
    rw [if_pos rfl]
    constructor
    · intro h
      exact absurd h (get_type_ne_empty hnull)
    · intro h
      exact absurd hnames h.2.2
  | false =>
    rw [name_of_yields hinfo', ← Bool.not_eq_true, null_name_iff hother] at hnull
    have hrequired : info'.is_optional = false ↔ ¬ OptionalUnion inflector other := by
      rw [← hoptional', Bool.not_eq_true]
    rw [if_neg Bool.false_ne_true, get_type_eq_name_iff, harray', hrequired]
    constructor
    · rintro ⟨harray, hoptional⟩
      exact ⟨harray, hoptional, hnull⟩
    · rintro ⟨harray, hoptional, -⟩
      exact ⟨harray, hoptional⟩

/-! ## Parameters and fields -/

/-- Null is a value of the schema: of null itself, of a reference that stands
    for it or leads to such a schema, of a union with such an alternative, and
    of schemas all of which have it. -/
inductive AdmitsNull (inflector : Inflector) (specs : OpenRpc) : Schema → Prop where
  | null {title description : Option String} :
      AdmitsNull inflector specs (.mk title description (.Literal .Null))
  | not_found {title description : Option String} {reference : String}
      (h : null_name (reference_to_name inflector reference)) :
      AdmitsNull inflector specs (.mk title description (.Reference reference))
  | reference {title description : Option String} {reference : String} {schema : Schema}
      (hschema : specs.get_schema reference = some schema)
      (h : AdmitsNull inflector specs schema) :
      AdmitsNull inflector specs (.mk title description (.Reference reference))
  | alternative {title description : Option String} {contents : SchemaContents}
      {items : List Schema} {item : Schema} (hunion : UnionOf contents items)
      (hitem : item ∈ items) (h : AdmitsNull inflector specs item) :
      AdmitsNull inflector specs (.mk title description contents)
  | all_of {title description : Option String} {all_of : List Schema}
      (h : ∀ item ∈ all_of, AdmitsNull inflector specs item) :
      AdmitsNull inflector specs (.mk title description (.AllOf all_of))

/-- A parameter is optional if it is not required, whatever its schema. -/
theorem optional_of_parameter {descriptor : ContentDescriptor} {printed : String × TypeInfo}
    (h : (generate_parameter inflector (.Inline descriptor)).Yields printed calls) :
    printed.2.is_optional = true ↔ descriptor.required = false := by
  obtain ⟨inlined, calls₁, calls₂, hinline, hrest, -⟩ := Gen.yields_bind.mp h
  obtain rfl : descriptor = inlined := Outcome.ok.inj (Gen.yields_lift.mp hinline).1
  obtain ⟨info, -, rfl⟩ := Gen.yields_map.mp hrest
  cases hrequired : descriptor.required with
  | true => simp [TypeInfo.is_optional, TypeInfo.set_required]
  | false => simp [TypeInfo.is_optional, TypeInfo.set_required]

/-- A field of a struct is optional if it is not required, or a union that is
    made optional by one of its alternatives. -/
theorem optional_of_field {object : ObjectLiteral} {property : String × Schema} {field : Field}
    (h : (field_of_property inflector object property).Yields field calls) :
    field.type_info.is_optional = true ↔
      property.1 ∉ object.required ∨ OptionalUnion inflector property.2 := by
  obtain ⟨info, hinfo, rfl⟩ := Gen.yields_map.mp h
  obtain ⟨-, hoptional, -⟩ := attributes_of_yields (Gen.yields_expect.mp hinfo)
  rw [← hoptional]
  cases hrequired : info.required with
  | No skip_if_null => simp [TypeInfo.is_optional, hrequired]
  | Yes =>
    by_cases hmem : property.1 ∈ object.required
    · simp [TypeInfo.is_optional, hrequired, hmem]
    · simp [TypeInfo.is_optional, hrequired, hmem]

/-- A field for an item of an `allOf` has the type of the item. -/
theorem optional_of_item {fields : List Field} {field : Field} {calls' : List Ask}
    (hinfo : (type_info inflector schema).Yields (some info) calls')
    (h : (fields_of_item inflector schema).Yields fields calls) (hfield : field ∈ fields) :
    field.type_info.is_optional = true ↔ OptionalUnion inflector schema := by
  obtain ⟨o, calls₁, calls₂, ho, hrest, -⟩ := Gen.yields_bind.mp h
  obtain ⟨rfl, -⟩ := ho.unique hinfo
  obtain ⟨rfl, -⟩ := Gen.yields_pure.mp hrest
  obtain rfl := List.mem_singleton.mp hfield
  exact (attributes_of_yields hinfo).optional

/-! ## Nullability -/

variable (inflector) in
/-- Where the generated type is the one that the schema asks for: of a union
    of null with one other schema, of parameters, of fields, and of the fields
    for the items of an `allOf`. -/
structure NullabilityKept (specs : OpenRpc) : Prop where
  union : ∀ schema other, NullOr inflector schema other → HasName inflector other →
    (OptionOf inflector schema other ↔
      other.is_array = false ∧ ¬ OptionalUnion inflector other ∧ ¬ NamesNull inflector other)
  parameter : ∀ descriptor printed calls,
    (generate_parameter inflector (.Inline descriptor)).Yields printed calls →
    ((AdmitsNull inflector specs descriptor.schema → printed.2.is_optional = true) ↔
      ¬ AdmitsNull inflector specs descriptor.schema ∨ descriptor.required = false)
  field : ∀ object property field calls,
    (field_of_property inflector object property).Yields field calls →
    ((AdmitsNull inflector specs property.2 → field.type_info.is_optional = true) ↔
      ¬ AdmitsNull inflector specs property.2 ∨ property.1 ∉ object.required ∨
        OptionalUnion inflector property.2)
  item : ∀ schema info fields calls calls',
    (type_info inflector schema).Yields (some info) calls →
    (fields_of_item inflector schema).Yields fields calls' → ∀ field ∈ fields,
    ((AdmitsNull inflector specs schema → field.type_info.is_optional = true) ↔
      ¬ AdmitsNull inflector specs schema ∨ OptionalUnion inflector schema)

/-- **Nullability**, exactly. -/
theorem nullability_kept (specs : OpenRpc) : NullabilityKept inflector specs where
  union _ _ hunion hother := option_of_iff hunion hother
  parameter _ _ _ h := by rw [optional_of_parameter h, imp_iff_not_or]
  field _ _ _ _ h := by rw [optional_of_field h, imp_iff_not_or]
  item _ _ _ _ _ hinfo h _ hfield := by rw [optional_of_item hinfo h hfield, imp_iff_not_or]

end nullability

/-! ## A vector that is lost -/

/-- The receipts of a block. -/
def receipts : Schema := .of_contents (.Literal (.Array (some (component "ReceiptInfo"))))

/-- What `eth_getBlockReceipts` returns. -/
def block_receipts : Schema := .of_contents (.OneOf [component "notFound", receipts])

/-- Nothing or a vector of receipts is printed as `Option<ReceiptInfo>`. -/
theorem block_receipts_vector_lost :
    NullOr letters_inflector block_receipts receipts ∧
      (named_type letters_inflector receipts).map (·.get_type) = some "Vec<ReceiptInfo>" ∧
      (named_type letters_inflector block_receipts).map (·.get_type) = some "Option<ReceiptInfo>" ∧
      ¬ OptionOf letters_inflector block_receipts receipts := by
  have hunion : NullOr letters_inflector block_receipts receipts := by
    refine ⟨_, Or.inr rfl, ?_, ?_⟩
    · decide +kernel
    · rfl
  have hname : HasName letters_inflector receipts :=
    ⟨⟨"ReceiptInfo", true, .Yes⟩, _, by rfl⟩
  refine ⟨hunion, by decide +kernel, by decide +kernel, ?_⟩
  rw [option_of_iff hunion hname]
  intro h
  exact absurd h.1 (by decide)

end Codegen

end EthRpc
