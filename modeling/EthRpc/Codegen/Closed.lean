import EthRpc.Codegen.TypeNames

/-! # Closed code

    Which of the names that the generator prints are names of items that it
    prints, too.

    * `generate_rpc_method_yields`: a signature in terms of its `places`.
    * `InUse`: the definitions that are printed, told from the document.
    * `generated_iff`: each of them is printed once, and nothing else is.
    * `closed_iff`: the generated code is closed if and only if the schemas
      whose names are not recorded have a name that is known by chance.
-/

namespace EthRpc

namespace Codegen

section closed
variable (inflector : Inflector)

/-! ## Signatures -/

/-- The schema of the result. -/
def result_schemas : Option (RefOr ContentDescriptor) → List Schema
  | some (.Inline descriptor) => [descriptor.schema]
  | _ => []

/-- The result, where it is a reference. -/
def result_references : Option (RefOr ContentDescriptor) → List String
  | some (.Reference reference) => [reference]
  | _ => []

/-- The schema of a parameter. -/
def param_schemas (param : RefOr ContentDescriptor) : List Schema :=
  param.inlined.map (·.schema)

/-- Where names are asked for in a method. -/
def Method.places (method : Method) : List Schema :=
  result_schemas method.result ++ method.params.flatMap param_schemas

/-- The names in the signature of a method. -/
def Method.names (method : Method) : List String :=
  (method.params.flatMap param_schemas).map (type_name inflector) ++
    ((result_schemas method.result).map (type_name inflector) ++ result_references method.result)

theorem Method.mem_names {method : Method} {name : String} :
    name ∈ method.names inflector ↔
      (∃ schema ∈ method.places, type_name inflector schema = name) ∨
        name ∈ result_references method.result := by
  unfold Method.names Method.places
  simp only [List.mem_append, List.mem_map]
  constructor
  · intro h
    rcases h with ⟨schema, hmem, heq⟩ | ⟨schema, hmem, heq⟩ | hmem
    · exact Or.inl ⟨schema, Or.inr hmem, heq⟩
    · exact Or.inl ⟨schema, Or.inl hmem, heq⟩
    · exact Or.inr hmem
  · intro h
    rcases h with ⟨schema, hmem | hmem, heq⟩ | hmem
    · exact Or.inr (Or.inl ⟨schema, hmem, heq⟩)
    · exact Or.inl ⟨schema, hmem, heq⟩
    · exact Or.inr (Or.inr hmem)

variable {inflector}
variable {calls : List Ask}

theorem generate_result_yields {result : Option (RefOr ContentDescriptor)} {printed : ResultType}
    (h : (generate_result inflector result).Yields printed calls) :
    printed.type_names =
        (result_schemas result).map (type_name inflector) ++ result_references result ∧
      calls = (result_schemas result).flatMap (asks inflector) ∧
      ∀ schema ∈ result_schemas result, HasName inflector schema := by
  rcases result with _ | reference | descriptor
  · obtain ⟨rfl, rfl⟩ := Gen.yields_pure.mp h
    exact ⟨rfl, rfl, by simp [result_schemas]⟩
  · obtain ⟨rfl, rfl⟩ := Gen.yields_pure.mp h
    exact ⟨rfl, rfl, by simp [result_schemas]⟩
  · obtain ⟨info, hinfo, rfl⟩ := Gen.yields_map.mp h
    obtain ⟨hname, rfl, hhas⟩ := of_yields_expect hinfo
    refine ⟨congrArg (fun name => [name]) hname, ?_, List.forall_mem_singleton.mpr hhas⟩
    rw [result_schemas, List.flatMap_singleton]

theorem generate_parameter_yields {param : RefOr ContentDescriptor} {printed : String × TypeInfo}
    (h : (generate_parameter inflector param).Yields printed calls) :
    [printed.2.name] = (param_schemas param).map (type_name inflector) ∧
      calls = (param_schemas param).flatMap (asks inflector) ∧
      ∀ schema ∈ param_schemas param, HasName inflector schema := by
  obtain ⟨descriptor, calls₁, calls₂, hinline, hrest, rfl⟩ := Gen.yields_bind.mp h
  obtain ⟨hok, rfl⟩ := Gen.yields_lift.mp hinline
  obtain ⟨info, hinfo, rfl⟩ := Gen.yields_map.mp hrest
  obtain ⟨hname, rfl, hhas⟩ := of_yields_expect hinfo
  have hschemas : param_schemas param = [descriptor.schema] := by
    rw [param_schemas, RefOr.unwrap_inline_eq_ok hok, List.map_singleton]
  rw [hschemas, List.flatMap_singleton, List.nil_append]
  exact ⟨congrArg (fun name => [name]) hname, rfl, List.forall_mem_singleton.mpr hhas⟩

/-- **A signature** prints the names of its method, and asks for what its
    places ask for. -/
theorem generate_rpc_method_yields {method : Method} {signature : Signature}
    (h : (generate_rpc_method inflector method).Yields signature calls) :
    signature.type_names = method.names inflector ∧
      calls = method.places.flatMap (asks inflector) ∧
      ∀ schema ∈ method.places, HasName inflector schema := by
  obtain ⟨result, calls₁, calls₂, hresult, hrest, rfl⟩ := Gen.yields_bind.mp h
  obtain ⟨parameters, hparameters, rfl⟩ := Gen.yields_map.mp hrest
  obtain ⟨hresultname, rfl, hresulthas⟩ := generate_result_yields hresult
  obtain ⟨hnames, rfl, hhas⟩ := Gen.yields_each
    (g := fun printed : String × TypeInfo => [printed.2.name])
    (fun param printed calls hparam => generate_parameter_yields hparam) hparameters
  refine ⟨?_, ?_, ?_⟩
  · have hparams : parameters.map (·.2.name) =
        (method.params.flatMap param_schemas).map (type_name inflector) := by
      have hflat := congrArg List.flatten hnames
      rw [← List.flatMap_def, ← List.flatMap_def, ← List.map_flatMap] at hflat
      rw [← hflat, ← List.map_eq_flatMap]
    show parameters.map (·.2.name) ++ result.type_names = _
    rw [hparams, hresultname, Method.names]
  · rw [Method.places, List.flatMap_append, List.flatMap_assoc]
  · intro schema hschema
    rcases List.mem_append.mp hschema with hmem | hmem
    · exact hresulthas schema hmem
    · obtain ⟨param, hparam, hmem⟩ := List.mem_flatMap.mp hmem
      exact hhas param hparam schema hmem

/-! ## The requests of a document -/

section document
variable (inflector) (specs : OpenRpc) (extra_types : List String)

/-- The methods of the document that are supported. -/
def supported_methods : List Method :=
  (specs.methods.flatMap RefOr.inlined).filter fun method => method.name ∈ SUPPORTED_ETH_METHODS

/-- What is asked for with an extra type. -/
def extra_ask (type_name : String) : Ask :=
  (type_name, .Reference ("#/components/schemas/" ++ type_name))

/-- What is asked for before the types are generated. -/
def requests : List Ask :=
  extra_types.map extra_ask ++
    (supported_methods specs).flatMap fun method => method.places.flatMap (asks inflector)

/-- What a definition asks for. -/
def expand (_ : String) (ref_or_schema : ReferenceOrSchema) : List Ask :=
  match (ref_or_schema.schema specs : Outcome Empty Schema) with
  | .ok schema => (places schema).flatMap (asks inflector)
  | _ => []

/-- Where the generation of the types starts. -/
def start : Worklist.State String ReferenceOrSchema :=
  (TypeGenerator.new inflector).toState.collect_all (requests inflector specs extra_types)

/-- The definitions that are generated. -/
def InUse : String → ReferenceOrSchema → Prop :=
  Worklist.Taken (expand inflector specs) (start inflector specs extra_types)

/-- The name is asked for: at the start, or by a definition in use. -/
def Asked (name : String) : Prop :=
  name ∈ Worklist.names (requests inflector specs extra_types) ∨
    ∃ other ref_or_schema, InUse inflector specs extra_types other ref_or_schema ∧
      name ∈ Worklist.names (expand inflector specs other ref_or_schema)

end document

variable {specs : OpenRpc} {extra_types : List String}

theorem foldl_collect_extra_type (g : TypeGenerator) :
    extra_types.foldl TypeGenerator.collect_extra_type g =
      { g with toState := g.toState.collect_all (extra_types.map extra_ask) } := by
  induction extra_types generalizing g with
  | nil => rfl
  | cons type_name extra_types ih =>
    rw [List.foldl_cons, ih]
    rfl

/-- The methods of the document whose names were asked for. -/
def TypeGenerator.listed (g : TypeGenerator) (specs : OpenRpc) : List Method :=
  (specs.methods.flatMap RefOr.inlined).filter fun method => method.name ∈ g.filtered_method_names

theorem supported_eq_listed {g : TypeGenerator} {methods : List Method}
    (h : (g.supported specs).Yields methods calls) : methods = g.listed specs ∧ calls = [] := by
  obtain ⟨all, hall, rfl⟩ := Gen.yields_map.mp h
  have hunwrap : all.map (fun method => [method]) = specs.methods.map RefOr.inlined ∧
      calls = specs.methods.flatMap (fun _ => []) ∧ ∀ r ∈ specs.methods, True := by
    apply Gen.yields_each ?_ hall
    intro r method calls hr
    obtain ⟨hok, rfl⟩ := Gen.yields_lift.mp hr
    exact ⟨(RefOr.unwrap_inline_eq_ok hok).symm, rfl, trivial⟩
  obtain ⟨hinlined, rfl, -⟩ := hunwrap
  have hflat := congrArg List.flatten hinlined
  rw [← List.flatMap_def, ← List.flatMap_def] at hflat
  refine ⟨?_, by simp⟩
  rw [TypeGenerator.listed, ← hflat, List.flatMap_singleton']

theorem supported_yields {g : TypeGenerator} {methods : List Method}
    (hnames : g.filtered_method_names = SUPPORTED_ETH_METHODS.toFinset)
    (h : (g.supported specs).Yields methods calls) :
    methods = supported_methods specs ∧ calls = [] := by
  obtain ⟨hlisted, hcalls⟩ := supported_eq_listed h
  refine ⟨?_, hcalls⟩
  rw [hlisted, TypeGenerator.listed, supported_methods]
  exact List.filter_congr fun method _ => by simp [hnames]

theorem perform_eq_ok {α : Type} {g g' : TypeGenerator} {x : Gen α} {a : α}
    (h : g.perform x = .ok (a, g')) :
    ∃ calls, x.Yields a calls ∧ g'.toState = g.toState.collect_all calls := by
  obtain ⟨⟨a', calls⟩, hx, h⟩ := Outcome.bind_eq_ok.mp h
  cases h
  exact ⟨calls, hx, rfl⟩

/-- **The signatures** have the names of the supported methods, and collect what
    their places ask for. -/
theorem generate_rpc_methods_eq_ok {g g' : TypeGenerator} {signatures : List Signature}
    (hnames : g.filtered_method_names = SUPPORTED_ETH_METHODS.toFinset)
    (h : g.generate_rpc_methods inflector specs = .ok (signatures, g')) :
    signatures.map Signature.type_names =
        (supported_methods specs).map (Method.names inflector) ∧
      g'.toState = g.toState.collect_all
        ((supported_methods specs).flatMap fun method => method.places.flatMap (asks inflector)) ∧
      ∀ method ∈ supported_methods specs, ∀ schema ∈ method.places,
        HasName inflector schema := by
  obtain ⟨calls, hcalls, hstate⟩ := perform_eq_ok h
  obtain ⟨methods, calls₁, calls₂, hsupported, hrest, rfl⟩ := Gen.yields_bind.mp hcalls
  obtain ⟨rfl, rfl⟩ := supported_yields hnames hsupported
  by_cases hmissing : (supported_methods specs).length ≠ g.filtered_method_names.card
  · rw [if_pos hmissing] at hrest
    exact absurd hrest Gen.not_yields_panic
  · rw [if_neg hmissing] at hrest
    obtain ⟨hsignatures, rfl, hhas⟩ := Gen.yields_each
      (fun method signature calls hmethod => generate_rpc_method_yields hmethod) hrest
    exact ⟨hsignatures, hstate, hhas⟩

/-- A successful generation, in two parts. -/
theorem generate_eq_ok {fuel : Nat} {out : Generated}
    (h : generate inflector fuel specs extra_types = .ok (some out)) :
    (out.methods.map Signature.type_names =
        (supported_methods specs).map (Method.names inflector) ∧
      ∀ method ∈ supported_methods specs, ∀ schema ∈ method.places, HasName inflector schema) ∧
    Worklist.run (generate_collected inflector specs) fuel (start inflector specs extra_types) =
      .ok (some out.types) := by
  obtain ⟨⟨signatures, g⟩, hmethods, h⟩ := Outcome.bind_eq_ok.mp h
  obtain ⟨types, htypes, h⟩ := Outcome.bind_eq_ok.mp h
  rw [foldl_collect_extra_type] at hmethods
  obtain ⟨hsignatures, hstate, hhas⟩ := generate_rpc_methods_eq_ok rfl hmethods
  unfold TypeGenerator.generate_types at htypes
  rw [hstate] at htypes
  cases types with
  | none => cases h
  | some types =>
    cases h
    refine ⟨⟨hsignatures, hhas⟩, ?_⟩
    rw [start, requests, Worklist.collect_all_append]
    exact htypes

/-! ## Definitions -/

/-- The work on a definition: it is printed under the name that it was asked
    for, with the names of its places. -/
theorem generate_collected_eq_ok {name : String} {ref_or_schema : ReferenceOrSchema}
    {printer : TypePrinter}
    (h : generate_collected inflector specs name ref_or_schema = .ok (printer, calls)) :
    printer.name = name ∧ calls = expand inflector specs name ref_or_schema ∧
      ∃ schema, ref_or_schema.schema specs = (.ok schema : Outcome Empty Schema) ∧
        printer.type_names = (printed_places inflector schema).map (type_name inflector) ∧
        ∀ place ∈ places schema, HasName inflector place := by
  obtain ⟨schema, calls₁, calls₂, hschema, hrest, rfl⟩ := Gen.yields_bind.mp h
  obtain ⟨hok, rfl⟩ := Gen.yields_lift.mp hschema
  obtain ⟨type, calls₃, calls₄, htype, hprint, rfl⟩ := Gen.yields_bind.mp hrest
  obtain ⟨item, hprinted, rfl⟩ := Gen.yields_map.mp hprint
  obtain ⟨-, rfl⟩ := Gen.yields_lift.mp hprinted
  obtain ⟨hname, hnames, rfl, hhas⟩ := generate_type_yields htype
  refine ⟨hname, ?_, schema, hok, hnames, hhas⟩
  rw [expand, hok, List.append_nil, List.nil_append]

/-- The names of the places in a definition. -/
def definition_names (inflector : Inflector) (specs : OpenRpc) (ref_or_schema : ReferenceOrSchema) :
    List String :=
  match (ref_or_schema.schema specs : Outcome Empty Schema) with
  | .ok schema => (printed_places inflector schema).map (type_name inflector)
  | _ => []

theorem mem_places_of_printed {schema place : Schema}
    (h : place ∈ printed_places inflector schema) : place ∈ places schema := by
  rcases schema with ⟨title, description, contents⟩
  cases contents with
  | AnyOf items => exact (List.mem_filter.mp h).1
  | OneOf items => exact (List.mem_filter.mp h).1
  | Reference reference => exact h
  | AllOf all_of => exact h
  | Literal l => exact h
  | Object object => exact h

section document
variable (inflector) (specs) (extra_types)

/-- The schemas whose names are printed: of the parameters and results of the
    methods, and of the places in the definitions. -/
inductive Printed : Schema → Prop where
  | method {method : Method} {schema : Schema} (hmethod : method ∈ supported_methods specs)
      (h : schema ∈ method.places) : Printed schema
  | definition {name : String} {ref_or_schema : ReferenceOrSchema} {schema place : Schema}
      (hused : InUse inflector specs extra_types name ref_or_schema)
      (hschema : ref_or_schema.schema specs = (.ok schema : Outcome Empty Schema))
      (h : place ∈ printed_places inflector schema) : Printed place

/-- The name is a predefined one, or one that is asked for. The type for what
    is not found is never generated. -/
def Known (name : String) : Prop :=
  Predefined name ∨
    Asked inflector specs extra_types name ∧ name ≠ inflector.to_pascal_case "notFound"

/-- The names that are printed are recorded with their schemas, or are known
    from elsewhere. -/
structure NamesRecorded : Prop where
  schemas : ∀ schema, Printed inflector specs extra_types schema →
    RecordsName inflector schema ∧
        type_name inflector schema ≠ inflector.to_pascal_case "notFound" ∨
      Known inflector specs extra_types (type_name inflector schema)
  results : ∀ method ∈ supported_methods specs, ∀ name ∈ result_references method.result,
    Known inflector specs extra_types name

end document

/-- The generated code is closed: each type name in it is a predefined one, or
    the name of exactly one of its items. -/
def Generated.Closed (out : Generated) : Prop :=
  ∀ name ∈ out.type_names, Predefined name ∨ (out.types.map (·.name)).count name = 1

/-! ## What is generated -/

theorem mem_generated_new {name : String} :
    name ∈ (TypeGenerator.new inflector).generated ↔
      name = inflector.to_pascal_case "notFound" ∨ name ∈ PRIMITIVE_MAPPINGS.map Prod.snd := by
  have hvalues : PRIMITIVE_MAPPINGS.map (fun entry => reference_to_name inflector entry.1) =
      PRIMITIVE_MAPPINGS.map Prod.snd := by
    simp [PRIMITIVE_MAPPINGS, reference_to_name, List.lookup]
  unfold TypeGenerator.new
  simp only [hvalues, Finset.mem_union, Finset.mem_singleton, List.mem_toFinset, or_assoc, or_self]

theorem distinct_start : Worklist.Distinct (start inflector specs extra_types) :=
  Worklist.Distinct.collect_all ⟨List.nodup_nil, fun _ h => absurd h List.not_mem_nil⟩

/-- The definitions in use are those that are asked for, without the types
    that are not to be generated. -/
theorem in_use_iff {name : String} :
    (∃ ref_or_schema, InUse inflector specs extra_types name ref_or_schema) ↔
      name ∉ (TypeGenerator.new inflector).generated ∧
        Asked inflector specs extra_types name := by
  unfold InUse
  rw [Worklist.taken_iff_asked distinct_start, start, Worklist.generated_collect_all,
    Worklist.mem_names_collect_all]
  have hnone : name ∉ Worklist.names (TypeGenerator.new inflector).collected := List.not_mem_nil
  constructor
  · intro h
    obtain ⟨hfresh, (hstart | ⟨hstart, -⟩) | hlater⟩ := h
    · exact absurd hstart hnone
    · exact ⟨hfresh, Or.inl hstart⟩
    · exact ⟨hfresh, Or.inr hlater⟩
  · intro h
    obtain ⟨hfresh, hstart | hlater⟩ := h
    · exact ⟨hfresh, Or.inl (Or.inr ⟨hstart, hfresh⟩)⟩
    · exact ⟨hfresh, Or.inr hlater⟩

section generated
variable {fuel : Nat} {out : Generated} {name : String}

/-- The types are those of the definitions in use, in some order. -/
theorem run_of_generate (h : generate inflector fuel specs extra_types = .ok (some out)) :
    ∃ entries, List.Forall₂ (Worklist.Done (generate_collected inflector specs)) entries out.types ∧
      (Worklist.names entries).Nodup ∧
      ∀ name ref_or_schema, (name, ref_or_schema) ∈ entries ↔
        InUse inflector specs extra_types name ref_or_schema :=
  Worklist.run_results (fun _ _ _ _ hwork => (generate_collected_eq_ok hwork).2.1)
    distinct_start.nodup (generate_eq_ok h).2

/-- **Each definition in use is printed once**, and nothing else is. -/
theorem generated_iff (h : generate inflector fuel specs extra_types = .ok (some out)) :
    (out.types.map (·.name)).Nodup ∧ ∀ name, name ∈ out.types.map (·.name) ↔
      ∃ ref_or_schema, InUse inflector specs extra_types name ref_or_schema := by
  obtain ⟨entries, hdone, hnodup, hused⟩ := run_of_generate h
  have hnames : out.types.map (·.name) = Worklist.names entries :=
    Worklist.map_of_done (fun entry printer hentry => by
      obtain ⟨calls, hwork⟩ := hentry
      exact (generate_collected_eq_ok hwork).1) hdone
  rw [hnames]
  refine ⟨hnodup, fun name => ?_⟩
  rw [Worklist.mem_names]
  exact exists_congr fun ref_or_schema => hused name ref_or_schema

/-- The names in the types are those of the places in the definitions. -/
theorem mem_names_of_types (h : generate inflector fuel specs extra_types = .ok (some out)) :
    name ∈ out.types.flatMap TypePrinter.type_names ↔
      ∃ other ref_or_schema, InUse inflector specs extra_types other ref_or_schema ∧
        ∃ schema, ref_or_schema.schema specs = (.ok schema : Outcome Empty Schema) ∧
          ∃ place ∈ printed_places inflector schema, type_name inflector place = name := by
  obtain ⟨entries, hdone, -, hused⟩ := run_of_generate h
  have hnames : out.types.map TypePrinter.type_names =
      entries.map fun entry => definition_names inflector specs entry.2 :=
    Worklist.map_of_done (fun entry printer hentry => by
      obtain ⟨calls, hwork⟩ := hentry
      obtain ⟨-, -, schema, hschema, hprinted, -⟩ := generate_collected_eq_ok hwork
      rw [definition_names, hschema, hprinted]) hdone
  rw [List.flatMap_def, hnames, ← List.flatMap_def, List.mem_flatMap]
  constructor
  · intro hmem
    obtain ⟨entry, hentry, hmem⟩ := hmem
    unfold definition_names at hmem
    split at hmem
    · next schema hschema =>
      obtain ⟨place, hplace, heq⟩ := List.mem_map.mp hmem
      exact ⟨entry.1, entry.2, (hused _ _).mp hentry, schema, hschema, place, hplace, heq⟩
    · cases hmem
  · intro hprinted
    obtain ⟨other, ref_or_schema, hin, schema, hschema, place, hplace, heq⟩ := hprinted
    refine ⟨(other, ref_or_schema), (hused _ _).mpr hin, ?_⟩
    rw [definition_names, hschema]
    exact List.mem_map.mpr ⟨place, hplace, heq⟩

/-- A name is printed for a schema, or as the result of a method. -/
theorem mem_type_names (h : generate inflector fuel specs extra_types = .ok (some out)) :
    name ∈ out.type_names ↔
      (∃ schema, Printed inflector specs extra_types schema ∧
        type_name inflector schema = name) ∨
      ∃ method ∈ supported_methods specs, name ∈ result_references method.result := by
  have hmethods : name ∈ out.methods.flatMap Signature.type_names ↔
      ∃ method ∈ supported_methods specs, name ∈ method.names inflector := by
    rw [List.flatMap_def, (generate_eq_ok h).1.1, ← List.flatMap_def, List.mem_flatMap]
  rw [Generated.type_names, List.mem_append, hmethods, mem_names_of_types h]
  simp only [Method.mem_names]
  constructor
  · intro hname
    rcases hname with ⟨method, hmethod, ⟨schema, hplace, heq⟩ | href⟩ |
      ⟨other, ref_or_schema, hin, schema, hschema, place, hplace, heq⟩
    · exact Or.inl ⟨schema, .method hmethod hplace, heq⟩
    · exact Or.inr ⟨method, hmethod, href⟩
    · exact Or.inl ⟨place, .definition hin hschema hplace, heq⟩
  · intro hname
    rcases hname with ⟨schema, hprinted, heq⟩ | ⟨method, hmethod, href⟩
    · cases hprinted with
      | method hmethod hplace => exact Or.inl ⟨_, hmethod, Or.inl ⟨schema, hplace, heq⟩⟩
      | definition hin hschema hplace =>
        exact Or.inr ⟨_, _, hin, _, hschema, schema, hplace, heq⟩
    · exact Or.inl ⟨method, hmethod, Or.inr href⟩

/-- What is printed has a name, and asks for what it needs. -/
theorem printed_spec (h : generate inflector fuel specs extra_types = .ok (some out))
    {schema : Schema} (hprinted : Printed inflector specs extra_types schema) :
    HasName inflector schema ∧ ∀ name ∈ Worklist.names (asks inflector schema),
      Asked inflector specs extra_types name := by
  cases hprinted with
  | @method method _ hmethod hplace =>
    refine ⟨(generate_eq_ok h).1.2 _ hmethod _ hplace, fun name hname => Or.inl ?_⟩
    obtain ⟨v, hv⟩ := Worklist.mem_names.mp hname
    refine Worklist.mem_names.mpr ⟨v, List.mem_append_right _ ?_⟩
    exact List.mem_flatMap.mpr ⟨method, hmethod, List.mem_flatMap.mpr ⟨schema, hplace, hv⟩⟩
  | @definition other ref_or_schema outer _ hin hschema hplace =>
    have hplaces := mem_places_of_printed hplace
    obtain ⟨entries, hdone, -, hused⟩ := run_of_generate h
    obtain ⟨printer, calls, hwork⟩ := Worklist.done_of_mem hdone ((hused _ _).mpr hin)
    obtain ⟨-, -, outer', hschema', -, hhas⟩ := generate_collected_eq_ok hwork
    obtain rfl : outer = outer' := Outcome.ok.inj (hschema.symm.trans hschema')
    refine ⟨hhas schema hplaces, fun name hname => Or.inr ⟨other, ref_or_schema, hin, ?_⟩⟩
    obtain ⟨v, hv⟩ := Worklist.mem_names.mp hname
    rw [expand, hschema]
    exact Worklist.mem_names.mpr ⟨v, List.mem_flatMap.mpr ⟨schema, hplaces, hv⟩⟩

/-- The names that are known are predefined, or defined once. -/
theorem known_iff (h : generate inflector fuel specs extra_types = .ok (some out)) :
    Known inflector specs extra_types name ↔
      Predefined name ∨ (out.types.map (·.name)).count name = 1 := by
  obtain ⟨hnodup, hmem⟩ := generated_iff h
  have hcount : (out.types.map (·.name)).count name = 1 ↔
      name ∉ (TypeGenerator.new inflector).generated ∧
        Asked inflector specs extra_types name := by
    rw [← in_use_iff, ← hmem]
    exact ⟨fun hone => List.count_pos_iff.mp (by omega), List.count_eq_one_of_mem hnodup⟩
  rw [hcount, mem_generated_new, not_or]
  constructor
  · intro hknown
    rcases hknown with hpre | ⟨hasked, hfound⟩
    · exact Or.inl hpre
    · -- what is generated from the start is predefined, but for one name
      by_cases hvalue : name ∈ PRIMITIVE_MAPPINGS.map Prod.snd
      · exact Or.inl (Or.inl hvalue)
      · exact Or.inr ⟨⟨hfound, hvalue⟩, hasked⟩
  · intro hknown
    rcases hknown with hpre | ⟨⟨hfound, -⟩, hasked⟩
    · exact Or.inl hpre
    · exact Or.inr ⟨hasked, hfound⟩

/-- **Closed code.** -/
theorem closed_iff (h : generate inflector fuel specs extra_types = .ok (some out)) :
    out.Closed ↔ NamesRecorded inflector specs extra_types := by
  constructor
  · intro hclosed
    exact {
      schemas := fun schema hprinted => Or.inr ((known_iff h).mpr
        (hclosed _ ((mem_type_names h).mpr (Or.inl ⟨schema, hprinted, rfl⟩))))
      results := fun method hmethod name href => (known_iff h).mpr
        (hclosed _ ((mem_type_names h).mpr (Or.inr ⟨method, hmethod, href⟩))) }
  · intro hrecorded name hname
    apply (known_iff h).mp
    rcases (mem_type_names h).mp hname with ⟨schema, hprinted, rfl⟩ | ⟨method, hmethod, href⟩
    · obtain ⟨hhas, hasked⟩ := printed_spec h hprinted
      rcases hrecorded.schemas schema hprinted with ⟨hrecords, hfound⟩ | hknown
      · rcases hrecords.asked hhas with hpre | hmem
        · exact Or.inl hpre
        · exact Or.inr ⟨hasked _ hmem, hfound⟩
      · exact hknown
    · exact hrecorded.results method hmethod name href

end generated

end closed

/-! ## The supported methods alone -/

section supported
variable {inflector : Inflector} {specs : OpenRpc} {fuel : Nat} {calls : List Ask}

theorem Gen.each_cons_yields {α β : Type} {f : α → Gen β} {a : α} {as : List α} {b : β}
    {bs : List β} {calls calls' : List Ask} (ha : (f a).Yields b calls)
    (has : (Gen.each f as).Yields bs calls') :
    (Gen.each f (a :: as)).Yields (b :: bs) (calls ++ calls') :=
  Gen.yields_bind.mpr ⟨b, calls, calls', ha, Gen.yields_map.mpr ⟨bs, has, rfl⟩, rfl⟩

theorem Gen.each_nil_yields {α β : Type} {f : α → Gen β} : (Gen.each f []).Yields [] [] :=
  Gen.yields_pure.mpr ⟨rfl, rfl⟩

theorem Gen.each_map_yields {α β γ : Type} {f : α → Gen β} {a : γ → α} {b : γ → β}
    {calls : γ → List Ask} (hf : ∀ c, (f (a c)).Yields (b c) (calls c)) (cs : List γ) :
    (Gen.each f (cs.map a)).Yields (cs.map b) (cs.flatMap calls) := by
  induction cs with
  | nil => exact Gen.each_nil_yields
  | cons c cs ih => exact Gen.each_cons_yields (hf c) ih

theorem generate_parameter_of_type {name arg : String} {required : Bool} {schema : Schema}
    (info : TypeInfo)
    (harg : ((inflector.to_snake_case name).map fun c => if c = ' ' then '_' else c) = arg)
    (hinfo : (type_info inflector schema).Yields (some info) calls) :
    (generate_parameter inflector (.Inline ⟨name, required, schema⟩)).Yields
      (arg, info.set_required required) calls := by
  refine Gen.yields_bind.mpr ⟨_, [], calls, Gen.yields_lift.mpr ⟨rfl, rfl⟩, ?_, rfl⟩
  exact Gen.yields_map.mpr ⟨info, Gen.yields_expect.mpr hinfo, by rw [harg]⟩

/-- What is generated for a document that has just the supported methods,
    without results. -/
theorem generate_of_params {params : String → List (RefOr ContentDescriptor)}
    {parameters : String → List (String × TypeInfo)} {calls : String → List Ask}
    {types : List TypePrinter}
    (hspecs : specs.methods =
      SUPPORTED_ETH_METHODS.map fun name => .Inline ⟨name, none, params name, none⟩)
    (hparams : ∀ name,
      (Gen.each (generate_parameter inflector) (params name)).Yields (parameters name) (calls name))
    (htypes : Worklist.run (generate_collected inflector specs) fuel
      ((TypeGenerator.new inflector).toState.collect_all (SUPPORTED_ETH_METHODS.flatMap calls)) =
        .ok (some types)) :
    generate inflector fuel specs [] = .ok (some {
      methods := SUPPORTED_ETH_METHODS.map fun name =>
        ⟨none, name, method_name inflector name, parameters name, .unit⟩
      types := types }) := by
  let method (name : String) : Method := ⟨name, none, params name, none⟩
  have hunwrap : (Gen.each (fun method => Gen.lift method.unwrap_inline) specs.methods).Yields
      (SUPPORTED_ETH_METHODS.map method) [] := by
    have heach : (Gen.each (fun method : RefOr Method => Gen.lift method.unwrap_inline)
        (SUPPORTED_ETH_METHODS.map fun name => .Inline (method name))).Yields
        (SUPPORTED_ETH_METHODS.map method) (SUPPORTED_ETH_METHODS.flatMap fun _ => []) :=
      Gen.each_map_yields (fun name => Gen.yields_lift.mpr ⟨rfl, rfl⟩) SUPPORTED_ETH_METHODS
    have hcalls : SUPPORTED_ETH_METHODS.flatMap (fun _ => ([] : List Ask)) = [] :=
      List.flatMap_eq_nil_iff.mpr fun _ _ => rfl
    rwa [← hspecs, hcalls] at heach
  have hsupported : ((TypeGenerator.new inflector).supported specs).Yields
      (SUPPORTED_ETH_METHODS.map method) [] := by
    refine Gen.yields_map.mpr ⟨_, hunwrap, (List.filter_eq_self.mpr ?_).symm⟩
    intro m hm
    obtain ⟨name, hmem, rfl⟩ := List.mem_map.mp hm
    exact decide_eq_true (List.mem_toFinset.mpr hmem)
  have hcount : ¬ (SUPPORTED_ETH_METHODS.map method).length ≠
      (TypeGenerator.new inflector).filtered_method_names.card := by
    have hnodup : SUPPORTED_ETH_METHODS.Nodup := by decide +kernel
    rw [List.length_map, not_not]
    exact (List.toFinset_card_of_nodup hnodup).symm
  have hsignature (name : String) : (generate_rpc_method inflector (method name)).Yields
      ⟨none, name, method_name inflector name, parameters name, .unit⟩ (calls name) :=
    Gen.yields_bind.mpr ⟨.unit, [], calls name, Gen.yields_pure.mpr ⟨rfl, rfl⟩,
      Gen.yields_map.mpr ⟨parameters name, hparams name, rfl⟩, rfl⟩
  have hmethods : (TypeGenerator.new inflector).generate_rpc_methods inflector specs =
      .ok (SUPPORTED_ETH_METHODS.map fun name =>
        ⟨none, name, method_name inflector name, parameters name, .unit⟩,
        { TypeGenerator.new inflector with
          toState := (TypeGenerator.new inflector).toState.collect_all
            (SUPPORTED_ETH_METHODS.flatMap calls) }) := by
    refine Outcome.bind_eq_ok.mpr ⟨(_, _), ?_, rfl⟩
    refine Gen.yields_bind.mpr ⟨_, [], _, hsupported, ?_, rfl⟩
    rw [if_neg hcount]
    exact Gen.each_map_yields hsignature SUPPORTED_ETH_METHODS
  exact Outcome.bind_eq_ok.mpr ⟨_, hmethods, Outcome.bind_eq_ok.mpr ⟨_, htypes, rfl⟩⟩

end supported

/-! ## A joined name -/

/-- The case conversions, for names of letters. -/
def letters_inflector : Inflector where
  to_pascal_case name :=
    match name.toList with
    | [] => ""
    | c :: cs => String.ofList (c.toUpper :: cs)
  to_snake_case name :=
    String.ofList ((name.toList.dropWhile (· = '_')).flatMap fun c =>
      if c.isUpper then ['_', c.toLower] else [c])

/-- A schema of the components. -/
def component (name : String) : Schema :=
  .of_contents (.Reference ("#/components/schemas/" ++ name))

/-- The supported methods, one of which takes both components in one. -/
def joining_specs : OpenRpc where
  methods := SUPPORTED_ETH_METHODS.map fun name => .Inline {
    name := name
    summary := none
    params := if name = "eth_call" then
      [.Inline ⟨"transaction", true, .of_contents (.AllOf [component "Base", component "Extra"])⟩]
      else []
    result := none }
  components :=
    let empty := Schema.of_contents (.Object (.mk [] [] []))
    some (((∅ : Map String Schema).insert "Base" empty).insert "Extra" empty)

/-- What is printed for it. -/
def joined : Generated where
  methods := SUPPORTED_ETH_METHODS.map fun name => {
    summary := none
    name := name
    method_name := method_name letters_inflector name
    parameters := if name = "eth_call" then [("transaction", .of_name "BaseAndExtra")] else []
    result := .unit }
  types := [⟨none, "Base", .Struct []⟩, ⟨none, "Extra", .Struct []⟩]

theorem generate_joined : generate letters_inflector 3 joining_specs [] = .ok (some joined) := by
  have hparams (name : String) : (Gen.each (generate_parameter letters_inflector)
      (if name = "eth_call" then
        [.Inline ⟨"transaction", true, .of_contents (.AllOf [component "Base", component "Extra"])⟩]
        else [])).Yields
      (if name = "eth_call" then [("transaction", .of_name "BaseAndExtra")] else [])
      (if name = "eth_call" then
        [("Base", .Reference "#/components/schemas/Base"),
          ("Extra", .Reference "#/components/schemas/Extra")]
        else []) := by
    have htransaction : (generate_parameter letters_inflector (.Inline ⟨"transaction", true,
        .of_contents (.AllOf [component "Base", component "Extra"])⟩)).Yields
        ("transaction", .of_name "BaseAndExtra")
        [("Base", .Reference "#/components/schemas/Base"),
          ("Extra", .Reference "#/components/schemas/Extra")] :=
      generate_parameter_of_type (.of_name "BaseAndExtra") (by decide +kernel) (by rfl)
    split
    · exact Gen.each_cons_yields htransaction Gen.each_nil_yields
    · exact Gen.each_nil_yields
  exact generate_of_params rfl hparams (by decide +kernel)

/-- The joined name is neither predefined nor defined. -/
theorem joined_not_closed : ¬ joined.Closed := by
  intro hclosed
  have hprinted : "BaseAndExtra" ∈ joined.type_names := by decide +kernel
  rcases hclosed "BaseAndExtra" hprinted with hpre | hone
  · revert hpre
    simp [Predefined, PRIMITIVE_MAPPINGS]
  · revert hone
    decide

/-- Both components are defined, but nothing under their joined name. -/
theorem joined_name_undefined :
    ∃ out, generate letters_inflector 3 joining_specs [] = .ok (some out) ∧ ¬ out.Closed :=
  ⟨joined, generate_joined, joined_not_closed⟩

theorem joined_name_unrecorded : ¬ NamesRecorded letters_inflector joining_specs [] :=
  fun hrecorded => joined_not_closed ((closed_iff generate_joined).mpr hrecorded)

end Codegen

end EthRpc
