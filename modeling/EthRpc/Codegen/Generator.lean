import EthRpc.Framework.Worklist
import EthRpc.Codegen.OpenRpc
import EthRpc.Codegen.Printer

/-! # The code generator

    `generate_rpc_methods` prints a signature for each supported method, and
    `generate_types` the types that were asked for on the way, then those that
    these ask for, round after round.

    `type_info` names the type of a schema. Whatever is asked for goes to
    `collect`, of which nothing is seen before the next round: a computation
    is a result with the list of its calls (`Gen`), and `perform` makes them.
-/

namespace EthRpc

namespace Codegen

/-! ## Names -/

/-- List of supported Ethereum RPC methods. -/
def SUPPORTED_ETH_METHODS : List String := [
  "net_version",
  "eth_accounts",
  "eth_blockNumber",
  "eth_call",
  "eth_chainId",
  "eth_estimateGas",
  "eth_gasPrice",
  "eth_getBalance",
  "eth_getBlockByHash",
  "eth_getBlockByNumber",
  "eth_getBlockTransactionCountByHash",
  "eth_getBlockTransactionCountByNumber",
  "eth_getCode",
  "eth_getStorageAt",
  "eth_getTransactionByBlockHashAndIndex",
  "eth_getTransactionByBlockNumberAndIndex",
  "eth_getTransactionByHash",
  "eth_getTransactionCount",
  "eth_getTransactionReceipt",
  "eth_sendRawTransaction"]

/-- Mapping of primitive schema types to their Rust counterparts. -/
def PRIMITIVE_MAPPINGS : List (String × String) := [
  ("#/components/schemas/address", "Address"),
  ("#/components/schemas/byte", "Byte"),
  ("#/components/schemas/bytes", "Bytes"),
  ("#/components/schemas/bytes256", "Bytes256"),
  ("#/components/schemas/hash32", "H256"),
  ("#/components/schemas/bytes32", "H256"),
  ("#/components/schemas/bytes8", "String"),
  ("#/components/schemas/uint", "U256"),
  ("#/components/schemas/uint256", "U256"),
  ("#/components/schemas/uint64", "U256")]

/-- Convert a reference to a type name. -/
def reference_to_name (inflector : Inflector) (reference : String) : String :=
  match PRIMITIVE_MAPPINGS.lookup reference with
  | some name => name
  | none => inflector.to_pascal_case ((split_slash reference).getLast?.getD "")

/-- Drop `pattern` from the start, as often as it is there. -/
def trim_start_matches (pattern : List Char) : Nat → List Char → List Char
  | 0, s => s
  | fuel + 1, s =>
    if pattern.isPrefixOf s then trim_start_matches pattern fuel (s.drop pattern.length) else s

/-- The name of the function for a method: without what all names begin with. -/
def method_name (inflector : Inflector) (name : String) : String :=
  inflector.to_snake_case (String.ofList (trim_start_matches "eth".toList name.length name.toList))

/-! ## Computations of the generator -/

/-- Reference or schema. -/
inductive ReferenceOrSchema where
  /-- A reference to a schema such as `#/components/schemas/Foo`. -/
  | Reference (reference : String)
  | Schema (schema : Codegen.Schema)

/-- Return the schema for the reference or the schema itself. -/
def ReferenceOrSchema.schema {ε : Type} (specs : OpenRpc) :
    ReferenceOrSchema → Outcome ε Codegen.Schema
  | .Schema schema => .ok schema
  | .Reference reference =>
    match specs.get_schema reference with
    | some schema => .ok schema
    | none => .panic

/-- A call of `collect`: the type name, and what is collected. -/
abbrev Ask := String × ReferenceOrSchema

/-- A computation that may panic, with its calls of `collect` in order. -/
def Gen (α : Type) := Outcome Empty (α × List Ask)

namespace Gen

variable {α β : Type}

instance : Monad Gen where
  pure a := Outcome.ok (a, [])
  bind x f := Outcome.bind x fun (a, asks) =>
    Outcome.bind (f a) fun (b, asks') => .ok (b, asks ++ asks')

/-- A computation without calls. -/
def lift (x : Outcome Empty α) : Gen α := Outcome.bind x fun a => .ok (a, [])

/-- `expect` on an option. -/
def expect (x : Gen (Option α)) : Gen α := do
  match ← x with
  | some a => return a
  | none => lift .panic

/-- Collect the type. -/
def collect (type_name : String) (ref_or_schema : ReferenceOrSchema) : Gen Unit :=
  Outcome.ok ((), [(type_name, ref_or_schema)])

/-- One computation for each element, in order. -/
def each (f : α → Gen β) : List α → Gen (List β)
  | [] => return []
  | a :: as => do
    let b ← f a
    let bs ← each f as
    return b :: bs

/-! ### What a computation yields -/

/-- It ends in `a`, with these calls. -/
def Yields (x : Gen α) (a : α) (asks : List Ask) : Prop := x = Outcome.ok (a, asks)

variable {x : Gen α} {f : α → Gen β} {a a' : α} {b : β} {asks : List Ask}

/-- A computation ends in one way. -/
theorem Yields.unique {asks' : List Ask} (h : x.Yields a asks) (h' : x.Yields a' asks') :
    a = a' ∧ asks = asks' :=
  Prod.mk.inj (Outcome.ok.inj (h.symm.trans h'))

@[simp] theorem yields_pure : (pure a : Gen α).Yields a' asks ↔ a' = a ∧ asks = [] := by
  show Outcome.ok (a, []) = Outcome.ok (a', asks) ↔ _
  rw [Outcome.ok.injEq, Prod.mk.injEq, eq_comm, eq_comm (a := [])]

/-- The calls of one computation come before those of the next. -/
theorem yields_bind : (x >>= f).Yields b asks ↔
    ∃ a asks₁ asks₂, x.Yields a asks₁ ∧ (f a).Yields b asks₂ ∧ asks = asks₁ ++ asks₂ := by
  have hbind : x >>= f = Outcome.bind x fun r =>
      Outcome.bind (f r.1) fun r' => .ok (r'.1, r.2 ++ r'.2) := rfl
  unfold Yields
  rw [hbind]
  show (Outcome.bind x _ : Outcome Empty (β × List Ask)) = _ ↔ _
  constructor
  · intro h
    obtain ⟨r, hr, h⟩ := Outcome.bind_eq_ok.mp h
    obtain ⟨r', hr', h⟩ := Outcome.bind_eq_ok.mp h
    cases h
    exact ⟨r.1, r.2, r'.2, hr, hr', rfl⟩
  · intro h
    obtain ⟨a, asks₁, asks₂, ha, hb, rfl⟩ := h
    exact Outcome.bind_eq_ok.mpr ⟨_, ha, Outcome.bind_eq_ok.mpr ⟨_, hb, rfl⟩⟩

/-- A computation whose result is only changed makes no other calls. -/
theorem yields_map {f : α → β} {b : β} :
    (x >>= fun a => (pure (f a) : Gen β)).Yields b asks ↔ ∃ a, x.Yields a asks ∧ b = f a := by
  rw [yields_bind]
  constructor
  · intro h
    obtain ⟨a, asks₁, asks₂, ha, hpure, rfl⟩ := h
    obtain ⟨rfl, rfl⟩ := yields_pure.mp hpure
    exact ⟨a, by rwa [List.append_nil], rfl⟩
  · intro h
    obtain ⟨a, ha, rfl⟩ := h
    exact ⟨a, asks, [], ha, yields_pure.mpr ⟨rfl, rfl⟩, (List.append_nil _).symm⟩

@[simp] theorem yields_lift {r : Outcome Empty α} :
    (lift r).Yields a asks ↔ r = .ok a ∧ asks = [] := by
  show Outcome.bind r _ = _ ↔ _
  constructor
  · intro h
    obtain ⟨a', hr, h⟩ := Outcome.bind_eq_ok.mp h
    cases h
    exact ⟨hr, rfl⟩
  · intro h
    obtain ⟨rfl, rfl⟩ := h
    rfl

/-- A panic yields nothing. -/
theorem not_yields_panic : ¬ (lift (α := α) .panic).Yields a asks := by
  intro h
  simp at h

@[simp] theorem yields_collect {name : String} {ref_or_schema : ReferenceOrSchema} {u : Unit} :
    (collect name ref_or_schema).Yields u asks ↔ asks = [(name, ref_or_schema)] := by
  show Outcome.ok ((), [(name, ref_or_schema)]) = Outcome.ok (u, asks) ↔ _
  simp [eq_comm]

@[simp] theorem yields_expect {x : Gen (Option α)} :
    (expect x).Yields a asks ↔ x.Yields (some a) asks := by
  unfold expect
  rw [yields_bind]
  constructor
  · intro h
    obtain ⟨o, asks₁, asks₂, ho, ha, rfl⟩ := h
    cases o with
    | none => cases (yields_lift.mp ha).1
    | some a' =>
      obtain ⟨rfl, rfl⟩ := yields_pure.mp ha
      rwa [List.append_nil]
  · intro h
    exact ⟨some a, asks, [], h, yields_pure.mpr ⟨rfl, rfl⟩, (List.append_nil _).symm⟩

/-- A computation that ends with `some` does not yield `none`. -/
theorem not_yields_none {f : α → β} :
    ¬ (x >>= fun a => (pure (some (f a)) : Gen (Option β))).Yields none asks := by
  intro h
  obtain ⟨a, -, heq⟩ := yields_map.mp h
  simp at heq

/-- **For each element** the same is known of it, its result and its calls, so
    it is known of all of them. -/
theorem yields_each {γ : Type} {f : α → Gen β} {g : β → γ} {h : α → γ} {calls : α → List Ask}
    {q : α → Prop} {as : List α} {bs : List β}
    (hf : ∀ a b asks, (f a).Yields b asks → g b = h a ∧ asks = calls a ∧ q a)
    (heach : (each f as).Yields bs asks) :
    bs.map g = as.map h ∧ asks = as.flatMap calls ∧ ∀ a ∈ as, q a := by
  induction as generalizing bs asks with
  | nil =>
    obtain ⟨rfl, rfl⟩ := yields_pure.mp heach
    exact ⟨rfl, rfl, by simp⟩
  | cons a as ih =>
    obtain ⟨b, asks₁, asks', hb, hrest, rfl⟩ := yields_bind.mp heach
    obtain ⟨bs', hbs, rfl⟩ := yields_map.mp hrest
    obtain ⟨hg, rfl, hq⟩ := hf a b asks₁ hb
    obtain ⟨hmap, rfl, hqs⟩ := ih hbs
    rw [List.map_cons, List.map_cons, hg, hmap, List.flatMap_cons]
    exact ⟨rfl, rfl, List.forall_mem_cons.mpr ⟨hq, hqs⟩⟩

theorem forall₂_of_each {f : α → Gen β} {as : List α} {bs : List β}
    (h : (each f as).Yields bs asks) :
    List.Forall₂ (fun a b => ∃ calls, (f a).Yields b calls) as bs := by
  induction as generalizing bs asks with
  | nil =>
    obtain ⟨rfl, -⟩ := yields_pure.mp h
    exact .nil
  | cons a as ih =>
    obtain ⟨b, asks₁, asks', hb, hrest, -⟩ := yields_bind.mp h
    obtain ⟨bs', hbs, rfl⟩ := yields_map.mp hrest
    exact .cons ⟨asks₁, hb⟩ (ih hbs)

theorem exists_yields_of_each {f : α → Gen β} {as : List α} {bs : List β}
    (h : (each f as).Yields bs asks) : ∀ a ∈ as, ∃ b calls, (f a).Yields b calls := by
  intro a ha
  obtain ⟨b, -, h⟩ := List.exists_of_forall₂ (forall₂_of_each h).flip ha
  exact ⟨b, h⟩

theorem exists_yields_each {f : α → Gen β} {as : List α}
    (h : ∀ a ∈ as, ∃ b calls, (f a).Yields b calls) :
    ∃ bs calls, (each f as).Yields bs calls := by
  induction as with
  | nil => exact ⟨[], [], yields_pure.mpr ⟨rfl, rfl⟩⟩
  | cons a as ih =>
    obtain ⟨b, calls, hb⟩ := h a List.mem_cons_self
    obtain ⟨bs, calls', hbs⟩ := ih fun other hmem => h other (List.mem_cons_of_mem a hmem)
    exact ⟨b :: bs, calls ++ calls',
      yields_bind.mpr ⟨b, calls, calls', hb, yields_map.mpr ⟨bs, hbs, rfl⟩, rfl⟩⟩

end Gen

/-! ## Type names of schemas -/

/-- The type of a union, given those of its items. -/
def union_info (schema : Schema) (infos : List TypeInfo) : Gen (Option TypeInfo) := do
  let required := if infos.any (·.is_null) then Required.No false else Required.Yes
  let items := (infos.filter (! ·.is_null)).map (·.name)
  let name := "Or".intercalate items
  if items.length > 1 then Gen.collect name (.Schema schema)
  return some ⟨name, false, required⟩

/-- The type of a string: `Type0`, `Type1`, `Type2` for strings that have a
    single digit pattern, and no other. -/
def string_info : StringLiteral → Gen (Option TypeInfo)
  | ⟨none, none, some pattern, none, none⟩ =>
    if pattern ∈ ["^0x0$", "^0x1$", "^0x2$"] then
      return some (.of_name ("Type" ++ String.ofList ((pattern.toList.drop 3).take 1)))
    else Gen.lift .panic
  | _ => Gen.lift .panic

section generator
variable (inflector : Inflector)

mutual

/-- `TypeGenerator::type_info`: the type of a schema, if it has a name. -/
def type_info (schema : Schema) : Gen (Option TypeInfo) :=
  match schema with
  | .mk title description contents =>
    match contents with
    | .Reference reference => do
      let type_name := reference_to_name inflector reference
      Gen.collect type_name (.Reference reference)
      return some (.of_name type_name)
    | .Literal (.Array (some items)) => do
      let info ← (type_info items).expect
      return some ⟨info.name, true, .Yes⟩
    | .AllOf all_of => do
      let infos ← type_infos all_of
      -- the joined name is not collected
      return some (.of_name ("And".intercalate (infos.map (·.name))))
    | .AnyOf items => do
      let infos ← type_infos items
      union_info (.mk title description (.AnyOf items)) infos
    | .OneOf items => do
      let infos ← type_infos items
      union_info (.mk title description (.OneOf items)) infos
    | .Literal .Null => return some (.of_name "Null")
    | .Literal (.String s) => string_info s
    | .Literal .Boolean => return some (.of_name "bool")
    | .Object _ => return none
    | _ => Gen.lift .panic

/-- The types of the items of a schema, all of which need a name. -/
def type_infos (schemas : List Schema) : Gen (List TypeInfo) :=
  match schemas with
  | [] => return []
  | schema :: schemas => do
    let info ← (type_info schema).expect
    let infos ← type_infos schemas
    return info :: infos

end

/-! ## Fields and variants -/

def doc_str_from_schema (schema : Schema) : Option String :=
  match schema.description with
  | some description =>
    match schema.title with
    | some doc => some (doc ++ "\n" ++ description)
    | none => some description
  | none => schema.title

/-- The field of a property. -/
def field_of_property (value : ObjectLiteral) (property : String × Schema) : Gen Field := do
  let (name, schema) := property
  let type_info ← (type_info inflector schema).expect
  let required :=
    match type_info.required with
    | .Yes => if name ∈ value.required then .Yes else .No true
    | .No skip_if_null => .No skip_if_null
  return {
    doc := doc_str_from_schema schema
    name := name
    type_info := { type_info with required := required }
    «alias» := value.legacy_aliases.lookup name
    flatten := false }

/-- `Fields::from`, with the generator as the provider of names. -/
def fields_from (value : ObjectLiteral) : Gen (List Field) :=
  Gen.each (field_of_property inflector value) value.properties

/-- The fields of an item of an `allOf`. -/
def fields_of_item (schema : Schema) : Gen (List Field) := do
  match ← type_info inflector schema with
  | some type_info =>
    return [{
      doc := doc_str_from_schema schema
      name := type_info.name
      type_info := type_info
      «alias» := none
      flatten := true }]
  | none =>
    match schema.contents with
    | .Object object => fields_from inflector object
    | .Literal (.Object object) => fields_from inflector object
    | _ => Gen.lift .panic

/-- `Fields::from_all_of`. -/
def fields_from_all_of (all_of : List Schema) : Gen (List Field) := do
  let fields ← Gen.each (fields_of_item inflector) all_of
  return fields.flatten

/-- The variant of an item of a union, if it is not one that makes the type
    optional. -/
def variant_of_item (schema : Schema) : Gen (Option Variant) := do
  let type_info ← (type_info inflector schema).expect
  return if type_info.is_null then none else some ⟨doc_str_from_schema schema, type_info⟩

/-- `Variants::from_one_of`. -/
def variants_from_one_of (one_of : List Schema) : Gen (List Variant) := do
  let variants ← Gen.each (variant_of_item inflector) one_of
  return variants.reduceOption

/-! ## Types -/

/-- Of the strings only plain enumerations are types of their own. -/
def string_content : StringLiteral → Gen TypeContent
  | ⟨none, none, none, none, some enumeration⟩ => return .UntaggedEnum enumeration
  | _ => Gen.lift .panic

/-- The content of the type for the given schema. -/
def type_content (schema : Schema) : Gen TypeContent :=
  match schema.contents with
  | .Literal (.Object o) | .Object o => do
    let fields ← fields_from inflector o
    return .Struct fields
  | .AllOf all_of => do
    let fields ← fields_from_all_of inflector all_of
    return .Struct fields
  | .AnyOf items | .OneOf items => do
    let variants ← variants_from_one_of inflector items
    return .Enum variants
  | .Literal (.Array (some items)) => do
    let info ← (type_info inflector items).expect
    return .TypeAlias ⟨info.name, true, .Yes⟩
  | .Literal (.String s) => string_content s
  | _ => Gen.lift .panic

/-- `TypeGenerator::generate_type`: the type printer for the given schema. -/
def generate_type (name : String) (schema : Schema) : Gen TypePrinter := do
  let content ← type_content inflector schema
  return ⟨doc_str_from_schema schema, name, content⟩

/-- The work on a collected type: it is looked up, generated and printed. -/
def generate_collected (specs : OpenRpc) (name : String) (ref_or_schema : ReferenceOrSchema) :
    Gen TypePrinter := do
  let schema ← Gen.lift (ref_or_schema.schema specs)
  let type ← generate_type inflector name schema
  let _ ← Gen.lift (type.print inflector)
  return type

/-! ## Methods -/

/-- What is printed as the result of a method. -/
inductive ResultType where
  | unit
  /-- A reference is printed as it is. -/
  | reference (reference : String)
  | type (info : TypeInfo)
  deriving DecidableEq, Repr

/-- The type names in a result. -/
def ResultType.type_names : ResultType → List String
  | .unit => []
  | .reference name => [name]
  | .type info => [info.name]

/-- The signature of a method. -/
structure Signature where
  summary : Option String
  name : String
  method_name : String
  parameters : List (String × TypeInfo)
  result : ResultType
  deriving DecidableEq, Repr

/-- The type names in the signature. -/
def Signature.type_names (signature : Signature) : List String :=
  signature.parameters.map (·.2.name) ++ signature.result.type_names

def generate_result (result : Option (RefOr ContentDescriptor)) : Gen ResultType :=
  match result with
  | some (.Inline descriptor) => do
    let info ← (type_info inflector descriptor.schema).expect
    return .type info
  | some (.Reference reference) => return .reference reference
  | none => return .unit

def generate_parameter (param : RefOr ContentDescriptor) : Gen (String × TypeInfo) := do
  let descriptor ← Gen.lift param.unwrap_inline
  let name_arg := (inflector.to_snake_case descriptor.name).map fun c => if c = ' ' then '_' else c
  let info ← (type_info inflector descriptor.schema).expect
  return (name_arg, info.set_required descriptor.required)

/-- `TypeGenerator::generate_rpc_method`. -/
def generate_rpc_method (method : Method) : Gen Signature := do
  let result ← generate_result inflector method.result
  let parameters ← Gen.each (generate_parameter inflector) method.params
  return {
    summary := method.summary
    name := method.name
    method_name := method_name inflector method.name
    parameters := parameters
    result := result }

/-! ## The generator -/

/-- Type generator for generating RPC methods and types: what is collected and
    generated, and the names of the methods we want to generate. -/
structure TypeGenerator extends Worklist.State String ReferenceOrSchema where
  filtered_method_names : Finset String

namespace TypeGenerator

/-- Create a new type generator. -/
def new : TypeGenerator where
  collected := []
  generated := {inflector.to_pascal_case "notFound"} ∪
    (PRIMITIVE_MAPPINGS.map fun entry => reference_to_name inflector entry.1).toFinset ∪
    (PRIMITIVE_MAPPINGS.map Prod.snd).toFinset
  filtered_method_names := SUPPORTED_ETH_METHODS.toFinset

/-- Make the calls of a computation. -/
def perform {α : Type} (g : TypeGenerator) (x : Gen α) : Outcome Empty (α × TypeGenerator) :=
  Outcome.bind x fun (a, asks) => .ok (a, { g with toState := g.toState.collect_all asks })

def collect_extra_type (g : TypeGenerator) (type_name : String) : TypeGenerator :=
  let ask : Ask := (type_name, .Reference ("#/components/schemas/" ++ type_name))
  { g with toState := g.toState.collect ask }

/-- The supported methods of the document. -/
def supported (g : TypeGenerator) (specs : OpenRpc) : Gen (List Method) := do
  let methods ← Gen.each (fun method => Gen.lift method.unwrap_inline) specs.methods
  return methods.filter fun method => method.name ∈ g.filtered_method_names

/-- Generate the RPC methods, and add the collected types. -/
def generate_rpc_methods (g : TypeGenerator) (specs : OpenRpc) :
    Outcome Empty (List Signature × TypeGenerator) :=
  g.perform do
    let methods ← g.supported specs
    -- missing methods
    if methods.length ≠ g.filtered_method_names.card then Gen.lift .panic
    else Gen.each (generate_rpc_method inflector) methods

/-- Recursively collect the types and generate them: `none` if that takes more
    than `fuel` rounds. -/
def generate_types (g : TypeGenerator) (fuel : Nat) (specs : OpenRpc) :
    Outcome Empty (Option (List TypePrinter)) :=
  Worklist.run (generate_collected inflector specs) fuel g.toState

end TypeGenerator

/-- What is generated for a document. -/
structure Generated where
  methods : List Signature
  types : List TypePrinter
  deriving DecidableEq, Repr

/-- The type names in what is generated: in the signatures, and in the items. -/
def Generated.type_names (generated : Generated) : List String :=
  generated.methods.flatMap Signature.type_names ++
    generated.types.flatMap TypePrinter.type_names

/-- The methods and the types, after some types were asked for. -/
def generate (fuel : Nat) (specs : OpenRpc) (extra_types : List String) :
    Outcome Empty (Option Generated) := do
  let g := extra_types.foldl TypeGenerator.collect_extra_type (TypeGenerator.new inflector)
  let (methods, g) ← g.generate_rpc_methods inflector specs
  let types ← g.generate_types inflector fuel specs
  return types.map fun types => ⟨methods, types⟩

end generator

end Codegen

end EthRpc
