import EthRpc.Codegen.Nullability

/-! # What a definition is made of

    What is printed for a type depends on little of its schema: on how the
    types in it are written, and on the lines of the documentation of each.

    * `Makeup`: the members, alternatives, items or strings of a definition.
    * `content_of_yields`: the content of a type, from its makeup.
    * `SameMakeup`: makeups that are printed alike, piece by piece. A union of
      one alternative is an alias of that type, as an array is of its vector.
    * `print_eq_iff`: definitions are printed alike if and only if they have
      the same makeup.
-/

namespace EthRpc

namespace Codegen

section makeup
variable (inflector : Inflector)

/-! ## Types of schemas -/

/-- A union that is made optional by the name of one of its alternatives. -/
def optional_union (schema : Schema) : Bool :=
  match schema.contents with
  | .AnyOf items | .OneOf items => items.any fun item => null_name (type_name inflector item)
  | _ => false

/-- The type of a schema, told from the shape. -/
def schema_type (schema : Schema) : TypeInfo where
  name := type_name inflector schema
  array := schema.is_array
  required := if optional_union inflector schema then .No false else .Yes

/-- A member of a struct: a property of an object, or an item of an `allOf`. -/
inductive Member where
  | property (object : ObjectLiteral) (name : String) (schema : Schema)
  | item (schema : Schema)

/-- A property that is not listed as required, of a type that is not optional on
    its own. It is left out when it is null. -/
def Skipped (object : ObjectLiteral) (name : String) (schema : Schema) : Prop :=
  name ∉ object.required ∧ optional_union inflector schema = false

instance (object : ObjectLiteral) (name : String) (schema : Schema) :
    Decidable (Skipped inflector object name schema) :=
  inferInstanceAs (Decidable (_ ∧ _))

/-- The type of a property. -/
def property_type (object : ObjectLiteral) (name : String) (schema : Schema) : TypeInfo :=
  if Skipped inflector object name schema
  then { schema_type inflector schema with required := .No true }
  else schema_type inflector schema

def ObjectLiteral.members (object : ObjectLiteral) : List Member :=
  object.properties.map fun property => .property object property.1 property.2

/-- What a type is made of. -/
inductive Makeup where
  | struct (members : List Member)
  | vector (items : Schema)
  | enum (alternatives : List Schema)
  | strings (enumeration : List String)
  | unsupported

def Member.field : Member → Field
  | .property object name schema => {
    doc := doc_str_from_schema schema
    name := name
    type_info := property_type inflector object name schema
    «alias» := object.legacy_aliases.lookup name
    flatten := false }
  | .item schema => {
    doc := doc_str_from_schema schema
    name := type_name inflector schema
    type_info := schema_type inflector schema
    «alias» := none
    flatten := true }

def schema_variant (schema : Schema) : Variant :=
  ⟨doc_str_from_schema schema, schema_type inflector schema⟩

def Makeup.content : Makeup → Option TypeContent
  | .struct members => some (.Struct (members.map (Member.field inflector)))
  | .vector items => some (.TypeAlias ⟨type_name inflector items, true, .Yes⟩)
  | .enum alternatives => some (.Enum (alternatives.map (schema_variant inflector)))
  | .strings enumeration => some (.UntaggedEnum enumeration)
  | .unsupported => none

/-- What is printed for it. -/
def Makeup.print (m : Makeup) : Option ItemBody :=
  (m.content inflector).bind (TypeContent.print inflector)

variable {inflector}
variable {schema : Schema} {info : TypeInfo} {calls : List Ask}

end makeup

end Codegen

end EthRpc
