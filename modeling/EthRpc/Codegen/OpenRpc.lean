import EthRpc.Framework.Outcome
import EthRpc.Framework.Maps

/-! # OpenRPC documents

    The part of a document that the code generator reads: the methods with
    their parameters and results, and the schemas of the components.
-/

namespace EthRpc

namespace Codegen

/-! ## Schemas -/

/-- A string format. -/
inductive StringFormat where
  | DateTime | Time | Date | Duration
  | Email | IdnEmail
  | Hostname | IdnHostname
  | IpV4 | IpV6
  | Uuid | Uri | UriReference | Iri | IriReference | UriTemplate
  | JsonPointer | RelativeJsonPointer
  | Regex
  deriving DecidableEq, Repr

/-- The constraints that may be applied to a string literal schema. -/
structure StringLiteral where
  min_length : Option (BitVec 64)
  max_length : Option (BitVec 64)
  pattern : Option String
  format : Option StringFormat
  enumeration : Option (List String)
  deriving DecidableEq, Repr

mutual

/-- A schema, with its documentation. -/
inductive Schema where
  | mk (title : Option String) (description : Option String) (contents : SchemaContents)

inductive SchemaContents where
  | Reference (reference : String)
  | AllOf (all_of : List Schema)
  | AnyOf (any_of : List Schema)
  | OneOf (one_of : List Schema)
  | Literal (l : Literal)
  | Object (o : ObjectLiteral)

/-- A literal. The bounds of numbers are not read. -/
inductive Literal where
  | Boolean
  | Integer
  | Number
  | String (s : StringLiteral)
  | Object (o : ObjectLiteral)
  /-- `ArrayLiteral`, with the schema of its items. -/
  | Array (items : Option Schema)
  | Null

/-- The properties, a map in the order of their names; the legacy aliases of
    some; and the names of those that are required. -/
inductive ObjectLiteral where
  | mk (properties : List (String × Schema)) (legacy_aliases : List (String × String))
    (required : List String)

end

namespace Schema

def title : Schema → Option String
  | .mk title _ _ => title

def description : Schema → Option String
  | .mk _ description _ => description

def contents : Schema → SchemaContents
  | .mk _ _ contents => contents

/-- A schema without documentation. -/
def of_contents (contents : SchemaContents) : Schema := .mk none none contents

/-- The schemas that a schema is put together from. -/
def parts : Schema → List Schema
  | .mk _ _ (.AllOf items) => items
  | .mk _ _ (.AnyOf items) => items
  | .mk _ _ (.OneOf items) => items
  | .mk _ _ (.Literal (.Array (some items))) => [items]
  | _ => []

theorem sizeOf_lt_of_mem_parts {schema part : Schema} (h : part ∈ schema.parts) :
    sizeOf part < sizeOf schema := by
  unfold parts at h
  split at h
  · have hitem := List.sizeOf_lt_of_mem h
    simp only [mk.sizeOf_spec, SchemaContents.AllOf.sizeOf_spec]
    omega
  · have hitem := List.sizeOf_lt_of_mem h
    simp only [mk.sizeOf_spec, SchemaContents.AnyOf.sizeOf_spec]
    omega
  · have hitem := List.sizeOf_lt_of_mem h
    simp only [mk.sizeOf_spec, SchemaContents.OneOf.sizeOf_spec]
    omega
  · obtain rfl := List.mem_singleton.mp h
    simp only [mk.sizeOf_spec, SchemaContents.Literal.sizeOf_spec, Literal.Array.sizeOf_spec,
      Option.some.sizeOf_spec]
    omega
  · simp at h

/-- Induction over the parts of a schema. -/
@[elab_as_elim]
theorem induction_parts {motive : Schema → Prop} (schema : Schema)
    (h : ∀ schema, (∀ part ∈ schema.parts, motive part) → motive schema) : motive schema :=
  h schema fun part _ => induction_parts part h
termination_by sizeOf schema
decreasing_by exact sizeOf_lt_of_mem_parts ‹_›

end Schema

namespace ObjectLiteral

def properties : ObjectLiteral → List (String × Schema)
  | .mk properties _ _ => properties

def legacy_aliases : ObjectLiteral → List (String × String)
  | .mk _ legacy_aliases _ => legacy_aliases

def required : ObjectLiteral → List String
  | .mk _ _ required => required

end ObjectLiteral

/-! ## Documents -/

/-- Either a reference or an inline object. -/
inductive RefOr (α : Type) where
  | Reference (reference : String)
  | Inline (v : α)

/-- Unwraps the inlined object. -/
def RefOr.unwrap_inline {ε α : Type} : RefOr α → Outcome ε α
  | .Reference _ => .panic
  | .Inline v => .ok v

/-- The inlined object, if it is one. -/
def RefOr.inlined {α : Type} : RefOr α → List α
  | .Reference _ => []
  | .Inline v => [v]

theorem RefOr.unwrap_inline_eq_ok {ε α : Type} {r : RefOr α} {v : α}
    (h : r.unwrap_inline = (.ok v : Outcome ε α)) : r.inlined = [v] := by
  cases r with
  | Reference reference => cases h
  | Inline v' =>
    cases h
    rfl

structure ContentDescriptor where
  name : String
  required : Bool
  schema : Schema

structure Method where
  name : String
  summary : Option String
  params : List (RefOr ContentDescriptor)
  result : Option (RefOr ContentDescriptor)

/-- An OpenRPC document: its methods, and the schemas of its components, if it
    has any. -/
structure OpenRpc where
  methods : List (RefOr Method)
  components : Option (Map String Schema)

/-- `str::split('/')`. -/
def split_slash (s : String) : List String := (s.toList.splitOn '/').map String.ofList

/-- Returns the schema with the given path reference. What comes after the
    fourth segment is not looked at. -/
def OpenRpc.get_schema (specs : OpenRpc) (reference : String) : Option Schema :=
  match split_slash reference with
  | "#" :: "components" :: "schemas" :: name :: _ => do
    let schemas ← specs.components
    schemas.lookup name
  | _ => none

end Codegen

end EthRpc
