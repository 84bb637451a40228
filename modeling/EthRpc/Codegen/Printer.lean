import EthRpc.Framework.Outcome

/-! # The printer of the code generator

    A type is printed as one item: a struct, an enum, or an alias. An enum
    with a single variant is printed as an alias, too, and then nothing is
    left of the variant but its type.

    `TypePrinter.print` returns the item piece by piece, as the pieces stand
    in the text: documentation by its lines, types and names as strings.
-/

namespace EthRpc

namespace Codegen

/-- The case conversions of the `Inflector` crate. -/
structure Inflector where
  to_pascal_case : String → String
  to_snake_case : String → String

/-- The name of a field in the code. -/
def Inflector.field_name (inflector : Inflector) (name : String) : String :=
  let snake_name := inflector.to_snake_case name
  if snake_name = "type" then "r#type" else snake_name

/-- The name of the field for serde, if it is another one. -/
def Inflector.rename (inflector : Inflector) (name : String) : Option String :=
  if inflector.to_snake_case name ≠ name then some name else none

/-! ## Types, fields and variants -/

/-- Whether the type is required or not. -/
inductive Required where
  | Yes
  | No (skip_if_null : Bool)
  deriving DecidableEq, Repr

/-- Type information used for generating the type. -/
structure TypeInfo where
  name : String
  array : Bool
  required : Required
  deriving DecidableEq, Repr

/-- A required type of this name. -/
def TypeInfo.of_name (name : String) : TypeInfo := ⟨name, false, .Yes⟩

namespace TypeInfo

def set_required (info : TypeInfo) (required : Bool) : TypeInfo :=
  { info with required := if required then .Yes else .No true }

/-- Return whether the type is optional. -/
def is_optional (info : TypeInfo) : Bool :=
  match info.required with
  | .Yes => false
  | .No _ => true

/-- The string that is used in the generated code. -/
def get_type (info : TypeInfo) : String :=
  let type_name := if info.array then "Vec<" ++ info.name ++ ">" else info.name
  if info.is_optional then "Option<" ++ type_name ++ ">" else type_name

end TypeInfo

/-- A field of a struct. -/
structure Field where
  doc : Option String
  name : String
  type_info : TypeInfo
  /-- Whether to flatten the field, when serializing. -/
  flatten : Bool
  /-- Legacy alias for the field. -/
  «alias» : Option String
  deriving DecidableEq, Repr

/-- The variant of an enum. -/
structure Variant where
  doc : Option String
  type_info : TypeInfo
  deriving DecidableEq, Repr

def Variant.name (v : Variant) : String :=
  if v.type_info.array then v.type_info.name ++ "s" else v.type_info.name

/-- The alternatives that make a type optional instead of adding a variant. -/
def TypeInfo.is_null (info : TypeInfo) : Bool := info.name = "Null" || info.name = "NotFound"

/-- The content of a type. -/
inductive TypeContent where
  | Struct (fields : List Field)
  | TypeAlias (type_info : TypeInfo)
  | Enum (variants : List Variant)
  | UntaggedEnum (variants : List String)
  deriving DecidableEq, Repr

structure TypePrinter where
  doc : Option String
  name : String
  content : TypeContent
  deriving DecidableEq, Repr

/-- The type names in the item: of its fields, its variants, or its alias. -/
def TypePrinter.type_names (printer : TypePrinter) : List String :=
  match printer.content with
  | .Struct fields => fields.map (·.type_info.name)
  | .TypeAlias type_info => [type_info.name]
  | .Enum variants => variants.map (·.type_info.name)
  | .UntaggedEnum _ => []

/-! ## Printed items -/

/-- `str::lines`, on characters: a line ends at a newline, or at the end, and
    a carriage return in front of a newline is a part of the newline. -/
def lines_of : List Char → List (List Char)
  | [] => []
  | '\r' :: '\n' :: cs => [] :: lines_of cs
  | '\n' :: cs => [] :: lines_of cs
  | c :: cs =>
    match lines_of cs with
    | [] => [[c]]
    | line :: lines => (c :: line) :: lines

/-- The lines that are printed for a documentation. -/
def doc_lines : Option String → List String
  | none => []
  | some doc => (lines_of doc.toList).map String.ofList

/-- A parameter of the `serde` attribute of a field. -/
inductive SerdeParam where
  | flatten
  | rename (name : String)
  | alias_name (name : String)
  | skip_serializing_if
  deriving DecidableEq, Repr

/-- A field as it is printed. -/
structure PrintedField where
  doc : List String
  serde_params : List SerdeParam
  name : String
  type_name : String
  deriving DecidableEq, Repr

/-- A variant as it is printed. -/
structure PrintedVariant where
  doc : List String
  name : String
  type_name : String
  deriving DecidableEq, Repr

/-- What is printed below the documentation. -/
inductive ItemBody where
  | type_alias (type_name : String)
  | struct (fields : List PrintedField)
  /-- The first variant is the default. -/
  | enum (variants : List PrintedVariant)
  /-- The serde name of each variant and its name; the first one is the default. -/
  | unit_enum (variants : List (String × String))
  deriving DecidableEq, Repr

/-- An item as it is printed. -/
structure Item where
  doc : List String
  name : String
  body : ItemBody
  deriving DecidableEq, Repr

/-- The parameters of the `serde` attribute, in their order. -/
def Field.serde_params (inflector : Inflector) (field : Field) : List SerdeParam :=
  (if field.flatten then [.flatten] else (inflector.rename field.name).toList.map .rename) ++
    field.alias.toList.map .alias_name ++
    (if field.type_info.required = .No true then [.skip_serializing_if] else [])

def Field.print (inflector : Inflector) (field : Field) : PrintedField where
  doc := doc_lines field.doc
  serde_params := field.serde_params inflector
  name := inflector.field_name field.name
  type_name := field.type_info.get_type

def Variant.print (variant : Variant) : PrintedVariant :=
  ⟨doc_lines variant.doc, variant.name, variant.type_info.get_type⟩

/-- What is printed for the content. An enum without variants has no first
    one to be the default: a panic. -/
def TypeContent.print (inflector : Inflector) : TypeContent → Option ItemBody
  | .Enum [] => none
  | .Enum [variant] => some (.type_alias variant.type_info.get_type)
  | .TypeAlias type_info => some (.type_alias type_info.get_type)
  | .Enum variants => some (.enum (variants.map Variant.print))
  | .UntaggedEnum names =>
    some (.unit_enum (names.map fun name => (name, inflector.to_pascal_case name)))
  | .Struct fields => some (.struct (fields.map (Field.print inflector)))

/-- `TypePrinter::print`. -/
def TypePrinter.print {ε : Type} (inflector : Inflector) (printer : TypePrinter) :
    Outcome ε Item :=
  match printer.content.print inflector with
  | some body => .ok ⟨doc_lines printer.doc, printer.name, body⟩
  | none => .panic

end Codegen

end EthRpc
