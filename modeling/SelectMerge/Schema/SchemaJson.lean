import SelectMerge.Json.Typed
import SelectMerge.Schema.Basic

/-!
# Schemas as JSON

A schema is written as its list of names and its list of types (`Schema.json`). Reading
(`Schema.ofText?`) takes both lists as they are, without a look at their lengths; other members are
skipped.
-/

namespace SelectMerge

namespace ColumnType

/-- The type that a text names. -/
def ofTree? (t : JsonTree) : Option ColumnType := t.variantName? >>= ofName?

end ColumnType

namespace Schema

def fieldNames : List String := ["column_names", "column_types"]

/-- The schema as a document. -/
def json (s : Schema) : Json :=
  .object [("column_names", .list (s.names.map .text)),
    ("column_types", .list (s.types.map fun t => .text t.name))]

/-- The schema of a text as written; both lists have to be there. -/
def ofTree? (t : JsonTree) : Option Schema := do
  match ← t.record? .skip fieldNames with
  | [some names, some types] =>
    return ⟨← names.listOf? JsonTree.text?, ← types.listOf? ColumnType.ofTree?⟩
  | _ => none

/-- The schema that a text holds. -/
def ofText? (cs : List Char) : Option Schema := JsonTree.read? cs >>= ofTree?

end Schema

end SelectMerge
