import SelectMerge.Schema.Basic

/-!
# Building schemas

A `SchemaBuilder` builds a schema column by column (`column`, `append`); its types can be replaced
all at once, one for each column (`retyped?`).
-/

namespace SelectMerge

/-- The columns of a schema so far. -/
structure SchemaBuilder where
  columns : List (String × ColumnType)
deriving DecidableEq, Repr

namespace SchemaBuilder

def empty : SchemaBuilder := ⟨[]⟩

/-- Adds a column. -/
def column (name : String) (type : ColumnType) (b : SchemaBuilder) : SchemaBuilder :=
  ⟨b.columns ++ [(name, type)]⟩

/-- Adds columns. -/
def append (columns : List (String × ColumnType)) (b : SchemaBuilder) : SchemaBuilder :=
  ⟨b.columns ++ columns⟩

/-- What replacing the types asks for. -/
def retypedMessage : String := "retyped needs one type per column"

/-- Replaces every type; there has to be one for each column. -/
def retyped? (types : List ColumnType) (b : SchemaBuilder) : Option SchemaBuilder :=
  if types.length = b.columns.length then some ⟨(b.columns.map (·.1)).zip types⟩ else none

def build (b : SchemaBuilder) : Schema := .ofColumns b.columns

end SchemaBuilder

end SelectMerge
