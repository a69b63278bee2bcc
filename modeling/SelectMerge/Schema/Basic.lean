import SelectMerge.Column.ColumnType

/-!
# Schemas

A `Schema` lists the columns of a block by name and type, in two lists; it is `Aligned` if every
name has a type and every type a name. Schemas of one query are compared by position: two are
compatible (`isCompatible`) when their types join column by column (`joinTypes?`), and their cover
(`cover?`) takes the names of the first. `placeholder` is the schema of a result that no block gave
a schema to.
-/

namespace SelectMerge

/-- The names and types of the columns, in order. -/
structure Schema where
  names : List String
  types : List ColumnType
deriving DecidableEq, Repr, Inhabited

namespace Schema

/-- The schema of `(name, type)` pairs. -/
def ofColumns (columns : List (String × ColumnType)) : Schema :=
  ⟨columns.map (·.1), columns.map (·.2)⟩

/-- The column name that marks a result without columns of its own. -/
def placeholderName : String := "*"

/-- The schema of a result that no block gave a schema to. -/
def placeholder : Schema := ofColumns [(placeholderName, .one .string)]

def isPlaceholder (s : Schema) : Bool := s.names == [placeholderName]

/-- The number of names. -/
def length (s : Schema) : Nat := s.names.length

def isEmpty (s : Schema) : Bool := s.names.isEmpty

/-- Whether every name has a type and every type a name. -/
def Aligned (s : Schema) : Prop := s.names.length = s.types.length

instance (s : Schema) : Decidable s.Aligned := inferInstanceAs (Decidable (_ = _))

/-- Names with their types, as far as both go. -/
def columns (s : Schema) : List (String × ColumnType) := s.names.zip s.types

/-- The first column of a name. -/
def indexOf? (s : Schema) (name : String) : Option Nat := s.names.findIdx? (· == name)

/-- The columns in brackets, each with its type. -/
def text (s : Schema) : String :=
  "[" ++ ",".intercalate (s.columns.map fun (n, t) => n ++ "(" ++ t.name ++ ")") ++ "]"

/-! ## Reconciling -/

/-- Whether the types agree by position; names are not compared. -/
def isCompatible (a b : Schema) : Bool :=
  a.length == b.length && (a.types.zip b.types).all fun (s, t) => s.isCompatible t

/-- The join of two lists of types, position by position. -/
def joinTypes? : List ColumnType → List ColumnType → Option (List ColumnType)
  | s :: ss, t :: ts => do return (← s.join? t) :: (← joinTypes? ss ts)
  | _, _ => some []

/-- The schema with the names of `a` that the columns of both widen to. -/
def cover? (a b : Schema) : Option Schema :=
  if a.length = b.length then (joinTypes? a.types b.types).map fun ts => ⟨a.names, ts⟩ else none

end Schema

end SelectMerge
