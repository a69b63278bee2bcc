import SelectMerge.Column.Scalar

/-!
# Column types

A `ColumnType` holds single values of one kind or arrays of them. Two relations carry the merge.
`widensTo`: a value widens to the types that cover it, arrays element by element and only among
numbers. `join?`: two types meet at their join when segments disagree about a column; `isCompatible`
says that there is one, and `joins` takes the joins of a list in turn. The join is not always the
least type by widening: INT and FLOAT meet at DOUBLE although INT widens to FLOAT.

`ordinal` and `name` are how types are told on the wire and in documents, `isOrderable` says which
may be sorted by, and `StorageKind` names what a segment's physical columns hold.
-/

namespace SelectMerge

/-- The type of a column: one value of a kind, or an array of many. -/
inductive ColumnType where
  | one (s : Scalar)
  | many (s : Scalar)
deriving DecidableEq, Repr, Inhabited

namespace ColumnType

/-- All types in wire order: the single ones, then the arrays. -/
def all : List ColumnType := Scalar.all.map one ++ Scalar.all.map many

/-- The number that stands for a type on the wire. -/
def ordinal : ColumnType → Nat
  | one s => s.ordinal
  | many s => 9 + s.ordinal

/-- The type that a number on the wire stands for. -/
def ofOrdinal? (n : Int) : Option ColumnType :=
  if 0 ≤ n then all[n.toNat]? else none

def name : ColumnType → String
  | one s => s.name
  | many s => s.name ++ "_ARRAY"

/-- The type of a name. -/
def ofName? (s : String) : Option ColumnType := all.find? fun t => t.name == s

def isArray : ColumnType → Bool
  | one _ => false
  | many _ => true

def isNumber : ColumnType → Bool
  | one s => s.isNumber
  | many _ => false

def isWhole : ColumnType → Bool
  | one s => s.isWhole
  | many _ => false

def isNumberArray : ColumnType → Bool
  | one _ => false
  | many s => s.isNumber

def isWholeArray : ColumnType → Bool
  | one _ => false
  | many s => s.isWhole

/-- The element type of an array type. -/
def element? : ColumnType → Option ColumnType
  | one _ => none
  | many s => some (one s)

/-- The array type of a single type. -/
def array? : ColumnType → Option ColumnType
  | one s => some (many s)
  | many _ => none

/-- Whether rows can be ordered by a column of this type: not by arrays and not by objects. -/
def isOrderable : ColumnType → Bool
  | one .object => false
  | one _ => true
  | many _ => false

/-! ## Widening -/

/-- Whether `a` covers `b`: the same type, or single values whose kinds do. -/
def covers : ColumnType → ColumnType → Bool
  | one a, one b => a.covers b
  | many a, many b => a == b
  | _, _ => false

/-- Whether values of `a` widen to `b`: single values when `b` covers `a`, arrays element by element
when they hold numbers. -/
def widensTo : ColumnType → ColumnType → Bool
  | one a, one b => b.covers a
  | many a, many b => a == b || (a.isNumber && b.covers a)
  | _, _ => false

/-- The least type that two types widen to without loss, if there is one. -/
def join? : ColumnType → ColumnType → Option ColumnType
  | one a, one b => (a.join? b).map one
  | many a, many b => (a.join? b).map many
  | _, _ => none

def isCompatible (a b : ColumnType) : Bool := (a.join? b).isSome

/-- The successive joins of a list of types, missing from the first pair that has none. -/
def joins : List ColumnType → List (Option ColumnType)
  | [] => []
  | t :: ts => some t :: go (some t) ts
where
  go (acc : Option ColumnType) : List ColumnType → List (Option ColumnType)
    | [] => []
    | t :: ts =>
      let next := acc >>= fun a => a.join? t
      next :: go next ts

end ColumnType

/-! ## Storage -/

/-- How storage describes a physical column. -/
inductive StorageKind where
  | int
  | long
  | float
  | double
  | boolean
  | timestamp
  | string
  | json
  | bytes
deriving DecidableEq, Repr

namespace StorageKind

def all : List StorageKind :=
  [.int, .long, .float, .double, .boolean, .timestamp, .string, .json, .bytes]

def name : StorageKind → String
  | int => "INT"
  | long => "LONG"
  | float => "FLOAT"
  | double => "DOUBLE"
  | boolean => "BOOLEAN"
  | timestamp => "TIMESTAMP"
  | string => "STRING"
  | json => "JSON"
  | bytes => "BYTES"

/-- The kind of a name. -/
def ofName? (s : String) : Option StorageKind := all.find? fun k => k.name == s

/-- The scalars that a segment reports; JSON text is reported as STRING. -/
def scalar : StorageKind → Scalar
  | int => .int
  | long => .long
  | float => .float
  | double => .double
  | boolean => .boolean
  | timestamp => .timestamp
  | string => .string
  | json => .string
  | bytes => .bytes

/-- The type that a segment reports for a column with one value a row, or with many. -/
def columnType (k : StorageKind) (singleValue : Bool) : ColumnType :=
  if singleValue then .one k.scalar else .many k.scalar

end StorageKind

end SelectMerge
