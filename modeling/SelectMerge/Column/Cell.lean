import SelectMerge.Column.ColumnType

/-!
# Cells and rows

A `Cell` carries the type it was made under (`Cell.type?`), so cells of one column may differ in
type between segments; null has no type. A `Row` lists its cells by position, as a schema lists its
columns. `Cell.same` and `Row.same` are equality as values: the types agree and numbers are compared
as numbers, so a NaN equals nothing and the two zeros are one.
-/

namespace SelectMerge

/-- A value of a row. -/
inductive Cell where
  | null
  | one (s : Scalar) (x : s.Carrier)
  | many (s : Scalar) (xs : List s.Carrier)

/-- The cells of a row by column. -/
abbrev Row := List Cell

namespace Cell

instance : Inhabited Cell := ⟨.null⟩

/-- The type a cell was made under; null has none. -/
def type? : Cell → Option ColumnType
  | null => none
  | one s _ => some (.one s)
  | many s _ => some (.many s)

def isNull : Cell → Bool
  | null => true
  | _ => false

/-! ## Cells of a kind -/

abbrev int (x : Int32) : Cell := .one .int x
abbrev long (x : Int64) : Cell := .one .long x
abbrev float (x : Binary32) : Cell := .one .float x
abbrev double (x : Binary64) : Cell := .one .double x
abbrev boolean (x : Bool) : Cell := .one .boolean x
abbrev string (x : String) : Cell := .one .string x
abbrev bytes (x : List UInt8) : Cell := .one .bytes x
abbrev timestamp (x : Int64) : Cell := .one .timestamp x
abbrev object (x : Json) : Cell := .one .object x

/-! ## Equality -/

/-- Equality of arrays of one kind. -/
def sameArray (s : Scalar) : List s.Carrier → List s.Carrier → Bool
  | [], [] => true
  | x :: xs, y :: ys => s.same x y && sameArray s xs ys
  | _, _ => false

/-- Equality of cells: same type, and values equal as values of it. -/
def same : Cell → Cell → Bool
  | null, null => true
  | one s x, one t y => if h : s = t then t.same (h ▸ x) y else false
  | many s xs, many t ys => if h : s = t then sameArray t (h ▸ xs) ys else false
  | _, _ => false

end Cell

namespace Row

/-- Equality of rows, cell by cell. -/
def same : Row → Row → Bool
  | [], [] => true
  | a :: as, b :: bs => a.same b && same as bs
  | _, _ => false

end Row

end SelectMerge
