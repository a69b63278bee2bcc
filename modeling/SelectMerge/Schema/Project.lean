import SelectMerge.Column.Cast
import SelectMerge.Error

/-!
# Projection

Rows are cast to the types of a schema when they leave a merge, and only then (`Schema.projectRow`).
A row that already has them is handed on as it is (`ProjectedRow.kept`); a batch is cast whole or
not at all (`Schema.project`). The errors of schemas are here too: `Schema.cover` of schemas that
are not compatible, `Schema.ofLists` of lists that do not go together, and `RowOrder.validate` of an
order that a schema has no columns for.
-/

namespace SelectMerge

/-- A row under a schema: handed on as it came, or made anew. -/
inductive ProjectedRow where
  | kept (row : Row)
  | recast (row : Row)

namespace ProjectedRow

def row : ProjectedRow → Row
  | kept r => r
  | recast r => r

def isKept : ProjectedRow → Bool
  | kept _ => true
  | recast _ => false

end ProjectedRow

namespace Cell

/-- Whether a cell is null or of the type. -/
def fits (t : ColumnType) (c : Cell) : Bool := c.type?.all (· == t)

/-- The cell cast to a type, or the cast that does not exist. -/
def castTo (t : ColumnType) (c : Cell) : Except MergeError Cell :=
  match c.cast? t with
  | some c => .ok c
  | none => .error (.unsupportedCast (c.type?.getD t) t)

end Cell

namespace Schema

/-- Casts cells to types position by position. -/
def castCells : Row → List ColumnType → Except MergeError Row
  | c :: cs, t :: ts => do return (← c.castTo t) :: (← castCells cs ts)
  | _, _ => .ok []

/-- Casts a row with one cell a column. -/
def projectRow (s : Schema) (r : Row) : Except MergeError ProjectedRow :=
  if r.length ≠ s.length then .error (.rowArity s.length r.length)
  else if (r.zip s.types).all fun (c, t) => c.fits t then .ok (.kept r)
  else (castCells r s.types).map .recast

/-- Casts rows; the first that cannot be cast refuses them all. -/
def project (s : Schema) (rows : List Row) : Except MergeError (List Row) :=
  rows.mapM fun r => (s.projectRow r).map (·.row)

/-- The schema that covers both, under the names of `a`. -/
def cover (a b : Schema) : Except MergeError Schema :=
  match a.cover? b with
  | some s => .ok s
  | none => .error (.schemaMismatch a.text b.text)

/-- The schema of a list of names and a list of types. -/
def ofLists (names : List String) (types : List ColumnType) : Except MergeError Schema :=
  if names.length = types.length then .ok ⟨names, types⟩
  else .error (.rowArity names.length types.length)

end Schema

namespace RowOrder

/-- Checks that every key names a column that rows can be ordered by. -/
def validate (o : RowOrder) (s : Schema) : Except MergeError Unit :=
  o.keys.forM fun key =>
    match s.names[key.column]?, s.types[key.column]? with
    | some name, some type =>
      if type.isOrderable then .ok () else .error (.unorderableColumn name type)
    | _, _ => .error (.unknownColumn ("#" ++ toString key.column))

end RowOrder

end SelectMerge
