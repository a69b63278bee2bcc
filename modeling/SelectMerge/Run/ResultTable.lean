import SelectMerge.Column.CellJson
import SelectMerge.Query.Order
import SelectMerge.Run.Progress

/-!
# Results

What becomes of a finished run: its rows cast to their common schema (`Selection.project`), encoded
as a table (`Selection.payload`), or cut to the query's window and output columns
(`Selection.table`). The cells to show are looked up in each cast row by `Abort.item`, which takes
them to be there.
-/

namespace SelectMerge

/-- The table that a query answers with. -/
structure ResultTable where
  columns : List String
  types : List ColumnType
  rows : List Row

namespace ResultTable

/-- The table as a document. -/
def json (t : ResultTable) : Json :=
  .ofFields [("columns", .list (t.columns.map .text)),
    ("column_types", .list (t.types.map fun c => .text c.name)),
    ("rows", .list (t.rows.map fun r => .list (r.map Cell.json)))]

end ResultTable

namespace Selection

/-- All rows, cast. -/
def project (s : Selection) : Except MergeError (List Row) := s.schema.project s.rows

/-- All rows as an encoded table. -/
def payload (s : Selection) : Except (Abort MergeError) Payload := Payload.ofRows s.schema s.rows

/-- The rows of the window, cast, in the query's output columns. -/
def table (s : Selection) (q : Query) : Except (Abort MergeError) ResultTable :=
  if s.schema.isPlaceholder then .ok ⟨s.schema.names, s.schema.types, []⟩
  else do
    let columns := q.outputColumns s.schema
    let indices ← columns.mapM fun name =>
      match s.schema.indexOf? name with
      | some i => Except.ok i
      | none => Except.error (Abort.failed (MergeError.unknownColumn name))
    let types := indices.filterMap fun i => s.schema.types[i]?
    let rows ← ((s.rows.drop q.offset).take q.limit).mapM fun r => do
      let p ← Abort.ofExcept (s.schema.projectRow r)
      indices.mapM (Abort.item p.row)
    return ⟨columns, types, rows⟩

end Selection

end SelectMerge
