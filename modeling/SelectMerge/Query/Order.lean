import SelectMerge.Query.Basic
import SelectMerge.Schema.Project

/-!
# Resolving a query against its evaluation order

Sort keys are the places of the expressions that the query orders by (`Evaluation.orderPositions`);
`RowOrder.ofQuery` makes the order of rows of them. `Evaluation.schema` pairs the canonical texts of
what is evaluated with the types that a segment reports. Evaluated are expressions of different
texts, while a sort key is looked for as an expression, and is missing if another of its text came
first.
-/

namespace SelectMerge

namespace Evaluation

/-- The place of each expression that the query orders by. -/
def orderPositions (e : Evaluation) (q : Query) : Except MergeError (List Nat) :=
  q.orderBy.mapM fun o =>
    match e.indexOf? o.expression with
    | some i => .ok i
    | none => .error (.unknownColumn o.expression.text)

/-- The schema of rows evaluated in this order. -/
def schema (e : Evaluation) (types : List ColumnType) : Except MergeError Schema :=
  Schema.ofLists e.columnNames types

end Evaluation

namespace RowOrder

/-- The order of rows that a query asks for. -/
def ofQuery (q : Query) (e : Evaluation) (nulls : NullOrder) : Except MergeError RowOrder := do
  let positions ← e.orderPositions q
  return ⟨(positions.zip q.orderBy).map fun (i, o) => ⟨i, o.ascending⟩, nulls⟩

end RowOrder

end SelectMerge
