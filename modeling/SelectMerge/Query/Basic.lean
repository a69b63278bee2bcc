import SelectMerge.Expr.Basic
import SelectMerge.Schema.Basic

/-!
# Queries

A `Query` selects expressions, orders by others and shows a window of rows. Segments evaluate it in
one fixed order, its `Evaluation`: what it orders by, then what it selects, each canonical text once
(`firsts`). A query for all columns evaluates the physical columns in the order of their names.

`Query.bound` is what every merge has to keep, the window and all before it. `Query.outputColumns`
chooses what is shown when the rows are merged: by then there is only a schema, so a column is taken
for a call by its name (`isCallColumn`).
-/

namespace SelectMerge

/-- A selection query. -/
structure Query where
  select : List Expression
  orderBy : List OrderBy
  limit : Nat
  offset : Nat
deriving Repr

namespace Query

/-- The number of rows shown where a query does not say. -/
def defaultLimit : Nat := 10

/-- The greatest number of rows that can be asked for. -/
def greatestCount : Nat := UInt64.size - 1

/-- A query without an order, with the default window. -/
def ofSelect (select : List Expression) : Query := ⟨select, [], defaultLimit, 0⟩

/-- The rows that every merge has to keep: the window and what lies before it. -/
def bound (q : Query) : Nat := min (q.offset + q.limit) greatestCount

/-- Whether the query asks for all columns. -/
def isWildcard (q : Query) : Bool :=
  match q.select with
  | [e] => e.isWildcard
  | _ => false

def hasOrder (q : Query) : Bool := !q.orderBy.isEmpty

end Query

/-! ## Evaluation order -/

/-- The expressions that segments evaluate for a query, in order. -/
structure Evaluation where
  expressions : List Expression
deriving Repr

namespace Evaluation

/-- The first expression of every canonical text, where `seen` holds the texts before. -/
def firsts (seen : List String) : List Expression → List Expression
  | [] => []
  | e :: es => if seen.contains e.text then firsts seen es else e :: firsts (e.text :: seen) es

/-- Names in the order of their code points. -/
def sortNames (names : List String) : List String := names.mergeSort fun a b => !decide (b < a)

/-- What the query selects, with the physical columns in place of the wildcard. -/
def selected (q : Query) (physical : List String) : List Expression :=
  if q.isWildcard then (sortNames physical).map .identifier else q.select

/-- The evaluation order of a query over a table with the given columns. -/
def ofQuery (q : Query) (physical : List String) : Evaluation :=
  ⟨firsts [] (q.orderBy.map (·.expression) ++ selected q physical)⟩

/-- The names of the columns: the canonical texts. -/
def columnNames (e : Evaluation) : List String := e.expressions.map (·.text)

/-- The place of an expression. -/
def indexOf? (e : Evaluation) (x : Expression) : Option Nat := e.expressions.findIdx? (· == x)

end Evaluation

/-! ## Output columns -/

namespace Query

/-- Whether a column holds the values of a call: canonical calls end in a parenthesis. -/
def isCallColumn (name : String) : Bool := name.toList.getLast? == some ')'

/-- The names of the columns to show: those selected, or for all columns the plain ones of the
schema in the order of their names. -/
def outputColumns (q : Query) (s : Schema) : List String :=
  if s.isPlaceholder then [Schema.placeholderName]
  else if q.isWildcard then Evaluation.sortNames (s.names.filter fun n => !isCallColumn n)
  else q.select.map (·.text)

end Query

end SelectMerge
