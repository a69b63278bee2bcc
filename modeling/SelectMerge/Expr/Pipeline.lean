import SelectMerge.Expr.Change

/-!
# Pipelines

After a query, steps with a sign of their own before each work on its rows one after the other
(`pipeline`, `step`). Their aggregates, renamings and combinations with other queries are recognised
and not kept.
-/

namespace SelectMerge.Expr

namespace Rules

open Expr.Parser

/-- Expressions to aggregate or to group by, each with an optional alias and direction. -/
def aggregated (r : Rules) : Parser Unit :=
  discard <| commas do
    r.form
    discard (alias? ["ASC", "DESC", "GROUP"])
    direction

/-- Queries to combine with, each in parentheses. -/
def operands (r : Rules) : Parser Unit := discard (commas r.subquery)

/-- The words that say what happens to equal rows of combined queries, and how columns are
matched. -/
def combination : Parser Unit := do
  unless ← keywords? ["DISTINCT", "BY", "NAME"] do
    unless ← keywords? ["BY", "NAME"] do
      if ← keyword? "ALL" then discard (keywords? ["BY", "NAME"])
      else discard (keyword? "DISTINCT")

/-- The words that say that equal rows of combined queries are one. -/
def distinctCombination : Parser Unit := do
  keyword "DISTINCT"
  discard (keywords? ["BY", "NAME"])

/-- An optional name for the rows of a step; every word is one. -/
def newTable? : Parser Unit := discard (alias? [])

/-- Columns to leave out, which reach to the end of the text; only two signs end them before. -/
def dropped : Parser Unit :=
  whileGoing do
    let ends ←
      match ← ahead 0 with
      | none => pure true
      | some (.symbol s) => pure (["=", ";"].contains s)
      | some _ => pure false
    unless ends do skip 1
    return !ends

/-- A name for a name, which a word may announce. -/
def newName : Parser Unit := do
  discard name
  discard (keyword? "AS")
  discard name

/-- Values that become columns, after their word. -/
def pivotStep (r : Rules) : Parser Unit := do
  parens do
    discard <| commas do
      r.simpleCall
      named? "AS"
    keyword "FOR"
    discard qualifiedName
    keyword "IN"
    r.turnedValues
  newTable?

/-- Columns that become values, after their word. -/
def unpivotStep : Parser Unit := do
  parens do
    discard name
    keyword "FOR"
    discard name
    keyword "IN"
    nameList
  newTable?

/-- A step of a pipeline after its sign. -/
def step (r : Rules) : Parser Unit := do
  let start ← get
  let k := (← take).lexeme.keyword
  match k with
  | "SELECT" => r.items
  | "EXTEND" => r.items
  | "SET" => r.assignments
  | "DROP" => dropped
  | "AS" => discard name
  | "WHERE" => r.form
  | "LIMIT" => do
    r.form
    after (keyword? "OFFSET") r.form
  | "AGGREGATE" => do
    unless (← keywordAhead 0) == "GROUP" do r.aggregated
    after (keywords? ["GROUP", "BY"]) r.aggregated
  | "ORDER" => do
    keyword "BY"
    r.orderings
  | "TABLESAMPLE" => r.sample
  | "RENAME" => discard (commas newName)
  | "UNION" => do
    combination
    r.operands
  | "INTERSECT" => do
    distinctCombination
    r.operands
  | "EXCEPT" => do
    distinctCombination
    r.operands
  | "CALL" => do
    discard (r.call (← qualifiedName))
    newTable?
  | "PIVOT" => r.pivotStep
  | "UNPIVOT" => unpivotStep
  | _ =>
    unless ["JOIN", "INNER", "LEFT", "RIGHT", "FULL", "CROSS"].contains k do fail
    set start
    unless (← r.joins) == 1 do fail

/-- The steps of a pipeline. -/
def pipeline (r : Rules) : Parser Unit := whileGoing (after? (symbol? "|>") r.step)

end Rules

end SelectMerge.Expr
