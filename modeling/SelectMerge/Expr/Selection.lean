import SelectMerge.Expr.Item
import SelectMerge.Expr.Table

/-!
# Selections

A selection (`selection`) takes items from tables. Its `clauses` come in a fixed order, and each may
be missing; it may also start with its tables, and then select all of their columns (`tablesFirst`).
-/

namespace SelectMerge.Expr

namespace Rules

open Expr.Parser

/-! ## Before the tables -/

/-- Which of equal rows are selected. -/
def distinction (r : Rules) : Parser Unit := do
  let all ← keyword? "ALL"
  if ← keyword? "DISTINCT" then
    if all then fail
    after (keyword? "ON") (discard (parens (commasBefore ")" r.expression)))

/-- How many rows are selected, after its word. -/
def top (r : Rules) : Parser Unit := do
  if ← symbolAhead 0 "(" then parens r.form else count
  discard (keyword? "PERCENT")
  discard (keywords? ["WITH", "TIES"])

/-- The table that takes the rows, after its word. -/
def target : Parser Unit := do
  discard (oneOf? ["TEMP", "TEMPORARY"])
  discard (keyword? "UNLOGGED")
  discard (keyword? "TABLE")
  discard qualifiedName

/-! ## After the tables -/

/-- The words that end the aliases of a view. -/
def viewReserved : List String := ["WHERE", "GROUP", "CLUSTER", "HAVING", "LATERAL"]

/-- A view over each row, after its words. -/
def lateralView (r : Rules) : Parser Unit := do
  discard (keyword? "OUTER")
  r.form
  discard qualifiedName
  discard (commas (alias? viewReserved))

/-- Expressions to group by together, in parentheses, or none. -/
def groupedTogether (r : Rules) : Parser Unit :=
  discard (parens (commasBefore ")" r.expression))

/-- Expressions to group by together, or a single one. -/
def groupedSet (r : Rules) : Parser Unit := do
  if ← symbolAhead 0 "(" then r.groupedTogether else r.form

/-- An expression to group by, or several ways to group. -/
def grouping (r : Rules) : Parser Unit := do
  if ← keywords? ["GROUPING", "SETS"] then discard (parens (commas r.groupedTogether))
  else if ← oneOf? ["CUBE", "ROLLUP"] then discard (parens (commas r.groupedSet))
  else if (← symbolAhead 0 "(") && (← symbolAhead 1 ")") then skip 2
  else r.form

/-- What to group by, after its words. -/
def groupings (r : Rules) : Parser Unit := do
  unless ← keyword? "ALL" do discard (commas r.grouping)
  whileGoing (after? (keyword? "WITH") (oneOf ["ROLLUP", "CUBE", "TOTALS"]))
  after (keywords? ["GROUPING", "SETS"]) (discard (parens (commas r.groupedSet)))

/-- Windows with names, after their word. -/
def windows (r : Rules) : Parser Unit :=
  discard <| commas do
    discard name
    keyword "AS"
    if ← symbol? "(" then r.window else discard name

/-- The relations between rows and earlier ones, after their words. -/
def relations (r : Rules) : Parser Unit := atPlace .hierarchy r.forms

/-- How rows are related to earlier ones; the first rows are told before or after. -/
def hierarchy (r : Rules) : Parser Unit := do
  if ← keywords? ["CONNECT", "BY"] then
    r.relations
    keywords ["START", "WITH"]
    r.form
  else
    keywords ["START", "WITH"]
    r.form
    keywords ["CONNECT", "BY"]
    r.relations

/-- The clauses after the tables. -/
def clauses (r : Rules) : Parser Unit := do
  whileGoing (after? (keywords? ["LATERAL", "VIEW"]) r.lateralView)
  after (keyword? "PREWHERE") r.form
  after (keyword? "WHERE") r.form
  after (keywords? ["GROUP", "BY"]) r.groupings
  after (keywords? ["CLUSTER", "BY"]) r.forms
  after (keywords? ["DISTRIBUTE", "BY"]) r.forms
  after (keywords? ["SORT", "BY"]) r.orderings
  after (keyword? "HAVING") r.form
  let windowed ← after? (keyword? "WINDOW") r.windows
  if ← after? (keyword? "QUALIFY") r.form then
    unless windowed do after (keyword? "WINDOW") r.windows
  if ["START", "CONNECT"].contains (← keywordAhead 0) then r.hierarchy

/-! ## The selection -/

/-- A selection after its word; `placed` tells whether its tables came before. -/
def selection (r : Rules) (placed : Bool) : Parser Unit := do
  r.distinction
  after (keyword? "TOP") r.top
  unless (← keywordAhead 0) == "FROM" do r.projection
  after (keyword? "INTO") target
  unless placed do after (keyword? "FROM") r.tables
  r.clauses

/-- A selection that starts with its tables, after their word. -/
def tablesFirst (r : Rules) : Parser Unit := do
  r.tables
  after (keyword? "SELECT") (r.selection true)

end Rules

end SelectMerge.Expr
