import SelectMerge.Expr.Alias
import SelectMerge.Expr.Call

/-!
# Turned tables

A table can be turned so that values become columns, with an aggregate for each (`pivot`), or back
so that columns become values (`unpivot`).
-/

namespace SelectMerge.Expr

namespace Rules

open Expr.Parser

/-- A call of a single word. -/
def simpleCall (r : Rules) : Parser Unit := do
  unless ((← ahead 0).map Lexeme.isWord).getD false do fail
  discard (r.call [← name])

/-- An aggregate with an optional alias. -/
def aggregate (r : Rules) : Parser Unit := do
  r.simpleCall
  named? "AS"

/-- The values that become columns, in parentheses. -/
def turnedValues (r : Rules) : Parser Unit :=
  parens do
    if ← keyword? "ANY" then r.orderings?
    else if ← queryAhead then r.query
    else discard (commas r.namedForm)

/-- A column whose values become columns. -/
def turnedColumn (r : Rules) : Parser Unit := discard (r.bound 20)

/-- Values that become columns, after their word; tells whether the table has an alias. -/
def pivot (r : Rules) : Parser Bool := do
  parens do
    discard (commas r.aggregate)
    keyword "FOR"
    if ← symbolAhead 0 "(" then discard (parens (commas r.turnedColumn)) else r.turnedColumn
    keyword "IN"
    r.turnedValues
    after (keywords? ["DEFAULT", "ON", "NULL"]) (parens r.form)
  r.tableAlias?

/-- Columns that become values, after their word; tells whether the table has an alias. -/
def unpivot (r : Rules) : Parser Bool := do
  after (oneOf? ["INCLUDE", "EXCLUDE"]) (keyword "NULLS")
  parens do
    r.form
    keyword "FOR"
    discard name
    keyword "IN"
    discard (parens (commas r.namedForm))
  r.tableAlias?

end Rules

end SelectMerge.Expr
