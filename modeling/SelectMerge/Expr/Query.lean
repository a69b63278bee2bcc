import SelectMerge.Expr.Pipeline

/-!
# Queries inside expressions

A query in parentheses is a form that no selection query contains, so only its extent matters
(`wholeQuery`). It combines selections, values and whole tables as sets (`queryBody`), and may order
and bound the rows (`bounds`), lock them (`lock`), and say how they are written (`markup`,
`objects`).
-/

namespace SelectMerge.Expr

namespace Rules

open Expr.Parser

/-! ## Bodies -/

/-- A whole table after its word. Three tokens are taken; unless the second is a point, only the
first is the table's name. -/
def wholeTable : Parser Unit := do
  let first ← ahead 0
  let point ← symbolAhead 1 "."
  let third ← ahead 2
  skip 3
  unless (first.map Lexeme.isWord).getD false do fail
  if point then
    unless (third.map Lexeme.isWord).getD false do fail

/-- A selection, a query in parentheses, values or a whole table. -/
def queryPart (r : Rules) : Parser Unit := do
  if ← keyword? "SELECT" then r.selection false
  else if ← keyword? "FROM" then r.tablesFirst
  else if ← symbolAhead 0 "(" then r.subquery
  else if ← keyword? "VALUES" then r.rows
  else
    keyword "TABLE"
    wholeTable

/-- Parts of a query combined as sets. -/
def queryBody (r : Rules) : Parser Unit :=
  whileGoing do
    r.queryPart
    after? (oneOf? ["UNION", "EXCEPT", "INTERSECT", "MINUS"]) combination

/-! ## Order and bounds -/

/-- How the columns of filled rows are computed, after its word. -/
def interpolation (r : Rules) : Parser Unit := do
  if ← symbolAhead 0 "(" then
    discard <| parens <| commasBefore ")" do
      discard name
      after (keyword? "AS") r.form

/-- How many rows are left out, after its word. -/
def offset (r : Rules) : Parser Unit := do
  r.form
  discard (oneOf? ["ROW", "ROWS"])

/-- The rows that a query shows: how many at most, and how many are left out before. -/
def bounds (r : Rules) : Parser Unit := do
  let skipped ← after? (keyword? "OFFSET") r.offset
  after (keyword? "LIMIT") do
    let all ← keyword? "ALL"
    unless all do r.form
    let both ← if skipped || all then pure false else symbol? ","
    if both then r.form
    else
      after (keyword? "BY") r.forms
      unless skipped do after (keyword? "OFFSET") r.offset

/-- How many rows are fetched, after its word. -/
def fetched : Parser Unit := do
  discard (oneOf? ["FIRST", "NEXT"])
  unless ← oneOf? ["ROW", "ROWS"] do
    discard value
    discard (keyword? "PERCENT")
    discard (oneOf? ["ROW", "ROWS"])
  unless ← keyword? "ONLY" do discard (keywords? ["WITH", "TIES"])

/-! ## Purpose -/

/-- How a document is written, after its kind: each option follows a comma and may be missing. -/
def documentOptions (option : Parser Unit) : Parser Unit := whileGoing (after? (symbol? ",") option)

/-- A document in markup, after its word. -/
def markup : Parser Unit := do
  if ← oneOf? ["RAW", "PATH"] then
    if ← symbolAhead 0 "(" then parens text
  else oneOf ["AUTO", "EXPLICIT"]
  documentOptions do
    unless ← oneOf? ["ELEMENTS", "TYPE"] do
      unless ← after? (keyword? "BINARY") (keyword "BASE64") do
        after (keyword? "ROOT") (parens text)

/-- A document of objects, after its word. -/
def objects : Parser Unit := do
  oneOf ["AUTO", "PATH"]
  documentOptions do
    unless ← oneOf? ["INCLUDE_NULL_VALUES", "WITHOUT_ARRAY_WRAPPER"] do
      after (keyword? "ROOT") (parens text)

/-- A lock on the rows. -/
def lock : Parser Unit := do
  oneOf ["UPDATE", "SHARE"]
  after (keyword? "OF") (discard qualifiedName)
  unless ← keyword? "NOWAIT" do discard (keywords? ["SKIP", "LOCKED"])

/-- What the rows are for, after its word; tells whether another purpose may follow. -/
def purpose : Parser Bool := do
  if ← after? (keyword? "XML") markup then return false
  else if ← after? (keyword? "JSON") objects then return false
  else if ← keyword? "BROWSE" then return false
  else
    lock
    return true

/-! ## Whole queries -/

/-- A named query before another. -/
def namedQuery (r : Rules) : Parser Unit := do
  discard name
  unless ← keyword? "AS" do
    r.aliasColumns?
    keyword "AS"
  r.subquery
  named? "FROM"

/-- A query, over the rules for what lies inside it. A change ends it. -/
def wholeQuery (r : Rules) : Parser Unit := do
  after (keyword? "WITH") do
    discard (keyword? "RECURSIVE")
    discard (commas r.namedQuery)
  unless ← r.change? do
    r.queryBody
    after (keywords? ["ORDER", "BY"]) do
      r.orderings
      after (keyword? "INTERPOLATE") r.interpolation
    r.bounds
    discard r.settings?
    after (keyword? "FETCH") fetched
    whileGoing do
      if ← keyword? "FOR" then purpose else return false
    after (keyword? "FORMAT") do
      unless ← keyword? "NULL" do discard name
    r.pipeline

end Rules

end SelectMerge.Expr
