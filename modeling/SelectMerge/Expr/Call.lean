import SelectMerge.Expr.DataType
import SelectMerge.Expr.TimeSpan

/-!
# Calls

A call (`call`) is a name with arguments in parentheses (`arguments`). Clauses inside and after the
parentheses say how an aggregate is computed: `nullTreatment`, `overflowClause` and the like inside,
a filter and a window (`window`) after them. They are recognised and play no part in the expression.
-/

namespace SelectMerge.Expr

namespace Rules

open Expr.Parser

/-! ## Wildcards -/

/-- The names after a first one, up to the columns of a table: `true` when these end the path;
`fuel` bounds the number of names. -/
def wildcardPath : Nat → Parser Bool
  | 0 => fail
  | fuel + 1 => do
    if ← symbol? "." then
      if ← symbol? "*" then return true
      discard name
      wildcardPath fuel
    else return false

/-- An expression, all columns, or the columns of a table. -/
def starred (r : Rules) : Parser Surface := do
  let start ← get
  match ← ahead 0 with
  | some (.symbol "*") =>
    skip 1
    return .wildcard
  | some (.word ..) | some (.quoted _) =>
    if ← symbolAhead 1 "." then
      skip 1
      if ← wildcardPath (start.length + 1) then return .otherArgument
      set start
    r.expression
  | _ => r.expression

/-! ## Arguments -/

/-- A named argument. -/
def namedArgument (r : Rules) : Parser Surface := do
  discard name
  unless ← keyword? "VALUE" do
    unless ← symbol? "=>" do symbol ":="
  discard r.starred
  return .otherArgument

/-- An argument, which may have a name. -/
def argument (r : Rules) : Parser Surface := do
  match ← maybe r.namedArgument with
  | some e => return e
  | none => r.starred

/-- How nulls count in an aggregate; tells whether it says so. -/
def nullTreatment : Parser Bool := do
  if ← oneOf? ["RESPECT", "IGNORE"] then
    keyword "NULLS"
    return true
  else return false

/-- How nulls and results are written where a call makes a document. -/
def documentClauses (r : Rules) : Parser Unit := do
  unless ← keywords? ["ABSENT", "ON", "NULL"] do discard (keywords? ["NULL", "ON", "NULL"])
  after (keyword? "RETURNING") (discard r.dataType)

/-- What happens to lists that grow too long; only some texts can mark where one was cut. -/
def overflowClause (r : Rules) : Parser Unit :=
  after (keywords? ["ON", "OVERFLOW"]) do
    unless ← keyword? "ERROR" do
      keyword "TRUNCATE"
      match ← ahead 0 with
      | some (.quoted _) => r.form
      | some (.literal k) =>
        if [.national, .escaped, .unicode, .hexadecimal].contains k then r.form else fail
      | _ => pure ()
      oneOf ["WITH", "WITHOUT"]
      keyword "COUNT"

/-- The arguments up to the closing parenthesis, and whether they say how nulls count. -/
def arguments (r : Rules) : Parser (List Surface × Bool) := do
  r.documentClauses
  if ← symbol? ")" then return ([], false)
  let all ← keyword? "ALL"
  let distinct ← keyword? "DISTINCT"
  if all && distinct then fail
  let args ← commas r.argument
  let treated ← nullTreatment
  r.orderings?
  after (keyword? "LIMIT") r.form
  after (keyword? "HAVING") do
    oneOf ["MIN", "MAX"]
    r.form
  after (keyword? "SEPARATOR") (discard value)
  r.overflowClause
  r.documentClauses
  symbol ")"
  return (args, treated)

/-! ## Windows -/

/-- One end of a window frame; a text there is an interval. -/
def frameBound (r : Rules) : Parser Unit := do
  unless ← keywords? ["CURRENT", "ROW"] do
    unless ← keyword? "UNBOUNDED" do
      match ← ahead 0 with
      | some (.quoted _) =>
        TimeSpan.span do
          quotedText
          collated .otherLiteral
      | _ => r.form
    oneOf ["PRECEDING", "FOLLOWING"]

/-- The rows of a window around the current one. -/
def frame (r : Rules) : Parser Unit := do
  oneOf ["ROWS", "RANGE", "GROUPS"]
  if ← keyword? "BETWEEN" then
    r.frameBound
    keyword "AND"
  r.frameBound

/-- A window up to the closing parenthesis; its name, if it has one, is no keyword. -/
def window (r : Rules) : Parser Unit := do
  match ← ahead 0 with
  | some (.word _ _ k) => unless isKeyword k do skip 1
  | _ => pure ()
  after (keywords? ["PARTITION", "BY"]) r.forms
  r.orderings?
  unless ← symbol? ")" do
    r.frame
    symbol ")"

/-! ## The call -/

/-- A call after its name. A second list of arguments takes the place of the first; the word before
a filter is skipped even when no filter follows. -/
def call (r : Rules) (names : List Name) : Parser Surface := do
  symbol "("
  let first ← r.arguments
  let (args, treated) ← if ← symbol? "(" then r.arguments else pure first
  after (keywords? ["WITHIN", "GROUP"]) <| parens do
    keywords ["ORDER", "BY"]
    r.orderings
  if ← keyword? "FILTER" then
    if ← symbol? "(" then
      if ← keyword? "WHERE" then
        r.form
        symbol ")"
  unless treated do discard nullTreatment
  if ← keyword? "OVER" then
    if ← symbol? "(" then r.window else discard name
  return .call names args

end Rules

end SelectMerge.Expr
