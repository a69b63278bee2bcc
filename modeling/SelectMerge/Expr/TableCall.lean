import SelectMerge.Expr.Alias
import SelectMerge.Expr.Call

/-!
# Calls that make tables

A table can be made by a call (`tableArguments`). The calls that take a document apart
(`documentTable`, `openedTable`, `markupTable`) list the columns they make, with the place of each
in the document.
-/

namespace SelectMerge.Expr

namespace Rules

open Expr.Parser

/-! ## Plain calls -/

/-- Arguments up to the closing parenthesis, without clauses. -/
def plainArguments (r : Rules) : Parser Unit := do
  discard (commasBefore ")" r.argument)
  symbol ")"

/-- Arguments up to the closing parenthesis, with settings at the end. -/
def tableArguments (r : Rules) : Parser Unit := do
  unless ← symbol? ")" do
    whileGoing do
      if ← r.settings? then return false
      else
        discard r.argument
        symbol? ","
    symbol ")"

/-! ## Documents as objects -/

/-- What a column holds where the document has nothing for it, or something wrong. -/
def fallback? : Parser Bool := do
  let found ←
    if ← oneOf? ["NULL", "ERROR"] then pure true
    else after? (keyword? "DEFAULT") (discard value)
  if found then
    keyword "ON"
    oneOf ["EMPTY", "ERROR"]
  return found

/-- A column made from a document: a number for the row, a value at a place, or the columns of the
documents there; `fuel` bounds how deep these lie inside each other. -/
def documentColumnWithin (r : Rules) : Nat → Parser Unit
  | 0 => fail
  | fuel + 1 => do
    if ← keyword? "NESTED" then
      discard (keyword? "PATH")
      discard value
      keyword "COLUMNS"
      discard (parens (commas (documentColumnWithin r fuel)))
    else
      discard name
      if ← keyword? "FOR" then keyword "ORDINALITY"
      else
        discard r.dataType
        discard (keyword? "EXISTS")
        keyword "PATH"
        discard value
        whileGoing fallback?

/-- A table made from a document, after its word. -/
def documentTable (r : Rules) : Parser Unit :=
  parens do
    r.form
    symbol ","
    discard value
    keyword "COLUMNS"
    discard (parens (commas (r.documentColumnWithin ((← get).length + 1))))

/-- The columns that a document is opened with. -/
def openedColumn (r : Rules) : Parser Unit := do
  discard name
  discard r.dataType
  match ← ahead 0 with
  | some (.quoted _) => skip 1
  | _ => pure ()
  after (keyword? "AS") (keyword "JSON")

/-- A document opened as a table, after its word. -/
def openedTable (r : Rules) : Parser Unit := do
  parens do
    r.form
    after (symbol? ",") (discard value)
  after (keyword? "WITH") (discard (parens (commas r.openedColumn)))

/-! ## Documents as markup -/

/-- What a document in markup is read with. -/
def passing (r : Rules) : Parser Unit :=
  discard <| commas do
    after (keyword? "BY") (discard (keyword? "VALUE"))
    r.namedForm

/-- A column made from a document in markup. -/
def markupColumn (r : Rules) : Parser Unit := do
  discard name
  if ← keyword? "FOR" then keyword "ORDINALITY"
  else
    discard r.dataType
    after (keyword? "PATH") r.form
    after (keyword? "DEFAULT") r.form
    unless ← keywords? ["NOT", "NULL"] do discard (keyword? "NULL")

/-- A table made from a document in markup, after its word. -/
def markupTable (r : Rules) : Parser Unit :=
  parens do
    after (keyword? "XMLNAMESPACES") do
      discard <| parens <| commas do
        r.form
        keyword "AS"
        discard name
      symbol ","
    r.form
    after (keyword? "PASSING") r.passing
    keyword "COLUMNS"
    discard (commas r.markupColumn)

end Rules

end SelectMerge.Expr
