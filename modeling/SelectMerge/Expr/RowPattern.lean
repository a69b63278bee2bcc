import SelectMerge.Expr.Alias

/-!
# Row patterns

A table can be matched row by row with a pattern of named conditions, as a text is with a regular
expression (`rowMatch`). A `pattern` is alternatives of successions of conditions, each repeated as
a sign behind it says (`repetition?`).
-/

namespace SelectMerge.Expr

namespace RowPattern

open Expr.Parser

/-- A bound of a repetition. -/
def bound : Parser Unit := countBelow UInt32.size

/-- How often a pattern repeats, after the opening brace. -/
def range : Parser Unit := do
  if ← symbol? "," then
    bound
    symbol "\x7d"
  else
    bound
    unless ← symbol? "\x7d" do
      symbol ","
      unless ← symbol? "\x7d" do
        bound
        symbol "\x7d"

/-- A sign after a pattern that says how often it repeats; tells whether there was one. -/
def repetition? : Parser Bool := do
  match ← ahead 0 with
  | some (.symbol "*") => symbol? "*"
  | some (.symbol "+") => symbol? "+"
  | some (.symbol "\x7b") => after? (symbol? "\x7b") range
  | some (.placeholder "?") => do
    skip 1
    return true
  | _ => return false

/-- A condition, an end of the table, or a pattern in brackets. -/
def single (pattern : Parser Unit) : Parser Unit := do
  match ← ahead 0 with
  | some (.symbol "^") => skip 1
  | some (.placeholder "$") => skip 1
  | some (.symbol "(") => parens pattern
  | some (.symbol "\x7b") => do
    skip 1
    symbol "-"
    discard name
    symbol "-"
    symbol "\x7d"
  | some (.word "PERMUTE" none _) => do
    skip 1
    nameList
  | _ => discard name

/-- Patterns one after the other, up to what ends them. -/
def succession (pattern : Parser Unit) : Parser Unit :=
  whileGoing do
    single pattern
    whileGoing repetition?
    if ← symbolAhead 0 ")" then return false
    return !(← symbolAhead 0 "|")

/-- A pattern with its alternatives; `fuel` bounds how deep patterns lie inside each other. -/
def patternWithin : Nat → Parser Unit
  | 0 => fail
  | fuel + 1 =>
    whileGoing do
      succession (patternWithin fuel)
      symbol? "|"

/-- A pattern with its alternatives. -/
def pattern : Parser Unit := do patternWithin ((← get).length + 1)

end RowPattern

namespace Rules

open Expr.Parser

/-- Which rows a match shows. -/
def matchedRows : Parser Unit := do
  unless ← keywords? ["ONE", "ROW", "PER", "MATCH"] do
    after (keywords? ["ALL", "ROWS", "PER", "MATCH"]) do
      unless ← keywords? ["SHOW", "EMPTY", "MATCHES"] do
        unless ← keywords? ["OMIT", "EMPTY", "MATCHES"] do
          discard (keywords? ["WITH", "UNMATCHED", "ROWS"])

/-- Where the search goes on after a match. -/
def matchSkip : Parser Unit :=
  after (keywords? ["AFTER", "MATCH", "SKIP"]) do
    unless ← keywords? ["PAST", "LAST", "ROW"] do
      unless ← keywords? ["TO", "NEXT", "ROW"] do
        keyword "TO"
        oneOf ["FIRST", "LAST"]
        discard name

/-- A match of rows after its word; tells whether it has an alias. -/
def rowMatch (r : Rules) : Parser Bool := do
  parens do
    after (keywords? ["PARTITION", "BY"]) r.forms
    r.orderings?
    after (keyword? "MEASURES") <| discard <| commas do
      r.form
      discard (keyword? "AS")
      discard name
    matchedRows
    matchSkip
    keyword "PATTERN"
    parens RowPattern.pattern
    keyword "DEFINE"
    discard <| commas do
      discard name
      keyword "AS"
      r.form
  r.tableAlias?

end Rules

end SelectMerge.Expr
