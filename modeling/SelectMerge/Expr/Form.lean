import SelectMerge.Expr.Call

/-!
# Forms with words of their own

Some words start a form with its own syntax (`wordForm`), such as a cast (`cast`) or a condition by
cases (`cases`). A query cannot contain most of these forms (`refused`), so only their extent
matters.
-/

namespace SelectMerge.Expr

namespace Rules

open Expr.Parser TimeSpan DataType

/-! ## Forms -/

/-- Cases after their word. -/
def cases (r : Rules) : Parser Unit := do
  unless ← keyword? "WHEN" do
    r.form
    keyword "WHEN"
  whileGoing do
    r.form
    keyword "THEN"
    r.form
    keyword? "WHEN"
  after (keyword? "ELSE") r.form
  keyword "END"

/-- A conversion after its word. -/
def conversion (r : Rules) : Parser Unit :=
  parens do
    r.form
    if ← keyword? "USING" then discard qualifiedName
    else
      symbol ","
      discard r.dataType
      after (keywords? ["CHARACTER", "SET"]) (discard qualifiedName)

/-- A cast after its word. -/
def cast (r : Rules) : Parser Unit :=
  parens do
    r.form
    keyword "AS"
    discard r.dataType
    after (keyword? "FORMAT") do
      discard value
      after (keywords? ["AT", "TIME", "ZONE"]) (discard value)

/-- A part of a date after its word. -/
def extraction (r : Rules) : Parser Unit :=
  parens do
    datePart
    unless ← keyword? "FROM" do symbol ","
    r.form

/-- A rounding after its word. -/
def rounding (r : Rules) : Parser Unit :=
  parens do
    r.form
    if ← keyword? "TO" then datePart
    else if ← symbol? "," then
      match ← ahead 0 with
      | some (.number ..) => skip 1
      | _ => fail

/-- The place of a text in another, in parentheses. -/
def position (r : Rules) : Parser Unit :=
  parens do
    discard (r.bound 20)
    keyword "IN"
    r.form

/-- A part of a text after its word. -/
def substring (r : Rules) : Parser Unit :=
  parens do
    r.form
    unless ← after? (symbol? ",") r.form do after (keyword? "FROM") r.form
    unless ← after? (keyword? "FOR") r.form do after (symbol? ",") r.form

/-- A replacement in a text after its word. -/
def overlay (r : Rules) : Parser Unit :=
  parens do
    r.form
    keyword "PLACING"
    r.form
    keyword "FROM"
    r.form
    after (keyword? "FOR") r.form

/-- A trimming after its word. -/
def trimming (r : Rules) : Parser Unit :=
  parens do
    discard (oneOf? ["BOTH", "LEADING", "TRAILING"])
    r.form
    if ← keyword? "FROM" then r.form
    else after (symbol? ",") r.forms

/-- Items of an array up to the closing bracket. -/
def array (r : Rules) : Parser Unit := do
  discard (commasBefore "]" r.expression)
  symbol "]"

/-- A negation after its word. -/
def negation (r : Rules) : Parser Unit := do
  if ← keyword? "EXISTS" then r.subquery else discard (r.bound 15)

/-- A text search after its word. -/
def search : Parser Unit := do
  discard (parens (commas qualifiedName))
  keyword "AGAINST"
  parens do
    discard value
    unless ← keywords? ["IN", "NATURAL", "LANGUAGE", "MODE", "WITH", "QUERY", "EXPANSION"] do
      unless ← keywords? ["IN", "NATURAL", "LANGUAGE", "MODE"] do
        unless ← keywords? ["IN", "BOOLEAN", "MODE"] do
          discard (keywords? ["WITH", "QUERY", "EXPANSION"])

/-- A structure after its word; values have names only where its fields have none. -/
def structureValue (r : Rules) : Parser Unit := do
  let (typed, closed) ← r.structure? r.typePart
  if closed then fail
  discard <| parens <| commas do
    r.form
    if ← keyword? "AS" then
      if typed then fail
      discard name

/-- Pairs of keys and values up to the closing brace. -/
def pairs (r : Rules) : Parser Unit := do
  discard <| commasBefore "\x7d" do
    r.form
    symbol ":"
    r.form
  symbol "\x7d"

/-! ## Choice of a form -/

/-- A form that cannot be part of a query. -/
def refused (p : Parser Unit) : Parser (Option Surface) := do
  p
  return some .other

/-- The form that a word starts, which was read; `none` for a word without a form. The rule for an
operand is given, since an interval has one without a nesting of its own. -/
def wordForm (r : Rules) (operand : Parser Surface) (n : Name) (k : String) :
    Parser (Option Surface) := do
  let paren ← symbolAhead 0 "("
  match k with
  | "TRUE" => return some (.literal "true")
  | "FALSE" => return some (.literal "false")
  | "NULL" => return some .otherLiteral
  | "CASE" => refused r.cases
  | "CONVERT" => refused r.conversion
  | "TRY_CONVERT" => refused r.conversion
  | "CAST" => refused r.cast
  | "TRY_CAST" => refused r.cast
  | "SAFE_CAST" => refused r.cast
  | "EXISTS" => refused r.subquery
  | "EXTRACT" => refused r.extraction
  | "CEIL" => refused r.rounding
  | "FLOOR" => refused r.rounding
  | "SUBSTR" => refused r.substring
  | "SUBSTRING" => refused r.substring
  | "OVERLAY" => refused r.overlay
  | "TRIM" => refused r.trimming
  | "INTERVAL" => refused (span operand)
  | "NOT" => refused r.negation
  | "MATCH" => refused search
  | "STRUCT" => refused r.structureValue
  | "PRIOR" =>
    if (← readThe Place) == .hierarchy then refused (discard (r.bound 30)) else return none
  | "POSITION" =>
    if paren then
      match ← maybe r.position with
      | some () => return some .other
      | none => return some (← r.call [n])
    else return none
  | "ARRAY" =>
    if ← symbol? "[" then refused r.array
    else if paren then
      r.subquery
      return some .callOfQuery
    else return none
  | "MAP" => if ← symbol? "\x7b" then refused r.pairs else return none
  | _ =>
    if ["CURRENT_CATALOG", "CURRENT_USER", "SESSION_USER", "USER"].contains k then
      return some (.call [n] [])
    else if ["CURRENT_TIMESTAMP", "CURRENT_TIME", "CURRENT_DATE", "LOCALTIME",
        "LOCALTIMESTAMP"].contains k then
      if ← symbol? "(" then return some (.call [n] (← r.arguments).1)
      else return some (.call [n] [])
    else return none

end Rules

end SelectMerge.Expr
