import SelectMerge.Expr.Operand

/-!
# Operators

Operators bind by strength (`strength`), and those of equal strength to the left: `expressionAbove`
takes operators of more than a given strength after an operand. A query contains no operator, so an
expression with one is only recognised.
-/

namespace SelectMerge.Expr

namespace Rules

open Expr.Parser

/-! ## Strength -/

/-- The strength of symbols between operands. -/
def symbolStrength (s : String) : Nat :=
  if s == "." then 100
  else if ["::", "!", "[", "^@"].contains s then 50
  else if ["*", "/", "//", "%", "||"].contains s then 40
  else if ["+", "-"].contains s then 30
  else if s == "&" then 23
  else if ["^", "#", "<<", ">>"].contains s then 22
  else if ["|", "&&", "@"].contains s then 21
  else if ["=", "==", ":=", "<", "<=", "<>", ">", ">=", "<=>", "~", "~*", "!~", "!~*", "~~", "~~*",
      "!~~", "!~~*"].contains s then 20
  else if ["->", "->>", "#>", "#>>", "@>", "<@", "#-", "@?", "@@"].contains s then 16
  else 0

/-- The words that compare texts. -/
def textComparisons : List String :=
  ["LIKE", "ILIKE", "RLIKE", "REGEXP", "MATCH", "SIMILAR", "MEMBER"]

/-- The strength of words between operands. -/
def wordStrength (k : String) : Nat :=
  if k == "OR" then 5
  else if k == "AND" then 10
  else if k == "XOR" then 24
  else if k == "IS" then 17
  else if k == "DIV" then 40
  else if ["IN", "BETWEEN", "OVERLAPS", "OPERATOR"].contains k then 20
  else if textComparisons.contains k then 19
  else 0

/-- The strength of what comes next as an operator; zero if it is none. -/
def strength : Parser Nat := do
  match ← ahead 0 with
  | some (.symbol s) => return symbolStrength s
  | some (.word _ _ "AT") =>
    let zone := (← keywordAhead 1) == "TIME" && (← keywordAhead 2) == "ZONE"
    return if zone then 41 else 0
  | some (.word _ _ "NOT") =>
    let k ← keywordAhead 1
    if k == "NULL" then return (if (← readThe Place) == .columnOption then 0 else 17)
    else if ["IN", "BETWEEN"].contains k || textComparisons.contains k then return wordStrength k
    else return 0
  | some (.word _ _ k) => return wordStrength k
  | _ => return 0

/-! ## Right sides -/

/-- The comparisons that also compare with all or any of several values. -/
def comparisons : List String :=
  ["=", "==", "<>", "<", "<=", ">", ">=", "~", "~*", "!~", "!~*", "~~", "~~*", "!~~", "!~~*"]

/-- The right side of an operator between two operands. -/
def rightSide (r : Rules) (compares : Bool) (strength : Nat) : Parser Unit := do
  if ← oneOf? ["ANY", "ALL", "SOME"] then
    let start ← get
    symbol "("
    if ← queryAhead then
      set start
      discard (r.bound strength)
    else
      discard (r.bound strength)
      symbol ")"
    unless compares do fail
  else discard (r.bound strength)

/-- What a value is, after its word. -/
def test (r : Rules) : Parser Unit := do
  discard (keyword? "NOT")
  unless ← oneOf? ["NULL", "TRUE", "FALSE", "UNKNOWN"] do
    unless ← after? (keywords? ["DISTINCT", "FROM"]) r.form do
      discard (oneOf? ["NFC", "NFD", "NFKC", "NFKD"])
      keyword "NORMALIZED"

/-- The values that a value is searched in, after their word. -/
def membership (r : Rules) : Parser Unit := do
  if ← keyword? "UNNEST" then parens r.form
  else
    parens do
      unless (← maybe r.query).isSome do r.forms

/-- A pattern, after its word. -/
def pattern (r : Rules) : Parser Unit := do
  discard (r.bound 19)
  after (keyword? "ESCAPE") (discard value)

/-- A comparison by words. The words for patterns and for null are taken first, whatever stands
between. -/
def wordComparison (r : Rules) : Parser Unit := do
  let negated ← keyword? "NOT"
  let regular ← keyword? "REGEXP"
  let alike ← keyword? "RLIKE"
  let null ← if (← readThe Place) == .columnOption then pure false else keyword? "NULL"
  if regular || alike then discard (r.bound 19)
  else if negated && null then return ()
  else if ← keyword? "IN" then r.membership
  else if ← keyword? "BETWEEN" then
    discard (r.bound 20)
    keyword "AND"
    discard (r.bound 20)
  else if ← oneOf? ["LIKE", "ILIKE"] then
    discard (keyword? "ANY")
    r.pattern
  else
    keywords ["SIMILAR", "TO"]
    r.pattern

/-- The name of an operator in parentheses. -/
def operatorName : Parser Unit := do
  symbol "("
  whileGoing do
    discard take
    symbol? "."
  symbol ")"

/-- An operator of the given strength with its right side. -/
def operation (r : Rules) (strength : Nat) : Parser Unit := do
  let start ← get
  match (← take).lexeme with
  | .symbol s =>
    if s == "::" then discard r.dataType
    else if ["!", "[", "#", "@"].contains s then fail
    else r.rightSide (comparisons.contains s) strength
  | .word _ _ k =>
    if ["AND", "OR", "XOR", "OVERLAPS"].contains k then r.rightSide false strength
    else if k == "OPERATOR" then
      operatorName
      r.rightSide false strength
    else if k == "IS" then r.test
    else if k == "AT" then
      keywords ["TIME", "ZONE"]
      discard (r.bound strength)
    else if k == "MEMBER" then
      keyword "OF"
      parens r.form
    else
      set start
      r.wordComparison
  | _ => fail

/-! ## Expressions -/

/-- Operators of more than a strength after an expression; `fuel` bounds their number. -/
def operationsWithin (r : Rules) (least : Nat) : Nat → Surface → Parser Surface
  | 0, _ => fail
  | fuel + 1, e => do
    let s ← strength
    if s ≤ least then return e
    else if ← symbolAhead 0 "." then return e
    else
      r.operation s
      operationsWithin r least fuel .other

/-- An expression of operators that bind tighter than a strength, over the rules for what lies
inside it. -/
def expressionAbove (r : Rules) (least : Nat) : Parser Surface := do
  let root ← r.operand
  let selectors ← r.selectorsWithin ((← get).length + 1)
  operationsWithin r least ((← get).length + 1) (select root selectors)

end Rules

end SelectMerge.Expr
