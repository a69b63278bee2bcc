import SelectMerge.Expr.Parser

/-!
# The rules that nest

Expressions and queries contain each other. Every rule is written over the `Rules` for what lies
inside, so the nesting allowance is the only recursion between them; `Rules.exhausted` are the rules
where nothing may nest any more. Here are the parsers that most rules share: expressions whose value
plays no part (`form`), orders (`orderings`), settings, and what stands in parentheses
(`bracketed`).
-/

namespace SelectMerge.Expr

/-- The rules for what lies inside an expression or a query. -/
structure Rules where
  /-- An expression of operators that bind tighter than a given strength. -/
  bound : Nat → Parser Surface
  query : Parser Unit

namespace Rules

open Expr.Parser

/-- The rules where nothing may nest any more. -/
def exhausted : Rules where
  bound _ := throw .tooDeep
  query := throw .tooDeep

/-! ## Expressions -/

/-- An expression. -/
def expression (r : Rules) : Parser Surface := r.bound 0

/-- An expression whose value plays no part. -/
def form (r : Rules) : Parser Unit := discard r.expression

/-- Expressions with commas between. -/
def forms (r : Rules) : Parser Unit := discard (commas r.expression)

/-- An expression, and a name for it if it has one. -/
def namedForm (r : Rules) : Parser Unit := do
  r.form
  named? "AS"

/-- An optional order of texts after an expression; after an option's expression it is an option of
its own. -/
def collated (e : Surface) : Parser Surface := do
  if (← readThe Place) == .columnOption then return e
  else if ← keyword? "COLLATE" then
    discard qualifiedName
    return .other
  else return e

/-- A setting: a name and its value. -/
def setting (r : Rules) : Parser Unit := do
  discard name
  symbol "="
  r.form

/-- Settings after their word, if it comes next; tells whether it did. -/
def settings? (r : Rules) : Parser Bool :=
  after? (keyword? "SETTINGS") (discard (commas r.setting))

/-- Rows of values. -/
def rows (r : Rules) : Parser Unit :=
  discard <| commas do
    discard (keyword? "ROW")
    parens r.forms

/-! ## Orders -/

/-- An optional direction. -/
def direction : Parser Unit := discard (oneOf? ["ASC", "DESC"])

/-- An expression to order by. -/
def ordering (r : Rules) : Parser Unit := do
  r.form
  direction
  unless ← keywords? ["NULLS", "FIRST"] do discard (keywords? ["NULLS", "LAST"])
  after (keywords? ["WITH", "FILL"]) do
    after (keyword? "FROM") r.form
    after (keyword? "TO") r.form
    after (keyword? "STEP") r.form

/-- Expressions to order by. -/
def orderings (r : Rules) : Parser Unit := discard (commas r.ordering)

/-- Expressions to order by after their words, if these come next. -/
def orderings? (r : Rules) : Parser Unit := after (keywords? ["ORDER", "BY"]) r.orderings

/-! ## Queries -/

/-- Whether a query starts next. -/
def queryAhead : Parser Bool := return ["SELECT", "WITH"].contains (← keywordAhead 0)

/-! ## Parentheses -/

/-- A query in parentheses. -/
def subquery (r : Rules) : Parser Unit := parens r.query

/-- What stands in the parentheses of an operand: a query, an expression or several. -/
def bracketed (r : Rules) : Parser Surface := do
  if ← queryAhead then
    r.query
    return .other
  else
    match ← commas r.expression with
    | [e] => return .nested e
    | _ => return .other

end Rules

end SelectMerge.Expr
