import SelectMerge.Expr.Pivot
import SelectMerge.Expr.RowPattern
import SelectMerge.Expr.TableCall
import SelectMerge.Expr.TableSample

/-!
# Tables

A query takes its rows from `tables`: named ones, calls, queries and values, each with an optional
alias, and tables joined with others (`joins`). Parentheses around a single table take no second
alias, so `TableKind` remembers what a table is to them.
-/

namespace SelectMerge.Expr

/-- What a table is to parentheses around it. -/
inductive TableKind where
  /-- Tables joined in parentheses. -/
  | joined
  | aliased
  | plain
deriving DecidableEq, Repr

namespace Rules

open Expr.Parser

/-! ## Joins -/

/-- An optional condition of a join. -/
def joinCondition? (r : Rules) : Parser Unit := do
  unless ← after? (keyword? "ON") r.form do
    after (keyword? "USING") (discard (parens (commas qualifiedName)))

/-- The words of a join that takes a condition, if they come next; tells whether they do. -/
def joinWords? : Parser Bool := do
  match ← keywordAhead 0 with
  | "JOIN" => keyword? "JOIN"
  | "INNER" => after? (keyword? "INNER") (keyword "JOIN")
  | "LEFT" => sided
  | "RIGHT" => sided
  | "FULL" => do
    skip 1
    discard (keyword? "OUTER")
    keyword "JOIN"
    return true
  | "ANTI" => after? (keyword? "ANTI") (keyword "JOIN")
  | "SEMI" => after? (keyword? "SEMI") (keyword "JOIN")
  | "STRAIGHT_JOIN" => keyword? "STRAIGHT_JOIN"
  | _ => return false
where
  sided : Parser Bool := do
    skip 1
    discard (oneOf? ["OUTER", "SEMI", "ANTI"])
    keyword "JOIN"
    return true

/-- A join with another table, if one comes next; tells whether it does. -/
def join? (r : Rules) (table : Parser Unit) : Parser Bool := do
  discard (keyword? "GLOBAL")
  if ← keyword? "CROSS" then
    oneOf ["JOIN", "APPLY"]
    table
    return true
  else if ← keyword? "OUTER" then
    keyword "APPLY"
    table
    return true
  else if ← keyword? "ASOF" then
    keyword "JOIN"
    table
    keyword "MATCH_CONDITION"
    parens r.form
    r.joinCondition?
    return true
  else
    let natural ← keyword? "NATURAL"
    if ← joinWords? then
      table
      unless natural do r.joinCondition?
      return true
    else if natural then fail
    else return false

/-- Joins with other tables, as many as come next; tells how many, and `fuel` bounds their
number. -/
def joinsWithin (r : Rules) (table : Parser Unit) : Nat → Parser Nat
  | 0 => fail
  | fuel + 1 => do
    if ← r.join? table then return (← joinsWithin r table fuel) + 1 else return 0

/-! ## Single tables -/

/-- An optional alias of a table, after which the table is complete. -/
def aliased (found : Parser Bool) : Parser TableKind := do
  if ← found then return .aliased else return .plain

/-- How a table is turned, as often as is said; `fuel` bounds how often. -/
def turnedWithin (r : Rules) : Nat → TableKind → Parser TableKind
  | 0, _ => fail
  | fuel + 1, kind => do
    if ← keyword? "PIVOT" then turnedWithin r fuel (← aliased r.pivot)
    else if ← keyword? "UNPIVOT" then turnedWithin r fuel (← aliased r.unpivot)
    else return kind

/-- How a table is turned, as often as is said. -/
def turned (r : Rules) (kind : TableKind) : Parser TableKind := do
  r.turnedWithin ((← get).length + 1) kind

/-- A query as a table, after the opening parenthesis. -/
def queryTable (r : Rules) : Parser TableKind := do
  r.query
  symbol ")"
  aliased r.tableAlias?

/-- What stands in parentheses among tables, after the opening one: a query, tables that are joined,
or a single table, which has one alias at most, inside or outside. -/
def bracketedTable (r : Rules) (table : Parser TableKind) : Parser TableKind := do
  match ← maybe r.queryTable with
  | some kind => r.turned kind
  | none =>
    let kind ← table
    let joins ← r.joinsWithin (discard table) ((← get).length + 1)
    symbol ")"
    let outer ← r.tableAlias?
    if 0 < joins || kind == .joined then return .joined
    else if kind == .aliased && outer then fail
    else if outer then return .aliased
    else return kind

/-- The elements of an array as a table, after their word. -/
def elementTable (r : Rules) : Parser TableKind := do
  parens r.forms
  discard (keywords? ["WITH", "ORDINALITY"])
  let kind ← aliased r.tableAlias?
  after (keyword? "WITH") <| after (keyword? "OFFSET") columnAlias?
  return kind

/-- A named table or a call that makes one, with what is said about it. -/
def namedTable (r : Rules) : Parser TableKind := do
  discard qualifiedName
  after (keyword? "PARTITION") (discard (parens (commasBefore ")" name)))
  after (symbol? "(") r.tableArguments
  discard (keywords? ["WITH", "ORDINALITY"])
  let kind ← aliased r.tableAlias?
  if (← keywordAhead 0) == "WITH" && (← symbolAhead 1 "(") then
    skip 1
    parens r.forms
  r.sample?
  let kind ← r.turned kind
  if ← keyword? "MATCH_RECOGNIZE" then aliased r.rowMatch else return kind

/-- A table; `fuel` bounds how deep tables lie inside each other. -/
def tableWithin (r : Rules) : Nat → Parser TableKind
  | 0 => fail
  | fuel + 1 => do
    let called := ← symbolAhead 1 "("
    let k ← keywordAhead 0
    if ← keyword? "LATERAL" then
      if ← symbol? "(" then r.queryTable
      else
        discard qualifiedName
        symbol "("
        r.plainArguments
        aliased r.tableAlias?
    else if ← keyword? "TABLE" then
      parens r.form
      aliased r.tableAlias?
    else if ← symbol? "(" then r.bracketedTable (tableWithin r fuel)
    else if k == "VALUES" && called then
      skip 1
      r.rows
      aliased r.tableAlias?
    else if ← keyword? "UNNEST" then r.elementTable
    else if k == "JSON_TABLE" && called then
      skip 1
      r.documentTable
      aliased r.tableAlias?
    else if k == "OPENJSON" && called then
      skip 1
      r.openedTable
      aliased r.tableAlias?
    else if k == "XMLTABLE" && called then
      skip 1
      r.markupTable
      aliased r.tableAlias?
    else r.namedTable

/-- A table. -/
def table (r : Rules) : Parser Unit := do discard (r.tableWithin ((← get).length + 1))

/-- Joins with other tables; tells how many. -/
def joins (r : Rules) : Parser Nat := do r.joinsWithin r.table ((← get).length + 1)

/-- A table with what it is joined with. -/
def joinedTable (r : Rules) : Parser Unit := do
  r.table
  discard r.joins

/-- Tables with commas between. -/
def tables (r : Rules) : Parser Unit := discard (commas r.joinedTable)

end Rules

end SelectMerge.Expr
