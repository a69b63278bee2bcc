import SelectMerge.Expr.DataType

/-!
# Aliases

A name after a column (`columnAlias?`) or a table (`tableAlias?`) is its alias. Without the word
that announces it, a word that can start the next clause is no alias: `columnReserved` and
`tableReserved` list these words.
-/

namespace SelectMerge.Expr

namespace Rules

open Expr.Parser

/-- The words that are no alias of a column. -/
def columnReserved : List String :=
  ["WITH", "EXPLAIN", "ANALYZE", "SELECT", "WHERE", "GROUP", "SORT", "HAVING", "ORDER", "TOP",
    "LATERAL", "VIEW", "LIMIT", "OFFSET", "FETCH", "UNION", "EXCEPT", "EXCLUDE", "INTERSECT",
    "MINUS", "CLUSTER", "DISTRIBUTE", "RETURNING", "FROM", "INTO", "END"]

/-- The words that are no alias of a table. -/
def tableReserved : List String :=
  ["WITH", "EXPLAIN", "ANALYZE", "SELECT", "WHERE", "GROUP", "SORT", "HAVING", "ORDER", "PIVOT",
    "UNPIVOT", "TOP", "LATERAL", "VIEW", "LIMIT", "OFFSET", "FETCH", "UNION", "EXCEPT", "INTERSECT",
    "MINUS", "ON", "JOIN", "INNER", "CROSS", "FULL", "LEFT", "RIGHT", "NATURAL", "USING", "CLUSTER",
    "DISTRIBUTE", "GLOBAL", "ANTI", "SEMI", "RETURNING", "ASOF", "MATCH_CONDITION", "OUTER", "SET",
    "QUALIFY", "WINDOW", "END", "FOR", "PARTITION", "PREWHERE", "SETTINGS", "FORMAT", "START",
    "CONNECT", "MATCH_RECOGNIZE", "SAMPLE", "TABLESAMPLE", "FROM", "OPEN"]

/-- An optional alias that is none of the words unless announced; tells whether there was one. -/
def alias? (reserved : List String) : Parser Bool := do
  let announced ← keyword? "AS"
  let named ←
    match ← ahead 0 with
    | some (.word _ _ k) => pure (announced || !reserved.contains k)
    | some (.quoted _) => pure true
    | _ => pure false
  if named then skip 1
  else if announced then fail
  return named

/-- An optional alias of a column. -/
def columnAlias? : Parser Unit := discard (alias? columnReserved)

/-- An optional list of columns in parentheses, each with an optional type. -/
def aliasColumns? (r : Rules) : Parser Unit := do
  if ← symbolAhead 0 "(" then
    discard <| parens <| commas do
      discard name
      discard (maybe r.dataType)

/-- An optional alias of a table, with optional columns; tells whether there was one. -/
def tableAlias? (r : Rules) : Parser Bool := after? (alias? tableReserved) r.aliasColumns?

end Rules

end SelectMerge.Expr
