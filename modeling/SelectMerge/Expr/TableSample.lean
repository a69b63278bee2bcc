import SelectMerge.Expr.Rules

/-!
# Samples of tables

A `sample` takes some of a table's rows: a number or a share of them, or one of equal buckets
(`bucket`).
-/

namespace SelectMerge.Expr

namespace Rules

open Expr.Parser

/-- A bucket and the number of all, after its word. -/
def bucket (r : Rules) : Parser Unit := do
  quantity
  keywords ["OUT", "OF"]
  quantity
  after (keyword? "ON") r.form

/-- How many rows a sample has; a word may stand for a number of bytes. -/
def sampleSize (r : Rules) : Parser Unit := do
  unless (← maybe r.expression).isSome do
    unless (← take).lexeme.isWord do fail
  discard (oneOf? ["ROWS", "PERCENT"])

/-- A sample after its word. -/
def sample (r : Rules) : Parser Unit := do
  discard (oneOf? ["BERNOULLI", "ROW", "SYSTEM", "BLOCK"])
  if ← symbolAhead 0 "(" then
    parens do
      if ← keyword? "BUCKET" then r.bucket else r.sampleSize
  else r.sampleSize
  after (oneOf? ["REPEATABLE", "SEED"]) (parens quantity)
  after (keyword? "OFFSET") r.form

/-- A sample, if one comes next. -/
def sample? (r : Rules) : Parser Unit := after (oneOf? ["TABLESAMPLE", "SAMPLE"]) r.sample

end Rules

end SelectMerge.Expr
