import SelectMerge.Expr.Rules

/-!
# Spans of time

A `span` of time is an operand with its unit (`unit?`); the unit may have a precision, and a finer
unit may end it.
-/

namespace SelectMerge.Expr

namespace TimeSpan

open Expr.Parser

/-- A part of a date, which may also be any other name or a text. -/
def datePart : Parser Unit := do
  let week := (← keywordAhead 0) == "WEEK"
  discard name
  if week then
    if ← symbolAhead 0 "(" then discard (parens name)

/-- The words that name a unit of time. -/
def timeUnits : List String :=
  ["YEAR", "YEARS", "MONTH", "MONTHS", "WEEK", "WEEKS", "DAY", "DAYS", "HOUR", "HOURS", "MINUTE",
    "MINUTES", "SECOND", "SECONDS", "CENTURY", "DECADE", "DOW", "DOY", "EPOCH", "ISODOW",
    "ISOYEAR", "JULIAN", "MICROSECOND", "MICROSECONDS", "MILLENIUM", "MILLENNIUM", "MILLISECOND",
    "MILLISECONDS", "NANOSECOND", "NANOSECONDS", "QUARTER", "TIMEZONE", "TIMEZONE_HOUR",
    "TIMEZONE_MINUTE"]

/-- An optional precision with an optional second one. -/
def precisions? : Parser Unit := do
  if ← symbolAhead 0 "(" then
    parens do
      count
      after (symbol? ",") count

/-- The unit of a span, if it has one. -/
def unit? : Parser Unit := do
  let unit ← keywordAhead 0
  if timeUnits.contains unit then datePart
  if unit == "SECOND" then precisions?
  else
    precision?
    after (keyword? "TO") do
      let last ← keywordAhead 0
      datePart
      if last == "SECOND" then precision?

/-- A span of time after its word. -/
def span (operand : Parser Surface) : Parser Unit := do
  discard operand
  unit?

end TimeSpan

end SelectMerge.Expr
