import SelectMerge.Expr.Rules

/-!
# Options of columns

A column of a table type has options after its type (`columnOption?`), such as a default, a
generation (`generation?`) or a constraint with what it says of its check (`characteristics`). Their
expressions end before the words of the next option. Parentheses make those words ordinary again
only where they hold the whole expression (`optionForm`).
-/

namespace SelectMerge.Expr

namespace Rules

open Expr.Parser

/-! ## Listed options -/

/-- The bounds of partitions, after their word. -/
def partitionOption (r : Rules) : Parser Unit :=
  parens do
    discard name
    keyword "RANGE"
    discard (oneOf? ["LEFT", "RIGHT"])
    keywords ["FOR", "VALUES"]
    parens r.forms

/-- The index that orders a table, after its word. -/
def clusteredOption : Parser Unit := do
  if ← keywords? ["COLUMNSTORE", "INDEX"] then after (keyword? "ORDER") nameList
  else
    keyword "INDEX"
    discard <| parens <| commas do
      discard name
      direction

/-- An option in a list: a name and its value, or one of those with words of their own. -/
def listedOption (r : Rules) : Parser Unit := do
  match ← keywordAhead 0 with
  | "HEAP" => skip 1
  | "PARTITION" => do
    skip 1
    r.partitionOption
  | "CLUSTERED" => do
    skip 1
    clusteredOption
  | _ => r.setting

/-- A list of options after its word, if the word comes next; tells whether it did. -/
def listedOptions? (r : Rules) : Parser Bool :=
  after? (keyword? "OPTIONS") (discard (parens (commasBefore ")" r.listedOption)))

/-! ## Constraints -/

/-- What a constraint can say about its check. -/
inductive Characteristic where
  | deferrable
  | moment
  | enforced
deriving DecidableEq, Repr

/-- What a constraint says next about its check, if it was not said yet. -/
def characteristic? (said : List Characteristic) : Parser (Option Characteristic) := do
  unless said.contains .deferrable do
    if ← keyword? "DEFERRABLE" then return some .deferrable
    if ← keywords? ["NOT", "DEFERRABLE"] then return some .deferrable
  unless said.contains .moment do
    if ← keyword? "INITIALLY" then
      oneOf ["DEFERRED", "IMMEDIATE"]
      return some .moment
  unless said.contains .enforced do
    if ← keyword? "ENFORCED" then return some .enforced
    if ← keywords? ["NOT", "ENFORCED"] then return some .enforced
  return none

/-- What a constraint says about its check after what was said; `fuel` bounds how much. -/
def characteristicsWithin : Nat → List Characteristic → Parser Unit
  | 0, _ => return ()
  | fuel + 1, said => do
    match ← characteristic? said with
    | some c => characteristicsWithin fuel (c :: said)
    | none => return ()

/-- What a constraint says about its check, each of the three things once at most. -/
def characteristics : Parser Unit := characteristicsWithin 3 []

/-- What happens to rows that refer to a changed row. -/
def referentialAction : Parser Unit := do
  unless ← oneOf? ["RESTRICT", "CASCADE"] do
    unless ← keywords? ["NO", "ACTION"] do
      keyword "SET"
      oneOf ["NULL", "DEFAULT"]

/-- A reference to another table after its word. -/
def reference : Parser Unit := do
  discard qualifiedName
  nameList?
  let deleted ← after? (keywords? ["ON", "DELETE"]) referentialAction
  after (keywords? ["ON", "UPDATE"]) referentialAction
  unless deleted do after (keywords? ["ON", "DELETE"]) referentialAction
  characteristics

/-! ## Generated values -/

/-- How the numbers of a sequence go on. -/
def sequenceOptions : Parser Unit := do
  after (keyword? "INCREMENT") do
    discard (keyword? "BY")
    signedQuantity
  unless ← after? (keyword? "MINVALUE") signedQuantity do discard (keywords? ["NO", "MINVALUE"])
  unless ← after? (keyword? "MAXVALUE") signedQuantity do discard (keywords? ["NO", "MAXVALUE"])
  after (keyword? "START") do
    discard (keyword? "WITH")
    signedQuantity
  after (keyword? "CACHE") signedQuantity
  unless ← keywords? ["NO", "CYCLE"] do discard (keyword? "CYCLE")

/-- Whether a computed value is stored. -/
def storage : Parser Unit := discard (oneOf? ["STORED", "VIRTUAL"])

/-- How a value is generated, after its word; tells whether it says so. -/
def generation? (r : Rules) : Parser Bool := do
  let always ← keywords? ["ALWAYS", "AS", "IDENTITY"]
  let byDefault ← if always then pure false else keywords? ["BY", "DEFAULT", "AS", "IDENTITY"]
  if always || byDefault then
    if ← symbolAhead 0 "(" then parens sequenceOptions
    return true
  else if ← keywords? ["ALWAYS", "AS"] then
    if ← symbolAhead 0 "(" then
      parens (atPlace .ordinary r.form)
      storage
      return true
    else return false
  else return false

/-! ## Options -/

/-- The expression of an option, which ends with its parentheses if it starts with them. -/
def optionForm (r : Rules) : Parser Unit := do
  if ← symbolAhead 0 "(" then
    atPlace .ordinary do
      let e ← parens r.bracketed
      discard (collated e)
  else r.form

/-- A note on a column. -/
def note : Parser Unit := do
  match (← take).lexeme with
  | .quoted _ => return ()
  | .literal .tagged => return ()
  | _ => fail

/-- The words of an option of a column, if they come next; tells whether they do. -/
def columnOptionWords? (r : Rules) : Parser Bool := do
  match ← keywordAhead 0 with
  | "NULL" => keyword? "NULL"
  | "NOT" => keywords? ["NOT", "NULL"]
  | "ASC" => keyword? "ASC"
  | "DESC" => keyword? "DESC"
  | "AUTO_INCREMENT" => keyword? "AUTO_INCREMENT"
  | "AUTOINCREMENT" => keyword? "AUTOINCREMENT"
  | "DEFAULT" => after? (keyword? "DEFAULT") r.optionForm
  | "MATERIALIZED" => after? (keyword? "MATERIALIZED") r.optionForm
  | "ALIAS" => after? (keyword? "ALIAS") r.optionForm
  | "SRID" => after? (keyword? "SRID") r.optionForm
  | "CHARACTER" => after? (keywords? ["CHARACTER", "SET"]) (discard qualifiedName)
  | "COLLATE" => after? (keyword? "COLLATE") (discard qualifiedName)
  | "COMMENT" => after? (keyword? "COMMENT") note
  | "PRIMARY" => after? (keywords? ["PRIMARY", "KEY"]) characteristics
  | "UNIQUE" => after? (keyword? "UNIQUE") characteristics
  | "REFERENCES" => after? (keyword? "REFERENCES") reference
  | "CHECK" => after? (keyword? "CHECK") (parens (atPlace .ordinary r.form))
  | "OPTIONS" => r.listedOptions?
  | "EPHEMERAL" =>
    after? (keyword? "EPHEMERAL") do
      unless (← symbolAhead 0 ",") || (← symbolAhead 0 ")") do r.optionForm
  | "ON" =>
    if ← keywords? ["ON", "UPDATE"] then
      r.optionForm
      return true
    else
      after? (keywords? ["ON", "CONFLICT"]) do
        oneOf ["ROLLBACK", "ABORT", "FAIL", "IGNORE", "REPLACE"]
  | "GENERATED" => do
    skip 1
    r.generation?
  | "AS" =>
    after? (keyword? "AS") do
      parens r.form
      storage
  | "IDENTITY" =>
    after? (keyword? "IDENTITY") do
      if ← symbolAhead 0 "(" then
        parens do
          signedQuantity
          symbol ","
          signedQuantity
  | _ => return false

/-- An option of a column, if one comes next; tells whether it does. A named constraint must say
what it demands. -/
def columnOption? (r : Rules) : Parser Bool := do
  let constraint ← keyword? "CONSTRAINT"
  if constraint then discard name
  let found ← atPlace .columnOption r.columnOptionWords?
  if constraint && !found then fail
  return found

end Rules

end SelectMerge.Expr
