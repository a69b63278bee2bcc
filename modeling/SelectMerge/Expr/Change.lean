import SelectMerge.Expr.Selection

/-!
# Changes of tables

Where a query can stand, a change of a table can stand too (`change?`): rows are inserted
(`insertion`), updated (`update`), deleted (`deletion`) or merged (`merge`), and the changed rows
may be returned (`returned`). Only the extent of a change matters, so nothing is kept of it.
-/

namespace SelectMerge.Expr

namespace Rules

open Expr.Parser

/-! ## Parts of changes -/

/-- A new value for a column, or for several at once. -/
def assignment (r : Rules) : Parser Unit := do
  oneOrList (discard qualifiedName)
  symbol "="
  r.form

/-- New values, with commas between. -/
def assignments (r : Rules) : Parser Unit := discard (commas r.assignment)

/-- What happens to rows that violate a constraint, before the rest of a change. -/
def violation : Parser Unit := do
  let actions := ["REPLACE", "ROLLBACK", "ABORT", "FAIL", "IGNORE"]
  if (← keywordAhead 0) == "OR" && actions.contains (← keywordAhead 1) then skip 2
  else discard (keyword? "REPLACE")

/-- The items of changed rows that are returned. -/
def returned (r : Rules) : Parser Unit := after (keyword? "RETURNING") r.items

/-! ## Insertions -/

/-- The formats of files that rows are written to. -/
def fileFormats : List String :=
  ["AVRO", "JSONFILE", "ORC", "PARQUET", "RCFILE", "SEQUENCEFILE", "TEXTFILE"]

/-- The rows that are inserted. -/
def inserted (r : Rules) : Parser Unit := do
  unless ← keywords? ["DEFAULT", "VALUES"] do
    unless (← symbolAhead 0 "(") && (← keywordAhead 1) == "SELECT" do
      nameList?
      after (keyword? "PARTITION") (parens r.forms)
    unless ["FORMAT", "SETTINGS"].contains (← keywordAhead 0) do r.query

/-- What happens to rows that are there already, after its word. -/
def conflict (r : Rules) : Parser Unit := do
  if ← keyword? "CONFLICT" then
    unless ← after? (keywords? ["ON", "CONSTRAINT"]) (discard qualifiedName) do nameList?
    keyword "DO"
    unless ← keyword? "NOTHING" do
      keywords ["UPDATE", "SET"]
      r.assignments
      after (keyword? "WHERE") r.form
  else
    keywords ["DUPLICATE", "KEY", "UPDATE"]
    r.assignments

/-- An insertion after its word. -/
def insertion (r : Rules) : Parser Unit := do
  violation
  discard (oneOf? ["LOW_PRIORITY", "DELAYED", "HIGH_PRIORITY"])
  discard (keyword? "IGNORE")
  discard (keyword? "OVERWRITE")
  discard (keyword? "INTO")
  discard (keyword? "LOCAL")
  if ← keyword? "DIRECTORY" then
    text
    after (keywords? ["STORED", "AS"]) (oneOf fileFormats)
    r.query
  else
    discard (keyword? "TABLE")
    discard qualifiedName
    r.inserted
    after (keyword? "AS") do
      discard qualifiedName
      nameList?
    after (keyword? "ON") r.conflict
    r.returned

/-! ## Updates and deletions -/

/-- An update after its word. -/
def update (r : Rules) : Parser Unit := do
  violation
  r.joinedTable
  let sourced ← after? (keyword? "FROM") r.tables
  keyword "SET"
  r.assignments
  unless sourced do after (keyword? "FROM") r.tables
  after (keyword? "WHERE") r.form
  r.returned
  after (keyword? "LIMIT") r.form

/-- A deletion after its word. -/
def deletion (r : Rules) : Parser Unit := do
  discard (keyword? "FROM")
  r.tables
  after (keyword? "USING") r.tables
  after (keyword? "WHERE") r.form
  r.returned
  r.orderings?
  after (keyword? "LIMIT") do
    unless ← keyword? "ALL" do r.form

/-! ## Merges -/

/-- What happens to the rows of one side, after its word. Rows without a match in the table can only
be inserted, all others cannot. -/
def mergeClause (r : Rules) : Parser Unit := do
  let unmatched ← keyword? "NOT"
  keyword "MATCHED"
  let orphaned ← if unmatched then keywords? ["BY", "SOURCE"] else pure false
  if unmatched && !orphaned then discard (keywords? ["BY", "TARGET"])
  after (keyword? "AND") r.form
  keyword "THEN"
  if unmatched && !orphaned then
    keyword "INSERT"
    nameList?
    unless ← keyword? "ROW" do
      keyword "VALUES"
      r.rows
  else
    unless ← keyword? "DELETE" do
      keywords ["UPDATE", "SET"]
      r.assignments

/-- A merge after its word. -/
def merge (r : Rules) : Parser Unit := do
  discard (keyword? "INTO")
  r.table
  keyword "USING"
  r.table
  keyword "ON"
  r.form
  whileGoing (after? (keyword? "WHEN") r.mergeClause)
  unless ← after? (keyword? "RETURNING") r.projection do
    after (keyword? "OUTPUT") do
      r.projection
      after (keyword? "INTO") target

/-! ## All changes -/

/-- A change, if one comes next; tells whether it does. -/
def change? (r : Rules) : Parser Bool := do
  match ← keywordAhead 0 with
  | "INSERT" => after? (keyword? "INSERT") r.insertion
  | "UPDATE" => after? (keyword? "UPDATE") r.update
  | "DELETE" => after? (keyword? "DELETE") r.deletion
  | "MERGE" => after? (keyword? "MERGE") r.merge
  | _ => return false

end Rules

end SelectMerge.Expr
