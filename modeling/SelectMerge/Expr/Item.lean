import SelectMerge.Expr.Alias
import SelectMerge.Expr.Call

/-!
# Selected items

A query selects `items`: expressions, which may have aliases, and all columns of one table or of
all, which may leave out, replace or rename some (`columnsExcept`).
-/

namespace SelectMerge.Expr

namespace Rules

open Expr.Parser

/-! ## All columns -/

/-- A name for a name. -/
def renamed : Parser Unit := do
  discard name
  keyword "AS"
  discard name

/-- One of something, or several in parentheses. -/
def oneOrList (p : Parser Unit) : Parser Unit := do
  if ← symbolAhead 0 "(" then discard (parens (commas p)) else p

/-- What is left out of all columns, or done to them. -/
def columnsExcept (r : Rules) : Parser Unit := do
  unless ← after? (keyword? "ILIKE") quotedText do
    after (keyword? "EXCLUDE") (oneOrList (discard name))
  after (keyword? "EXCEPT") (oneOrList (discard name))
  after (keyword? "REPLACE") <| discard <| parens <| commas do
    r.form
    discard (keyword? "AS")
    discard name
  after (keyword? "RENAME") (oneOrList renamed)

/-! ## Items -/

/-- An item to select. -/
def item (r : Rules) : Parser Unit := do
  match ← r.starred with
  | .wildcard => r.columnsExcept
  | .otherArgument => r.columnsExcept
  | .name ⟨text, none⟩ => if text.toLower == "from" then fail else columnAlias?
  | _ => columnAlias?

/-- Items to select, with commas between. -/
def items (r : Rules) : Parser Unit := discard (commas r.item)

/-- Whether items to select end here although a comma was read. -/
def itemsEnd : Parser Bool := do
  match ← ahead 0 with
  | none => return true
  | some (.word _ _ k) => return columnReserved.contains k
  | some (.symbol s) => return [")", ";", "]", "\x7d"].contains s
  | _ => return false

/-- Items to select; a comma may stand before the end. -/
def projection (r : Rules) : Parser Unit :=
  whileGoing do
    r.item
    if ← symbol? "," then return !(← itemsEnd) else return false

end Rules

end SelectMerge.Expr
