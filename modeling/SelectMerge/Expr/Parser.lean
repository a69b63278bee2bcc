import SelectMerge.Expr.Keyword
import SelectMerge.Expr.Surface
import SelectMerge.Expr.Token

/-!
# Parsers over tokens

A `Parser` reads from the front of the remaining tokens or fails. A trial takes back what it read
when it fails (`maybe`), except that nesting too deep is never tried away. A few words mean
something in one place only, so a parser also knows where it stands (`Place`, `atPlace`). The
combinators here are all that the grammar is written with: words and symbols that come next or not
(`keyword?`, `symbol?`), lists with commas (`commas`), parentheses (`parens`), names and texts.
-/

namespace SelectMerge.Expr

/-- Where an expression stands, as far as its words depend on it. -/
inductive Place where
  | ordinary
  /-- In the options of a column, whose words may follow an expression. -/
  | columnOption
  /-- In a condition that relates rows to earlier ones. -/
  | hierarchy
deriving DecidableEq, Repr

/-- A parser: from the place and the remaining tokens to a result and the tokens that still
remain. -/
abbrev Parser := ReaderT Place (StateT (List Token) (Except ExpressionFault))

namespace Parser

variable {α : Type}

/-! ## Looking ahead -/

def fail : Parser α := throw .malformed

/-- The lexeme of a token that is still to come. -/
def ahead (n : Nat) : Parser (Option Lexeme) := return (← get)[n]?.map (·.lexeme)

/-- The keyword at a token that is still to come; empty if there is none. -/
def keywordAhead (n : Nat) : Parser String := return ((← ahead n).map Lexeme.keyword).getD ""

/-- Whether a token that is still to come is a symbol. -/
def symbolAhead (n : Nat) (s : String) : Parser Bool := return (← ahead n) == some (.symbol s)

/-! ## Single tokens -/

def skip (n : Nat) : Parser Unit := modify (List.drop n)

/-- The next token. -/
def take : Parser Token := do
  match ← get with
  | [] => fail
  | t :: ts =>
    set ts
    return t

/-- Skips a keyword, if it comes next. -/
def keyword? (k : String) : Parser Bool := do
  if (← keywordAhead 0) == k then
    skip 1
    return true
  else return false

/-- Skips keywords, if all of them come next. -/
def keywords? (ks : List String) : Parser Bool := do
  if ((← get).take ks.length).map (·.lexeme.keyword) == ks then
    skip ks.length
    return true
  else return false

/-- Skips one of the keywords, if one comes next. -/
def oneOf? (ks : List String) : Parser Bool := do
  if ks.contains (← keywordAhead 0) then
    skip 1
    return true
  else return false

/-- Skips a symbol, if it comes next. -/
def symbol? (s : String) : Parser Bool := do
  if ← symbolAhead 0 s then
    skip 1
    return true
  else return false

/-- Skips what must come next. -/
def require (found : Parser Bool) : Parser Unit := do
  unless ← found do fail

def keyword (k : String) : Parser Unit := require (keyword? k)
def keywords (ks : List String) : Parser Unit := require (keywords? ks)
def oneOf (ks : List String) : Parser Unit := require (oneOf? ks)
def symbol (s : String) : Parser Unit := require (symbol? s)

/-! ## Combinators -/

/-- Runs a parser at a place. -/
def atPlace (place : Place) (p : Parser α) : Parser α := fun _ => p place

/-- Tries a parser; the tokens stay when it fails. -/
def maybe (p : Parser α) : Parser (Option α) := fun place ts =>
  match p place ts with
  | .ok (a, rest) => .ok (some a, rest)
  | .error .tooDeep => .error .tooDeep
  | .error _ => .ok (none, ts)

/-- Runs a parser if what announces it comes next; tells whether it did. -/
def after? (announced : Parser Bool) (p : Parser Unit) : Parser Bool := do
  if ← announced then
    p
    return true
  else return false

/-- Runs a parser if what announces it comes next. -/
def after (announced : Parser Bool) (p : Parser Unit) : Parser Unit := discard (after? announced p)

/-- Runs a parser and tells how it ended; the tokens stay when it fails. -/
def attempt (p : Parser α) : Parser (Except ExpressionFault α) := fun place ts =>
  match p place ts with
  | .ok (a, rest) => .ok (.ok a, rest)
  | .error e => .ok (.error e, ts)

/-- Items with commas between; `fuel` bounds their number. -/
def commasWithin (p : Parser α) : Nat → Parser (List α)
  | 0 => fail
  | fuel + 1 => do
    let x ← p
    if ← symbol? "," then return x :: (← commasWithin p fuel) else return [x]

/-- Items with commas between, at least one. -/
def commas (p : Parser α) : Parser (List α) := do commasWithin p ((← get).length + 1)

/-- Items with commas between, or none before the closing symbol. -/
def commasBefore (close : String) (p : Parser α) : Parser (List α) := do
  if ← symbolAhead 0 close then return [] else commas p

/-- Runs a parser as long as it goes on; `fuel` bounds how often. -/
def whileWithin (goesOn : Parser Bool) : Nat → Parser Unit
  | 0 => fail
  | fuel + 1 => do
    if ← goesOn then whileWithin goesOn fuel

/-- Runs a parser as long as it goes on. -/
def whileGoing (goesOn : Parser Bool) : Parser Unit := do whileWithin goesOn ((← get).length + 1)

/-- What stands in parentheses. -/
def parens (p : Parser α) : Parser α := do
  symbol "("
  let x ← p
  symbol ")"
  return x

/-! ## Names and values -/

/-- A name, which may also stand in single quotes. -/
def name : Parser Name := do
  match (← take).lexeme with
  | .word text quote _ => return ⟨text, quote⟩
  | .quoted text => return ⟨text, some '\''⟩
  | _ => fail

/-- Names with points between; `fuel` bounds their number. -/
def namesWithin : Nat → Parser (List Name)
  | 0 => fail
  | fuel + 1 => do
    let n ← name
    if ← symbol? "." then return n :: (← namesWithin fuel) else return [n]

/-- Names with points between. -/
def qualifiedName : Parser (List Name) := do namesWithin ((← get).length + 1)

/-- A literal, truth value or placeholder. -/
def value : Parser Surface := do
  match (← take).lexeme with
  | .word _ (some q) _ => if q = '"' then return .otherLiteral else fail
  | .word _ none "TRUE" => return .literal "true"
  | .word _ none "FALSE" => return .literal "false"
  | .word _ none "NULL" => return .otherLiteral
  | .word .. => fail
  | .number digits _ => return .literal digits
  | .quoted text => return .literal text
  | .literal _ => return .otherLiteral
  | .placeholder text => return .placeholder text
  | .symbol mark =>
    unless mark == ":" || mark == "@" do fail
    match ← take with
    | ⟨.word text .., false⟩ => return .placeholder (mark ++ text)
    | ⟨.number digits false, false⟩ => return .placeholder (mark ++ digits)
    | _ => fail

/-- A whole number without a sign, below a bound. -/
def countBelow (bound : Nat) : Parser Unit := do
  match (← take).lexeme with
  | .number digits _ =>
    match digits.toNat? with
    | some n => if n < bound then return () else fail
    | none => fail
  | _ => fail

/-- A whole number without a sign, within 64 bits. -/
def count : Parser Unit := countBelow UInt64.size

/-- An optional whole number in parentheses. -/
def precision? : Parser Unit := do
  if ← symbolAhead 0 "(" then parens count

/-- A number or a placeholder. -/
def quantity : Parser Unit := do
  let first ← ahead 0
  discard value
  match first with
  | some (.number ..) => return ()
  | some (.placeholder _) => return ()
  | some (.symbol _) => return ()
  | _ => fail

/-- A number or a placeholder, with an optional sign. -/
def signedQuantity : Parser Unit := do
  unless ← symbol? "+" do discard (symbol? "-")
  quantity

/-- A text in single quotes. -/
def quotedText : Parser Unit := do
  match (← take).lexeme with
  | .quoted _ => return ()
  | _ => fail

/-- A text: in single quotes, with escapes, or a word that is no keyword. -/
def text : Parser Unit := do
  match (← take).lexeme with
  | .quoted _ => return ()
  | .literal .escaped => return ()
  | .literal .unicode => return ()
  | .word _ _ k => if isKeyword k then fail
  | _ => fail

/-- Names with commas between, in parentheses. -/
def nameList : Parser Unit := discard (parens (commas name))

/-- Optional names with commas between, in parentheses. -/
def nameList? : Parser Unit := do
  if ← symbolAhead 0 "(" then nameList

/-- A name after its word, if the word comes next. -/
def named? (k : String) : Parser Unit := after (keyword? k) (discard name)

end Parser

end SelectMerge.Expr
