import SelectMerge.Expr.Form

/-!
# Operands

An operand (`operand`) is an expression without operators: a literal, a name, a call, a form or
something in brackets. Points and subscripts after it select from it (`select`); names with points
between make a path, and a path that ends in a call is the name of the call. A word whose form fails
is tried as a name, unless it is one of `firmWords`.
-/

namespace SelectMerge.Expr

namespace Rules

open Expr.Parser

/-! ## Words -/

/-- A literal after its data type, or an interval. -/
def typedLiteral (r : Rules) (operand : Parser Surface) : Parser Unit := do
  match ← r.dataType with
  | .interval => TimeSpan.span operand
  | .custom => fail
  | .builtin => discard value

/-- A word without a form of its own: the name of a call, the character set of a text, or a name. -/
def plainWord (r : Rules) (n : Name) : Parser Surface := do
  match ← ahead 0 with
  | some (.symbol "(") => r.call [n]
  | some (.quoted _) => introduced
  | some (.literal .hexadecimal) => introduced
  | _ => return .name n
where
  introduced : Parser Surface := do
    if n.text.startsWith "_" then
      skip 1
      return .other
    else return .name n

/-- The words that are no names where their form fails. -/
def firmWords : List String := ["EXISTS", "INTERVAL", "STRUCT", "TRIM"]

/-- An operand that a word starts, which was read. Where its form fails the word is a name. -/
def word (r : Rules) (operand : Parser Surface) (n : Name) (k : String) : Parser Surface := do
  match ← attempt (r.wordForm operand n k) with
  | .ok (some e) => collated e
  | .ok none => collated (← r.plainWord n)
  | .error e =>
    if firmWords.contains k then throw e
    match ← attempt (r.plainWord n) with
    | .ok x => return x
    | .error _ => throw e

/-! ## Braces -/

/-- A literal in braces, after its letters. -/
def letteredLiteral : Parser Unit := do
  match (← take).lexeme with
  | .word text none _ =>
    unless ["t", "d", "ts"].contains text do fail
    discard value
  | _ => fail

/-- What stands in braces, after the opening one: a call, a literal or a dictionary. -/
def braced (r : Rules) : Parser Surface := do
  let call ← maybe do
    keyword "FN"
    r.call (← qualifiedName)
  match call with
  | some e =>
    symbol "\x7d"
    return e
  | none =>
    unless (← maybe letteredLiteral).isSome do
      discard <| commasBefore "\x7d" do
        discard name
        symbol ":"
        r.form
    symbol "\x7d"
    return .other

/-! ## Operands -/

/-- An operand that is neither a typed literal nor a word, after its first token. -/
def otherOperand (r : Rules) : Lexeme → Parser Surface
  | .number digits _ => return .literal digits
  | .quoted text => return .literal text
  | .literal _ => return .otherLiteral
  | .placeholder text => return .placeholder text
  | .symbol "-" => do return .signed true (← r.bound 40)
  | .symbol "+" => do return .signed false (← r.bound 40)
  | .symbol "(" => do
    let e ← r.bracketed
    symbol ")"
    return e
  | .symbol "[" => do
    r.array
    return .other
  | .symbol "\x7b" => r.braced
  | _ => fail

/-- An operand without what selects from it; `fuel` bounds how many intervals lie inside each
other. -/
def operandWithin (r : Rules) : Nat → Parser Surface
  | 0 => fail
  | fuel + 1 => do
    let operand := operandWithin r fuel
    if (← maybe (r.typedLiteral operand)).isSome then return .other
    match ← ahead 0 with
    | some (.word text quote k) => do
      skip 1
      r.word operand ⟨text, quote⟩ k
    | some (.symbol ":") => do collated (← value)
    | some (.symbol "@") => do collated (← value)
    | some x => do
      skip 1
      collated (← r.otherOperand x)
    | none => fail

/-- An operand without what selects from it. -/
def operand (r : Rules) : Parser Surface := do r.operandWithin ((← get).length + 1)

/-- A subscript after its bracket: an index, or up to three bounds. -/
def subscript (r : Rules) : Parser Unit := do
  let lower ← symbol? ":"
  unless lower do r.form
  unless ← symbol? "]" do
    unless lower do symbol ":"
    unless ← symbol? "]" do
      r.form
      unless ← symbol? "]" do
        symbol ":"
        unless ← symbol? "]" do
          r.form
          symbol "]"

/-- What selects from an operand; `fuel` bounds the number of steps. A point before a star stays. -/
def selectorsWithin (r : Rules) : Nat → Parser (List Surface)
  | 0 => fail
  | fuel + 1 => do
    if ← symbolAhead 0 "." then
      match ← ahead 1 with
      | some (.symbol "*") => return []
      | some (.quoted text) =>
        skip 2
        return .name ⟨text, some '\''⟩ :: (← selectorsWithin r fuel)
      | _ =>
        skip 1
        match ← r.bound 100 with
        | .path ns => return ns.map .name ++ (← selectorsWithin r fuel)
        | e => return e :: (← selectorsWithin r fuel)
    else if ← symbol? "[" then
      r.subscript
      return .other :: (← selectorsWithin r fuel)
    else return []

/-- A name that selects, as a part of a path. -/
def name? : Surface → Option Name
  | .name n => some n
  | _ => none

/-- An operand with what selects from it. -/
def select (root : Surface) (selectors : List Surface) : Surface :=
  match selectors.getLast? with
  | none => root
  | some last =>
    match (root :: selectors.dropLast).mapM name? with
    | none => .other
    | some ns =>
      match last with
      | .name n => .path (ns ++ [n])
      | .call names args => .call (ns ++ names) args
      | .callOfQuery => .callOfQuery
      | _ => .other

end Rules

end SelectMerge.Expr
