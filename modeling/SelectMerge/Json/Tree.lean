import SelectMerge.Json.Number

/-!
# JSON text

`JsonTree.read?` recognises JSON and keeps a text as written: fields in their order with their
repeats, numbers by their digits. What limits a document comes afterwards, in `JsonTree.doc?`:
numbers have to be finite, escapes have to name characters, and lists and objects nest to a given
depth. Parts of a text that nobody asks for are held to the grammar alone. `Json.read?` is both,
with `Json.depthLimit` for the depth.

The readers `value?`, `items?` and `members?` recurse on a number of steps, of which `read?` gives
them more than the text has characters.
-/

namespace SelectMerge

/-- A JSON text as written. A string is missing when its escapes name a lone surrogate. -/
inductive JsonTree where
  | null
  | bool (b : Bool)
  | number (x : JsonNumber)
  | text (s : Option String)
  | list (items : List JsonTree)
  | object (members : List (Option String × JsonTree))
deriving Repr, Inhabited

/-- How deep lists and objects nest in a text that is read whole. -/
def Json.depthLimit : Nat := 127

namespace JsonTree

/-! ## Strings -/

/-- A character of a string: as it stands, or a 16-bit unit given by its number. -/
inductive Piece where
  | char (c : Char)
  | unit (n : Nat)
deriving DecidableEq, Repr

/-- The value of a hexadecimal digit. -/
def hexValue? (c : Char) : Option Nat :=
  if '0' ≤ c ∧ c ≤ '9' then some (c.toNat - '0'.toNat)
  else if 'a' ≤ c ∧ c ≤ 'f' then some (c.toNat - 'a'.toNat + 10)
  else if 'A' ≤ c ∧ c ≤ 'F' then some (c.toNat - 'A'.toNat + 10)
  else none

/-- The value of four hexadecimal digits. -/
def unit? (a b c d : Char) : Option Nat := do
  return (((← hexValue? a) * 16 + (← hexValue? b)) * 16 + (← hexValue? c)) * 16 + (← hexValue? d)

/-- The character that a one-letter escape names. -/
def escaped? : Char → Option Char
  | '"' => some '"'
  | '\\' => some '\\'
  | '/' => some '/'
  | 'b' => some '\x08'
  | 'f' => some '\x0c'
  | 'n' => some '\n'
  | 'r' => some '\r'
  | 't' => some '\t'
  | _ => none

/-- The pieces up to the closing quote, and what follows it. -/
def pieces? : List Char → Option (List Piece × List Char)
  | '"' :: rest => some ([], rest)
  | '\\' :: 'u' :: a :: b :: c :: d :: rest => do
    let n ← unit? a b c d
    let (ps, rest) ← pieces? rest
    return (.unit n :: ps, rest)
  | '\\' :: e :: rest => do
    let c ← escaped? e
    let (ps, rest) ← pieces? rest
    return (.char c :: ps, rest)
  | c :: rest =>
    if c.toNat < 32 ∨ c = '\\' then none
    else do
      let (ps, rest) ← pieces? rest
      return (.char c :: ps, rest)
  | [] => none

def isHighSurrogate (n : Nat) : Bool := 0xD800 ≤ n && n < 0xDC00

def isLowSurrogate (n : Nat) : Bool := 0xDC00 ≤ n && n < 0xE000

/-- The characters of the pieces; surrogates have to come in pairs. -/
def chars? : List Piece → Option (List Char)
  | [] => some []
  | .char c :: ps => (chars? ps).map (c :: ·)
  | .unit h :: .unit l :: ps =>
    if isHighSurrogate h then
      if isLowSurrogate l then
        (chars? ps).map (Char.ofNat (0x10000 + (h - 0xD800) * 0x400 + (l - 0xDC00)) :: ·)
      else none
    else if isLowSurrogate h then none
    else (chars? (.unit l :: ps)).map (Char.ofNat h :: ·)
  | .unit n :: ps =>
    if isHighSurrogate n || isLowSurrogate n then none else (chars? ps).map (Char.ofNat n :: ·)

/-! ## Numbers -/

/-- The leading digits and the rest. -/
def digits (cs : List Char) : List Nat × List Char :=
  ((cs.takeWhile Char.isDigit).map fun c => c.toNat - '0'.toNat, cs.dropWhile Char.isDigit)

/-- A fraction, if a point follows; it needs a digit. -/
def fraction? : List Char → Option (Option (List Nat) × List Char)
  | '.' :: cs =>
    match digits cs with
    | ([], _) => none
    | (ds, rest) => some (some ds, rest)
  | cs => some (none, cs)

/-- The digits of an exponent after its sign; at least one. -/
def exponentDigits? (down : Bool) (cs : List Char) : Option (Option (Bool × List Nat) × List Char) :=
  match digits cs with
  | ([], _) => none
  | (ds, rest) => some (some (down, ds), rest)

/-- An exponent, if its letter follows. -/
def exponent? : List Char → Option (Option (Bool × List Nat) × List Char)
  | c :: cs =>
    if c = 'e' ∨ c = 'E' then
      match cs with
      | '+' :: rest => exponentDigits? false rest
      | '-' :: rest => exponentDigits? true rest
      | rest => exponentDigits? false rest
    else some (none, c :: cs)
  | [] => some (none, [])

/-- A number after its sign; a leading zero stands alone. -/
def number? (negative : Bool) (cs : List Char) : Option (JsonTree × List Char) := do
  let (whole, rest) := digits cs
  if whole = [] ∨ (whole.head? = some 0 ∧ 1 < whole.length) then none
  let (fraction, rest) ← fraction? rest
  let (exponent, rest) ← exponent? rest
  return (.number ⟨negative, whole, fraction, exponent⟩, rest)

/-! ## Values -/

def isBlank (c : Char) : Bool := c == ' ' || c == '\n' || c == '\t' || c == '\r'

def skipBlanks (cs : List Char) : List Char := cs.dropWhile isBlank

/-- A string after its opening quote. -/
def string? (cs : List Char) : Option (Option String × List Char) := do
  let (ps, rest) ← pieces? cs
  return ((chars? ps).map String.ofList, rest)

mutual

/-- A value after blanks, with at most `n` steps. -/
def value? : Nat → List Char → Option (JsonTree × List Char)
  | 0, _ => none
  | n + 1, cs =>
    match skipBlanks cs with
    | 'n' :: 'u' :: 'l' :: 'l' :: rest => some (.null, rest)
    | 't' :: 'r' :: 'u' :: 'e' :: rest => some (.bool true, rest)
    | 'f' :: 'a' :: 'l' :: 's' :: 'e' :: rest => some (.bool false, rest)
    | '"' :: rest => (string? rest).map fun (s, rest) => (.text s, rest)
    | '[' :: rest =>
      match skipBlanks rest with
      | ']' :: rest => some (.list [], rest)
      | rest => (items? n rest).map fun (xs, rest) => (.list xs, rest)
    | '\x7b' :: rest =>
      match skipBlanks rest with
      | '\x7d' :: rest => some (.object [], rest)
      | rest => (members? n rest).map fun (ms, rest) => (.object ms, rest)
    | '-' :: rest => number? true rest
    | rest => number? false rest

/-- Items up to the closing bracket. -/
def items? : Nat → List Char → Option (List JsonTree × List Char)
  | 0, _ => none
  | n + 1, cs => do
    let (x, rest) ← value? n cs
    match skipBlanks rest with
    | ',' :: rest =>
      let (xs, rest) ← items? n rest
      return (x :: xs, rest)
    | ']' :: rest => return ([x], rest)
    | _ => none

/-- Members up to the closing brace. -/
def members? : Nat → List Char → Option (List (Option String × JsonTree) × List Char)
  | 0, _ => none
  | n + 1, cs =>
    match skipBlanks cs with
    | '"' :: rest => do
      let (name, rest) ← string? rest
      match skipBlanks rest with
      | ':' :: rest =>
        let (x, rest) ← value? n rest
        match skipBlanks rest with
        | ',' :: rest =>
          let (ms, rest) ← members? n rest
          return ((name, x) :: ms, rest)
        | '\x7d' :: rest => return ([(name, x)], rest)
        | _ => none
      | _ => none
    | _ => none

end

/-- Reads a text that holds one value and blanks around it. -/
def read? (cs : List Char) : Option JsonTree := do
  let (x, rest) ← value? (2 * cs.length + 2) cs
  if skipBlanks rest = [] then some x else none

/-! ## Documents -/

mutual

/-- The document that a text stands for, nested to at most `depth`. -/
def doc? (depth : Nat) : JsonTree → Option Json
  | .null => some .null
  | .bool b => some (.bool b)
  | .number x =>
    x.value?.map fun
      | .int n => .int n
      | .real x => .real x
  | .text s => s.map .text
  | .list xs => if depth = 0 then none else (docs? (depth - 1) xs).map .list
  | .object ms => if depth = 0 then none else (fields? (depth - 1) ms).map .ofFields

def docs? (depth : Nat) : List JsonTree → Option (List Json)
  | [] => some []
  | x :: xs => do return (← doc? depth x) :: (← docs? depth xs)

def fields? (depth : Nat) : List (Option String × JsonTree) → Option (List (String × Json))
  | [] => some []
  | (name, x) :: ms => do return (← name, ← doc? depth x) :: (← fields? depth ms)

end

end JsonTree

/-- The document that a text holds. -/
def Json.read? (cs : List Char) : Option Json :=
  JsonTree.read? cs >>= JsonTree.doc? Json.depthLimit

end SelectMerge
