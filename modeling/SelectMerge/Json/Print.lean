import SelectMerge.Json.Basic
import SelectMerge.Number.Shortest

/-!
# Writing JSON

The compact (`print`) and the indented (`printIndented`) text of a document. Doubles are written by
`realText` with the fewest digits that read back, positionally from `0.00001` up to sixteen digits
before the point, and always show a point or an exponent. `escape` says which characters of a string
are not written as they are.
-/

namespace SelectMerge.Json

/-! ## Numbers -/

/-- An integer in decimal. -/
def intText (n : Int) : List Char :=
  if n < 0 then '-' :: decimalDigits n.natAbs else decimalDigits n.natAbs

/-- A positive decimal number: positional when its leading digit stands at the places -5 to 15,
otherwise with an exponent that always has a sign. -/
def decimalText (d : Decimal) : List Char :=
  let ds := decimalDigits d.digits
  let lead := d.leading
  if -5 ≤ lead ∧ lead ≤ 15 then
    if 0 ≤ d.place then ds ++ List.replicate d.place.toNat '0' ++ ['.', '0']
    else if 0 ≤ lead then ds.take (lead.toNat + 1) ++ '.' :: ds.drop (lead.toNat + 1)
    else '0' :: '.' :: List.replicate (-lead - 1).toNat '0' ++ ds
  else
    let point := if ds.length = 1 then [] else '.' :: ds.drop 1
    let sign := if lead < 0 then '-' else '+'
    ds.take 1 ++ point ++ 'e' :: sign :: decimalDigits lead.natAbs

/-- A double; what is not finite has no JSON number and is written as null. -/
def realText (x : Binary64) : List Char :=
  if x.isFinite then
    let magnitude := if x.code = 0 then ['0', '.', '0'] else decimalText x.shortest
    if x.isNegative then '-' :: magnitude else magnitude
  else ['n', 'u', 'l', 'l']

/-! ## Strings -/

/-- A hexadecimal digit in lower case. -/
def hexDigit (n : Nat) : Char := Nat.digitChar n

/-- A character inside a string: the quote, the backslash and control characters are escaped. -/
def escape (c : Char) : List Char :=
  match c with
  | '"' => ['\\', '"']
  | '\\' => ['\\', '\\']
  | '\n' => ['\\', 'n']
  | '\r' => ['\\', 'r']
  | '\t' => ['\\', 't']
  | '\x08' => ['\\', 'b']
  | '\x0c' => ['\\', 'f']
  | c =>
    if c.toNat < 32 then ['\\', 'u', '0', '0', hexDigit (c.toNat / 16), hexDigit (c.toNat % 16)]
    else [c]

/-- A string in quotes. -/
def quoted (s : String) : List Char := '"' :: s.toList.flatMap escape ++ ['"']

/-! ## Documents -/

mutual

/-- The text without blanks. -/
def compact : Json → List Char
  | .null => ['n', 'u', 'l', 'l']
  | .bool true => ['t', 'r', 'u', 'e']
  | .bool false => ['f', 'a', 'l', 's', 'e']
  | .int n => intText n
  | .real x => realText x
  | .text s => quoted s
  | .list [] => ['[', ']']
  | .list (x :: xs) => '[' :: compact x ++ compactItems xs ++ [']']
  | .object [] => ['\x7b', '\x7d']
  | .object ((n, x) :: fs) => '\x7b' :: quoted n ++ ':' :: compact x ++ compactFields fs ++ ['\x7d']

def compactItems : List Json → List Char
  | [] => []
  | x :: xs => ',' :: compact x ++ compactItems xs

def compactFields : List (String × Json) → List Char
  | [] => []
  | (n, x) :: fs => ',' :: quoted n ++ ':' :: compact x ++ compactFields fs

end

/-- A line break and the indentation of a depth, two blanks a level. -/
def newline (depth : Nat) : List Char := '\n' :: List.replicate (2 * depth) ' '

mutual

/-- The text with one item or field a line. -/
def indented (depth : Nat) : Json → List Char
  | .list (x :: xs) =>
    '[' :: newline (depth + 1) ++ indented (depth + 1) x ++ indentedItems (depth + 1) xs ++
      newline depth ++ [']']
  | .object ((n, x) :: fs) =>
    '\x7b' :: newline (depth + 1) ++ quoted n ++ ':' :: ' ' :: indented (depth + 1) x ++
      indentedFields (depth + 1) fs ++ newline depth ++ ['\x7d']
  | .null => compact .null
  | .bool b => compact (.bool b)
  | .int n => compact (.int n)
  | .real x => compact (.real x)
  | .text s => compact (.text s)
  | .list [] => compact (.list [])
  | .object [] => compact (.object [])

def indentedItems (depth : Nat) : List Json → List Char
  | [] => []
  | x :: xs => ',' :: newline depth ++ indented depth x ++ indentedItems depth xs

def indentedFields (depth : Nat) : List (String × Json) → List Char
  | [] => []
  | (n, x) :: fs =>
    ',' :: newline depth ++ quoted n ++ ':' :: ' ' :: indented depth x ++ indentedFields depth fs

end

/-- The compact text of a document. -/
def print (j : Json) : String := String.ofList j.compact

/-- The indented text of a document. -/
def printIndented (j : Json) : String := String.ofList (j.indented 0)

end SelectMerge.Json
