/-!
# Expressions

What a query selects and orders by (`Expression`): columns, literals and calls. Every expression has
one canonical text (`Expression.text`), without blanks and with literals in single quotes; it names
the column that holds the expression's values. Names are written as they are, so that a name can
look like the text of a call.
-/

namespace SelectMerge

/-- An expression of a query. -/
inductive Expression where
  | identifier (name : String)
  | literal (text : String)
  | call (name : String) (args : List Expression)
deriving Repr, Inhabited

namespace Expression

/-! ## Construction -/

/-- A character with ASCII capitals made small. -/
def lowerChar (c : Char) : Char := if 'A' ≤ c ∧ c ≤ 'Z' then Char.ofNat (c.toNat + 32) else c

/-- A text with ASCII capitals made small. -/
def lower (s : String) : String := String.ofList (s.toList.map lowerChar)

/-- A call; the case of its name does not matter. -/
def function (name : String) (args : List Expression) : Expression := call (lower name) args

/-- The name that stands for all columns. -/
def wildcardName : String := "*"

def wildcard : Expression := identifier wildcardName

def isWildcard : Expression → Bool
  | identifier name => name == wildcardName
  | _ => false

/-- Whether the expression is anything but a column. -/
def isTransform : Expression → Bool
  | identifier _ => false
  | _ => true

/-! ## Equality -/

mutual

def beq : Expression → Expression → Bool
  | identifier a, identifier b => a == b
  | literal a, literal b => a == b
  | call f xs, call g ys => f == g && beqArgs xs ys
  | _, _ => false

def beqArgs : List Expression → List Expression → Bool
  | [], [] => true
  | x :: xs, y :: ys => beq x y && beqArgs xs ys
  | _, _ => false

end

instance : BEq Expression := ⟨beq⟩

/-! ## Canonical text -/

/-- A quote is written twice. -/
def quoteChar (c : Char) : List Char := if c = '\'' then ['\'', '\''] else [c]

mutual

/-- The characters of the canonical text. -/
def render : Expression → List Char
  | identifier name => name.toList
  | literal text => '\'' :: text.toList.flatMap quoteChar ++ ['\'']
  | call name args => name.toList ++ '(' :: renderArgs args ++ [')']

def renderArgs : List Expression → List Char
  | [] => []
  | x :: xs => render x ++ renderMore xs

def renderMore : List Expression → List Char
  | [] => []
  | x :: xs => ',' :: render x ++ renderMore xs

end

/-- The canonical text. -/
def text (e : Expression) : String := String.ofList e.render

end Expression

/-- An expression to order by, and whether upwards. -/
structure OrderBy where
  expression : Expression
  ascending : Bool
deriving Repr

namespace OrderBy

/-- The canonical text with the direction. -/
def text (o : OrderBy) : String :=
  o.expression.text ++ (if o.ascending then " ASC" else " DESC")

end OrderBy

end SelectMerge
