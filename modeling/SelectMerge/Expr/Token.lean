import SelectMerge.Text.Blank
import SelectMerge.Text.Letters
import SelectMerge.Text.Numerals

/-!
# Tokens of expressions

The words, literals and symbols that an expression is written with (`Lexeme`), each with whether
something separates it from what stands before (`Token`). A word in quotes is only ever a name;
without quotes it may be a keyword, whose case does not matter (`Lexeme.keyword`).
-/

namespace SelectMerge.Expr

/-- The kinds of literals that are neither plain numbers nor plain texts. -/
inductive LiteralKind where
  | bytes
  | raw
  | national
  | escaped
  | unicode
  | hexadecimal
  /-- Between two equal tags. -/
  | tagged
deriving DecidableEq, Repr

/-- What a token is. -/
inductive Lexeme where
  /-- A name or keyword; `keyword` is the word in capitals, empty when it stands in quotes. -/
  | word (text : String) (quote : Option Char) (keyword : String)
  | number (digits : String) (long : Bool)
  | quoted (text : String)
  | literal (kind : LiteralKind)
  | placeholder (name : String)
  | symbol (text : String)
deriving DecidableEq, Repr

/-- A token, and whether white space or a comment stands before it. -/
structure Token where
  lexeme : Lexeme
  spaced : Bool
deriving DecidableEq, Repr

/-! ## Capitals -/

/-- The ASCII capitals of a character, or the character itself. -/
def capitals (c : Char) : List Char :=
  if 'a' ≤ c ∧ c ≤ 'z' then [Char.ofNat (c.toNat - 32)]
  else
    match c with
    | 'ı' => ['I']
    | 'ſ' => ['S']
    | 'ß' => ['S', 'S']
    | 'ﬀ' => ['F', 'F']
    | 'ﬁ' => ['F', 'I']
    | 'ﬂ' => ['F', 'L']
    | 'ﬃ' => ['F', 'F', 'I']
    | 'ﬄ' => ['F', 'F', 'L']
    | 'ﬅ' => ['S', 'T']
    | 'ﬆ' => ['S', 'T']
    | c => [c]

namespace Lexeme

/-- A word without quotes. -/
def plainWord (cs : List Char) : Lexeme :=
  .word (String.ofList cs) none (String.ofList (cs.flatMap capitals))

/-- The capitals of a word without quotes; empty for everything else. -/
def keyword : Lexeme → String
  | .word _ _ keyword => keyword
  | _ => ""

def isWord : Lexeme → Bool
  | .word .. => true
  | _ => false

end Lexeme

/-! ## Names -/

/-- Whether a character can start a name. -/
def startsName (c : Char) : Bool := Text.isLetter c || c == '_' || c == '#' || c == '@'

/-- Whether a character can go on a name. -/
def continuesName (c : Char) : Bool := startsName c || c.isDigit || c == '$'

end SelectMerge.Expr
