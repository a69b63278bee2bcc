import SelectMerge.Expr.Token

/-!
# Reading tokens

`lex` cuts a text into tokens, each off its front (`lexOne`): words, names and texts in quotes,
numbers, placeholders and symbols, of which the longest that fits counts (`longSymbols`). White
space and comments only separate; a quote written twice inside quotes is text (`closeQuote`); a text
that opens a quote, a comment or an escape and does not close it has no tokens.
-/

namespace SelectMerge.Expr

/-! ## Quotes and comments -/

/-- The text up to the closing quote, and what follows. -/
def closeQuote (q : Char) : List Char → Option (List Char × List Char)
  | [] => none
  | c :: cs =>
    if c = q then
      match cs with
      | [] => some ([], [])
      | d :: ds =>
        if d = q then (closeQuote q ds).map fun (s, rest) => (q :: s, rest) else some ([], d :: ds)
    else (closeQuote q cs).map fun (s, rest) => (c :: s, rest)

/-- What follows the closing quote. -/
def afterQuote (q : Char) (cs : List Char) : Option (List Char) := (closeQuote q cs).map (·.2)

/-- What follows three quotes in a row. -/
def afterTripleQuote (q : Char) : List Char → Option (List Char)
  | [] => none
  | c :: cs =>
    match cs with
    | d :: e :: rest =>
      if c = q ∧ d = q ∧ e = q then some rest else afterTripleQuote q (d :: e :: rest)
    | _ => none

/-- What follows a raw text whose first quote was read; raw texts may stand in three quotes. -/
def afterRaw (q : Char) : List Char → Option (List Char)
  | c :: d :: rest =>
    if c = q then if d = q then afterTripleQuote q rest else some (d :: rest)
    else afterQuote q (c :: d :: rest)
  | [c] => if c = q then some [] else none
  | [] => none

/-- What follows the closing quote, where a backslash takes the next character with it. -/
def afterEscaped (q : Char) : List Char → Option (List Char)
  | [] => none
  | c :: cs =>
    if c = '\\' then
      match cs with
      | [] => none
      | _ :: ds => afterEscaped q ds
    else if c = q then
      match cs with
      | [] => some []
      | d :: ds => if d = q then afterEscaped q ds else some (d :: ds)
    else afterEscaped q cs

/-- What follows a line. -/
def afterLine (cs : List Char) : List Char := (cs.dropWhile (· != '\n')).drop 1

/-- What follows a comment, `depth` of which are open. -/
def afterComment (depth : Nat) : List Char → Option (List Char)
  | '/' :: '*' :: cs => afterComment (depth + 1) cs
  | '*' :: '/' :: cs => if depth ≤ 1 then some cs else afterComment (depth - 1) cs
  | _ :: cs => afterComment depth cs
  | [] => none

/-! ## Escapes -/

/-- The value of a digit in a base up to sixteen. -/
def digitIn? (base : Nat) (c : Char) : Option Nat :=
  let n := c.toNat
  let value :=
    if '0' ≤ c ∧ c ≤ '9' then n - 48
    else if 'a' ≤ c ∧ c ≤ 'f' then n - 87
    else if 'A' ≤ c ∧ c ≤ 'F' then n - 55
    else base
  if value < base then some value else none

/-- The number written by digits, if all are digits and there are some. -/
def numberIn? (base : Nat) : List Char → Option Nat
  | [] => none
  | cs => cs.foldl (fun n c => return (← n) * base + (← digitIn? base c)) (some 0)

/-- What follows a code point of `width` characters, which must name a character; a sign may stand
before its digits, and zero is refused. -/
def afterCodePoint (width : Nat) (cs : List Char) : Option (List Char) := do
  let written := cs.take width
  if written.length < width then none
  let digits := if written.head? == some '+' then written.drop 1 else written
  let n ← numberIn? 16 digits
  if n = 0 ∨ ¬ n.isValidChar then none
  return cs.drop width

/-- What follows the escape after a backslash. -/
def afterEscape : List Char → Option (List Char)
  | [] => none
  | c :: cs =>
    if c = 'u' then afterCodePoint 4 cs
    else if c = 'U' then afterCodePoint 8 cs
    else if c = 'x' then
      let digits := (cs.take 2).takeWhile fun d => (digitIn? 16 d).isSome
      match numberIn? 16 digits with
      | none => some cs
      | some n => if n = 0 ∨ 127 < n then none else some (cs.drop digits.length)
    else if (digitIn? 8 c).isSome then
      let digits := (cs.take 2).takeWhile fun d => (digitIn? 8 d).isSome
      match numberIn? 8 (c :: digits) with
      | none => none
      | some n => if n % 256 = 0 ∨ 127 < n % 256 then none else some (cs.drop digits.length)
    else if c = '\x00' then none
    else some cs

/-- What follows a text with escapes, up to its closing quote; `fuel` bounds its length. -/
def afterEscapes : Nat → List Char → Option (List Char)
  | 0, _ => none
  | _, [] => none
  | fuel + 1, c :: cs =>
    if c = '\'' then
      match cs with
      | '\'' :: ds => afterEscapes fuel ds
      | _ => some cs
    else if c = '\\' then (afterEscape cs).bind (afterEscapes fuel)
    else afterEscapes fuel cs

/-- What follows the code point of `width` digits. -/
def afterDigits (width : Nat) (cs : List Char) : Option (List Char) := do
  let written := cs.take width
  if written.length < width then none
  let n ← numberIn? 16 written
  if n.isValidChar then some (cs.drop width) else none

/-- What follows a text with code points after backslashes; `fuel` bounds its length. -/
def afterCodePoints : Nat → List Char → Option (List Char)
  | 0, _ => none
  | _, [] => none
  | fuel + 1, c :: cs =>
    if c = '\'' then
      match cs with
      | '\'' :: ds => afterCodePoints fuel ds
      | _ => some cs
    else if c = '\\' then
      match cs with
      | '\\' :: ds => afterCodePoints fuel ds
      | '+' :: ds => (afterDigits 6 ds).bind (afterCodePoints fuel)
      | _ => (afterDigits 4 cs).bind (afterCodePoints fuel)
    else afterCodePoints fuel cs

/-! ## Marked literals -/

/-- The kind of a literal that a letter before its quote marks, and what follows; `none` when there
is no such literal, and nothing follows one that does not end. -/
def markedLiteral? (mark : Char) (cs : List Char) : Option (LiteralKind × Option (List Char)) :=
  match mark.toLower, cs with
  | 'b', '\'' :: rest => some (.bytes, afterQuote '\'' rest)
  | 'b', '"' :: rest => some (.bytes, afterQuote '"' rest)
  | 'r', '\'' :: rest => some (.raw, afterRaw '\'' rest)
  | 'r', '"' :: rest => some (.raw, afterRaw '"' rest)
  | 'n', '\'' :: rest => some (.national, afterQuote '\'' rest)
  | 'e', '\'' :: rest => some (.escaped, afterEscapes (rest.length + 1) rest)
  | 'u', '&' :: '\'' :: rest => some (.unicode, afterCodePoints (rest.length + 1) rest)
  | 'x', '\'' :: rest => some (.hexadecimal, afterEscaped '\'' rest)
  | _, _ => none

/-! ## Numbers -/

/-- The exponent of a number, and what follows. -/
def exponent (cs : List Char) : List Char × List Char :=
  match cs with
  | e :: rest =>
    if e = 'e' ∨ e = 'E' then
      let (sign, rest) := match rest with
        | '+' :: r => (['+'], r)
        | '-' :: r => (['-'], r)
        | r => ([], r)
      let (digits, rest) := rest.span Char.isDigit
      if digits.isEmpty then ([], cs) else (e :: sign ++ digits, rest)
    else ([], cs)
  | [] => ([], [])

/-- The number or point at the front of a text. -/
def lexNumber (cs : List Char) : Lexeme × List Char :=
  let (whole, rest) := cs.span Char.isDigit
  match whole, rest with
  | ['0'], 'x' :: rest =>
    (.literal .hexadecimal, rest.dropWhile fun c => (digitIn? 16 c).isSome)
  | _, _ =>
    let (point, rest) := match rest with
      | '.' :: r => (['.'], r)
      | r => ([], r)
    let (fraction, rest) := rest.span Char.isDigit
    if whole.isEmpty ∧ fraction.isEmpty then (.symbol ".", rest)
    else
      let (power, rest) := exponent rest
      let digits := String.ofList (whole ++ point ++ fraction ++ power)
      match rest with
      | 'L' :: rest => (.number digits true, rest)
      | rest => (.number digits false, rest)

/-! ## Words and symbols -/

/-- A word that starts with the given characters. -/
def lexWord (start cs : List Char) : Lexeme × List Char :=
  let (more, rest) := cs.span continuesName
  (.plainWord (start ++ more), rest)

/-- A name in quotes. -/
def lexQuotedName (q : Char) (cs : List Char) : Option (Lexeme × List Char) :=
  (closeQuote q cs).map fun (s, rest) => (.word (String.ofList s) (some q) "", rest)

/-- What starts with an at sign: a symbol, or a word whose second character may be any. -/
def lexAt (cs : List Char) : Lexeme × List Char :=
  match cs with
  | '>' :: rest => (.symbol "@>", rest)
  | '?' :: rest => (.symbol "@?", rest)
  | '@' :: ' ' :: rest => (.symbol "@@", ' ' :: rest)
  | '@' :: c :: rest => lexWord ['@', '@', c] rest
  | ['@'] => (.symbol "@@", [])
  | c :: rest =>
    if c = ' ' ∨ c = '\'' ∨ c = '"' ∨ c = '\x60' then (.symbol "@", cs) else lexWord ['@', c] rest
  | [] => (.symbol "@", [])

/-- What starts with a number sign: a symbol, or a word whose second character may be any. -/
def lexHash (cs : List Char) : Lexeme × List Char :=
  match cs with
  | '-' :: rest => (.symbol "#-", rest)
  | '>' :: '>' :: rest => (.symbol "#>>", rest)
  | '>' :: rest => (.symbol "#>", rest)
  | ' ' :: rest => (.symbol "#", ' ' :: rest)
  | c :: rest => lexWord ['#', c] rest
  | [] => (.symbol "#", [])

/-- What follows the delimiter. -/
def afterDelimiter (delimiter : List Char) : List Char → Option (List Char)
  | [] => none
  | c :: cs =>
    if delimiter.isPrefixOf (c :: cs) then some ((c :: cs).drop delimiter.length)
    else afterDelimiter delimiter cs

/-- What starts with a dollar sign: a placeholder, or a literal between two equal tags. -/
def lexDollar (cs : List Char) : Option (Lexeme × List Char) :=
  match cs with
  | '$' :: rest => (afterDelimiter ['$', '$'] rest).map fun rest => (.literal .tagged, rest)
  | _ =>
    let (tag, rest) := cs.span fun c => Text.isLetter c || Text.isNumeral c || c == '_'
    match rest with
    | '$' :: rest =>
      (afterDelimiter ('$' :: tag ++ ['$']) rest).map fun rest => (.literal .tagged, rest)
    | rest => some (.placeholder (String.ofList ('$' :: tag)), rest)

/-- The symbols of more than one character; of two that start alike the longer comes first. -/
def longSymbols : List String :=
  ["->>", "->", "||/", "||", "|/", "|>", "=>", "==", "!~~*", "!~~", "!~*", "!~", "!=", "!!",
    "<=>", "<=", "<>", "<<", "<@", ">=", ">>", "::", ":=", "&&", "^@", "~~*", "~~", "~*", "//"]

/-- The symbol at the front of a text. -/
def lexSymbol (c : Char) (cs : List Char) : Lexeme × List Char :=
  match longSymbols.find? fun s => s.toList.isPrefixOf (c :: cs) with
  | some s => (.symbol (if s == "!=" then "<>" else s), (c :: cs).drop s.length)
  | none => (.symbol (String.singleton c), cs)

/-! ## All tokens -/

/-- The token at the front of a text, if it is not a separator, and what follows; `afterWord` tells
whether a word ends right before it. -/
def lexOne (afterWord : Bool) (c : Char) (cs : List Char) : Option (Option Lexeme × List Char) :=
  let token := fun ((x, rest) : Lexeme × List Char) => (some x, rest)
  if Text.isBlank c then some (none, cs)
  else
    match markedLiteral? c cs with
    | some (kind, after) => after.map fun rest => (some (.literal kind), rest)
    | none =>
      match c, cs with
      | '\'', _ => (closeQuote '\'' cs).map fun (s, rest) => (some (.quoted (String.ofList s)), rest)
      | '"', _ => (lexQuotedName '"' cs).map token
      | '\x60', _ => (lexQuotedName '\x60' cs).map token
      | '-', '-' :: rest => some (none, afterLine rest)
      | '/', '*' :: rest => (afterComment 1 rest).map fun rest => (none, rest)
      | '.', '_' :: _ => if afterWord then some (some (.symbol "."), cs) else none
      | '@', _ => some (token (lexAt cs))
      | '#', _ => some (token (lexHash cs))
      | '$', _ => (lexDollar cs).map token
      | '?', _ =>
        let (digits, rest) := cs.span Text.isNumeral
        some (some (.placeholder (String.ofList ('?' :: digits))), rest)
      | _, _ =>
        if c.isDigit || c == '.' then some (token (lexNumber (c :: cs)))
        else if startsName c then some (token (lexWord [c] cs))
        else some (token (lexSymbol c cs))

/-- The tokens of a text; `fuel` bounds its length. -/
def lexFrom : Nat → Bool → Bool → List Char → Option (List Token)
  | _, _, _, [] => some []
  | 0, _, _, _ :: _ => none
  | fuel + 1, afterWord, spaced, c :: cs => do
    match ← lexOne afterWord c cs with
    | (none, rest) => lexFrom fuel false true rest
    | (some x, rest) => return ⟨x, spaced⟩ :: (← lexFrom fuel x.isWord false rest)

/-- The tokens of a text. -/
def lex (cs : List Char) : Option (List Token) := lexFrom cs.length false false cs

end SelectMerge.Expr
