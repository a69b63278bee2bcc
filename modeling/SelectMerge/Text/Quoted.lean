import SelectMerge.Text.Unprintable

/-!
# Quoted text

Names in displays stand in double quotes (`quoted`); quotes, backslashes and characters that are not
shown are escaped (`escape`), the latter by their code points.
-/

namespace SelectMerge.Text

/-- A character inside quotes. -/
def escape (c : Char) : List Char :=
  match c with
  | '"' => ['\\', '"']
  | '\\' => ['\\', '\\']
  | '\n' => ['\\', 'n']
  | '\r' => ['\\', 'r']
  | '\t' => ['\\', 't']
  | '\x00' => ['\\', '0']
  | c =>
    let shown := if c.toNat < 0x80 then 0x20 ≤ c.toNat && c.toNat < 0x7F else !isUnprintable c
    if shown then [c]
    else '\\' :: 'u' :: '\x7b' :: Nat.toDigits 16 c.toNat ++ ['\x7d']

/-- A text in quotes. -/
def quoted (s : String) : String := String.ofList ('"' :: s.toList.flatMap escape ++ ['"'])

end SelectMerge.Text
