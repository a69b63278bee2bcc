import SelectMerge.Block.Basic

/-!
# Errors

What can go wrong, by cause, with its wording: `DecodeError` for malformed bytes, `ExpressionFault`
for texts that are no expression of a query, `MergeError` for merges and what leads up to them.
Nothing is tried again: every error reaches the caller. A run that met its deadline carries along
what it had merged (`MergeError.collected?`).

A lookup by an index that is taken to be in range (`Abort.item`) and is not (`Abort.outside`) is no
error; it takes the caller down. Steps without lookups are lifted by `Abort.ofExcept`.
-/

namespace SelectMerge

/-! ## Malformed bytes -/

/-- Why bytes could not be decoded. -/
inductive DecodeError where
  | truncated (offset needed available : Nat)
  | unknownType (ordinal : Int)
  | negativeLength (length : Int)
  | invalidText (what : String)
  | invalidObject
  | trailingBytes (count : Nat)
  | offsetOutOfRange (offset length : Nat)
deriving DecidableEq, Repr

namespace DecodeError

def message : DecodeError → String
  | truncated offset needed available =>
    "truncated buffer: needed " ++ toString needed ++ " bytes at offset " ++ toString offset ++
      ", " ++ toString available ++ " available"
  | unknownType ordinal => "unknown column type ordinal " ++ toString ordinal
  | negativeLength length => "negative length " ++ toString length
  | invalidText what => "invalid utf-8 in " ++ what
  | invalidObject => "invalid object payload"
  | trailingBytes count => toString count ++ " trailing bytes after payload"
  | offsetOutOfRange offset length =>
    "offset " ++ toString offset ++ " out of range for buffer of " ++ toString length ++ " bytes"

end DecodeError

/-! ## Refused expressions -/

/-- Why a text is no expression of a query. -/
inductive ExpressionFault where
  | malformed
  | tooDeep
  | literal
  | argument
  | expression
  | subqueryArguments
  | sign (minus : Bool)
deriving DecidableEq, Repr

namespace ExpressionFault

def message : ExpressionFault → String
  | malformed => "syntax"
  | tooDeep => "recursion limit exceeded"
  | literal => "unsupported literal"
  | argument => "unsupported argument"
  | expression => "unsupported expression"
  | subqueryArguments => "unsupported subquery arguments"
  | sign true => "unsupported unary - on a non-literal"
  | sign false => "unsupported unary + on a non-literal"

end ExpressionFault

/-! ## Merging -/

/-- The longest count that a length on the wire can hold. -/
def wireLimit : Nat := 0x7fffffff

/-- Why a merge or what leads up to it failed. -/
inductive MergeError where
  | schemaMismatch (left right : String)
  | unsupportedCast (source target : ColumnType)
  | decode (e : DecodeError)
  | timeout (merged : Nat) (collected : Option Block)
  | rowArity (expected actual : Nat)
  | unknownColumn (name : String)
  | unorderableColumn (column : String) (type : ColumnType)
  | strategyMismatch (what : String)
  | invalidExpression (text : String) (fault : ExpressionFault)
  | segment (what : String)
  | lengthOverflow (length : Nat)

namespace MergeError

def message : MergeError → String
  | schemaMismatch left right =>
    "schema mismatch: " ++ left ++ " is not type-compatible with " ++ right
  | unsupportedCast source target =>
    "unsupported cast from " ++ source.name ++ " to " ++ target.name
  | decode e => "decode error: " ++ e.message
  | timeout merged _ => "merge timed out after " ++ toString merged ++ " blocks"
  | rowArity expected actual =>
    "row has " ++ toString actual ++ " values but schema has " ++ toString expected ++ " columns"
  | unknownColumn name => "unknown column: " ++ name
  | unorderableColumn column type =>
    "column " ++ column ++ " of type " ++ type.name ++ " cannot be used for ordering"
  | strategyMismatch what => "strategy mismatch: " ++ what
  | invalidExpression text _ => "invalid expression '" ++ text ++ "'"
  | segment what => "segment failed: " ++ what
  | lengthOverflow length =>
    "length " ++ toString length ++ " exceeds the wire limit of " ++ toString wireLimit

/-- Errors that show a broken promise inside a run rather than bad input. -/
def isInternal : MergeError → Bool
  | unsupportedCast .. => true
  | rowArity .. => true
  | _ => false

/-- What a run had merged when its deadline passed. -/
def collected? : MergeError → Option Block
  | timeout _ collected => collected
  | _ => none

end MergeError

/-! ## Lookups -/

/-- What stops work on tables: an error, which is told, or a lookup past the end of a list, which is
none and takes the caller down. -/
inductive Abort (ε : Type) where
  | failed (e : ε)
  | outside (index length : Nat)

namespace Abort

variable {ε α : Type}

def message (text : ε → String) : Abort ε → String
  | failed e => text e
  | outside index length =>
    "index out of bounds: the len is " ++ toString length ++ " but the index is " ++ toString index

/-- The item at an index, where the list is taken to have one. -/
def item (l : List α) (index : Nat) : Except (Abort ε) α :=
  match l[index]? with
  | some x => .ok x
  | none => .error (.outside index l.length)

/-- A step that looks nothing up. -/
def ofExcept (x : Except ε α) : Except (Abort ε) α := x.mapError failed

end Abort

end SelectMerge
