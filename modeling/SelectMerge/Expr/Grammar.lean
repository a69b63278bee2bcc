import SelectMerge.Expr.Lexer
import SelectMerge.Expr.Operator
import SelectMerge.Expr.Query

/-!
# Reading expressions

`Expression.ofText` reads a text as an expression: its tokens have to be one with nothing behind
(`readWhole`), and that has to be one that a query may contain (`meaning`). What the expression
means is settled before what follows it is looked at. `Rules.within` ties the knot of the grammar:
the rules for what may still nest so often, up to `nestingLimit`. `OrderBy.ofText` reads an
expression to order by.
-/

namespace SelectMerge

namespace Expr

/-- How deep expressions and queries may nest. -/
def nestingLimit : Nat := 50

/-- The rules for what may still nest so often. -/
def Rules.within : Nat → Rules
  | 0 => .exhausted
  | allowance + 1 =>
    let inner := within allowance
    { bound := inner.expressionAbove
      query := inner.wholeQuery }

/-- The meaning of the expression that comes next. -/
def meaning : Parser Expression := do
  let e ← (Rules.within nestingLimit).expression
  match e.expression with
  | .ok x => return x
  | .error fault => throw fault

/-- What a parser reads from a whole text. -/
def readWhole {α : Type} (p : Parser α) (text : String) : Except MergeError α :=
  let fault := fun f => .error (.invalidExpression text f)
  match lex text.toList with
  | none => fault .malformed
  | some tokens =>
    match p .ordinary tokens with
    | .error f => fault f
    | .ok (a, []) => .ok a
    | .ok (_, _ :: _) => fault .malformed

end Expr

namespace Expression

/-- The expression that a text writes; a lone star stands for all columns. -/
def ofText (text : String) : Except MergeError Expression :=
  if Text.trim text.toList == ['*'] then .ok .wildcard
  else Expr.readWhole Expr.meaning text

end Expression

namespace OrderBy

/-- The expression to order by that a text writes, upwards unless it says otherwise. -/
def ofText (text : String) : Except MergeError OrderBy :=
  Expr.readWhole (do
    let e ← Expr.meaning
    if ← Expr.Parser.keyword? "DESC" then return ⟨e, false⟩
    else
      discard (Expr.Parser.keyword? "ASC")
      return ⟨e, true⟩) text

end OrderBy

end SelectMerge
