import SelectMerge.Error
import SelectMerge.Expr.Basic

/-!
# Expressions as written

The grammar accepts far more than a query may contain. What a query may contain keeps its shape in a
`Surface`; every other form is recognised, so that it is refused for what it is and not as a
mistake. `Surface.expression` tells the expression that is meant, or the `ExpressionFault` for which
there is none.
-/

namespace SelectMerge.Expr

/-- A name, and the quotes it is written in. -/
structure Name where
  text : String
  quote : Option Char
deriving DecidableEq, Repr

/-- A written expression. -/
inductive Surface where
  | name (n : Name)
  | path (ns : List Name)
  | nested (e : Surface)
  /-- A number, a text or a truth value. -/
  | literal (text : String)
  | otherLiteral
  | placeholder (text : String)
  | signed (minus : Bool) (e : Surface)
  | call (names : List Name) (args : List Surface)
  | callOfQuery
  | wildcard
  /-- An argument that is named or stands for the columns of a table. -/
  | otherArgument
  | other
deriving Repr, Inhabited

/-! ## Names of calls -/

/-- The characters of a name inside its quotes: a quote is written twice, unless it already is or
a backslash stands before it. -/
def quoteInside (q previous : Char) : List Char → List Char
  | [] => []
  | c :: cs =>
    if c = q then
      if previous = '\\' then c :: quoteInside q previous cs
      else
        match cs with
        | d :: ds => if d = q then q :: q :: quoteInside q q ds else q :: q :: quoteInside q q (d :: ds)
        | [] => [q, q]
    else c :: quoteInside q c cs

/-- A name as written. -/
def Name.written (n : Name) : String :=
  match n.quote with
  | none => n.text
  | some q => String.ofList (q :: quoteInside q '\x00' n.text.toList ++ [q])

/-! ## Meaning -/

namespace Surface

mutual

/-- The expression that is meant, or why there is none; the operand of a sign and the arguments of a
call are read first. -/
def expression : Surface → Except ExpressionFault Expression
  | .name n => .ok (.identifier n.text)
  | .path ns => .ok (.identifier (".".intercalate (ns.map (·.text))))
  | .nested e => e.expression
  | .literal text => .ok (.literal text)
  | .otherLiteral => .error .literal
  | .placeholder text => .ok (.identifier text)
  | .signed minus e => do
    match ← e.expression with
    | .literal text => return .literal (if minus then "-" ++ text else text)
    | _ => throw (.sign minus)
  | .call names args => do
    return .function (".".intercalate (names.map (·.written))) (← expressions args)
  | .callOfQuery => .error .subqueryArguments
  | .wildcard => .ok .wildcard
  | .otherArgument => .error .argument
  | .other => .error .expression

/-- The expressions that are meant by arguments, in order. -/
def expressions : List Surface → Except ExpressionFault (List Expression)
  | [] => .ok []
  | e :: es => do return (← e.expression) :: (← expressions es)

end

end Surface

end SelectMerge.Expr
