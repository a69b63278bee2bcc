import SelectMerge.Json.Tree

/-!
# JSON of a known shape

Readers for values whose shape is fixed beforehand, over `JsonTree`. A record (`record?`) is an
object with the given fields, or the list of their values in order; `UnknownMember` says what is
done with members that are no fields of it. A variant (`variant?`, `variantName?`) is a name, or an
object whose one field has that name.
-/

namespace SelectMerge.JsonTree

/-! ## Single values -/

/-- An integer; a number with a point, an exponent or a negative zero is none. -/
def int? : JsonTree → Option Int
  | .number x =>
    match x.value? with
    | some (.int n) => some n
    | _ => none
  | _ => none

/-- A number, whatever its spelling. -/
def numberValue? : JsonTree → Option NumberValue
  | .number x => x.value?
  | _ => none

def bool? : JsonTree → Option Bool
  | .bool b => some b
  | _ => none

def text? : JsonTree → Option String
  | .text s => s
  | _ => none

/-- Every item of a list read alike. -/
def listOf? {α : Type} (read : JsonTree → Option α) : JsonTree → Option (List α)
  | .list xs => xs.mapM read
  | _ => none

/-- A value or null. -/
def orNull? {α : Type} (read : JsonTree → Option α) : JsonTree → Option (Option α)
  | .null => some none
  | x => (read x).map some

/-! ## Records -/

/-- What to do with a member that is no field of the record. -/
inductive UnknownMember where
  | refuse
  | skip
deriving DecidableEq, Repr

/-- The members of an object by field, each at most once. -/
def membersByName? (unknown : UnknownMember) (names : List String)
    (ms : List (Option String × JsonTree)) : Option (List (Option JsonTree)) := do
  let ms ← ms.mapM fun (n, x) => n.map (·, x)
  let known := ms.all fun (n, _) => names.contains n
  let once := names.all fun n => (ms.filter fun m => m.1 == n).length ≤ 1
  if once ∧ (known ∨ unknown = .skip) then some (names.map fun n => ms.lookup n) else none

/-- The values of a record's fields, where given. -/
def record? (unknown : UnknownMember) (names : List String) :
    JsonTree → Option (List (Option JsonTree))
  | .object ms => membersByName? unknown names ms
  | .list xs =>
    if xs.length ≤ names.length then some ((List.range names.length).map fun i => xs[i]?) else none
  | _ => none

/-! ## Variants -/

/-- The name of a variant without content. -/
def variantName? : JsonTree → Option String
  | .text s => s
  | .object [(name, .null)] => name
  | _ => none

/-- The name of a variant and its content. -/
def variant? : JsonTree → Option (String × JsonTree)
  | .object [(some name, x)] => some (name, x)
  | _ => none

end SelectMerge.JsonTree
