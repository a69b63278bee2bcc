import SelectMerge.Expr.ColumnOption

/-!
# Names of data types

A data type (`dataType`) follows a cast, and before a literal it types the literal. Any name is a
data type; the built-in ones have arguments of their own (`builtin?`), and the containers hold other
types (`container?`). Types in angle brackets may close with a symbol that closes two at once, so
the readers under `typeWithin` tell whether the type around them was closed too.
-/

namespace SelectMerge.Expr

/-- What a data type is to the grammar. -/
inductive TypeKind where
  | builtin
  | interval
  | custom
deriving DecidableEq, Repr

namespace DataType

open Expr.Parser

/-! ## Arguments -/

/-- An optional precision and scale in parentheses; only the scale has a sign. -/
def scale? : Parser Unit := do
  if ← symbolAhead 0 "(" then
    parens do
      count
      after (symbol? ",") do
        unless ← symbol? "-" do discard (symbol? "+")
        countBelow 0x8000000000000000

/-- An optional number of characters in parentheses. -/
def length? : Parser Unit := do
  if ← symbolAhead 0 "(" then
    parens do
      unless ← keyword? "MAX" do
        count
        discard (oneOf? ["CHARACTERS", "OCTETS"])

/-- An optional number of bytes in parentheses. -/
def size? : Parser Unit := do
  if ← symbolAhead 0 "(" then
    parens do
      unless ← keyword? "MAX" do count

/-- Characters after their word, as many as given, at most as many, or in a large object. -/
def characters : Parser Unit := do
  if ← keyword? "VARYING" then length?
  else if ← keywords? ["LARGE", "OBJECT"] then precision?
  else length?

/-- An optional word on time zones. -/
def zone? : Parser Unit := after (oneOf? ["WITH", "WITHOUT"]) (keywords ["TIME", "ZONE"])

/-- An optional word on signs. -/
def unsigned? : Parser Unit := discard (keyword? "UNSIGNED")

/-- The values of an enumeration, in parentheses. -/
def choices : Parser Unit :=
  discard <| parens <| commas do
    text
    after (symbol? "=") signedQuantity

/-- Optional units of an interval. -/
def units? : Parser Unit := do
  match ← keywordAhead 0 with
  | "YEAR" => upTo ["MONTH"]
  | "MONTH" => skip 1
  | "DAY" => upTo ["HOUR", "MINUTE", "SECOND"]
  | "HOUR" => upTo ["MINUTE", "SECOND"]
  | "MINUTE" => upTo ["SECOND"]
  | "SECOND" => skip 1
  | _ => return ()
where
  upTo (finer : List String) : Parser Unit := do
    skip 1
    after (keyword? "TO") (oneOf finer)

/-- The modifiers of a type that is not built in. -/
def modifiers? : Parser Unit := do
  if ← symbol? "(" then
    whileGoing do
      match (← take).lexeme with
      | .word .. => return true
      | .number .. => return true
      | .quoted _ => return true
      | .symbol "," => return true
      | .symbol ")" => return false
      | _ => fail

/-! ## Built-in types -/

/-- Types without arguments. -/
def plainTypes : List String :=
  ["BOOLEAN", "BOOL", "FLOAT4", "FLOAT8", "FLOAT32", "FLOAT64", "INT16", "INT32", "INT64", "INT128",
    "INT256", "UINT8", "UINT16", "UINT32", "UINT64", "UINT128", "UINT256", "HUGEINT", "UHUGEINT",
    "UTINYINT", "USMALLINT", "UBIGINT", "TINYBLOB", "MEDIUMBLOB", "LONGBLOB", "UUID", "DATE",
    "DATE32", "JSON", "JSONB", "REGCLASS", "TEXT", "TINYTEXT", "MEDIUMTEXT", "LONGTEXT", "BYTEA",
    "TRIGGER", "TSVECTOR", "TSQUERY", "TIMESTAMP_NTZ"]

/-- Types with an optional precision and a word on signs. -/
def wholeTypes : List String := ["TINYINT", "SMALLINT", "MEDIUMINT", "INT", "INTEGER", "BIGINT"]

/-- Types with an optional precision and a word on the missing sign. -/
def shortWholeTypes : List String := ["INT2", "INT4", "INT8"]

/-- Types with an optional precision. -/
def preciseTypes : List String :=
  ["CLOB", "BINARY", "BLOB", "BYTES", "VARBIT", "DATETIME", "TIMESTAMPTZ", "TIMETZ", "STRING"]

/-- Types with an optional precision and scale. -/
def scaledTypes : List String := ["NUMERIC", "BIGNUMERIC", "BIGDECIMAL"]

/-- Types with an optional precision and scale and a word on the missing sign. -/
def scaledSignTypes : List String := ["FLOAT", "DECIMAL", "DEC"]

/-- The rest of a built-in type after its name, unless it contains other types. -/
def builtin? (k : String) : Option (Parser Unit) :=
  if plainTypes.contains k then some (pure ())
  else if wholeTypes.contains k then some do
    precision?
    discard (oneOf? ["UNSIGNED", "SIGNED"])
  else if shortWholeTypes.contains k then some do precision?; unsigned?
  else if preciseTypes.contains k then some precision?
  else if scaledTypes.contains k then some scale?
  else if scaledSignTypes.contains k then some do scale?; unsigned?
  else
    match k with
    | "REAL" => some unsigned?
    | "DOUBLE" => some do
      unless ← keyword? "PRECISION" do scale?
      unsigned?
    | "VARCHAR" => some length?
    | "NVARCHAR" => some length?
    | "VARBINARY" => some size?
    | "CHAR" => some characters
    | "CHARACTER" => some characters
    | "BIT" => some do
      discard (keyword? "VARYING")
      precision?
    | "TIMESTAMP" => some do precision?; zone?
    | "TIME" => some do precision?; zone?
    | "DATETIME64" => some <| parens do
      count
      after (symbol? ",") text
    | "FIXEDSTRING" => some (parens count)
    | "ENUM" => some choices
    | "ENUM8" => some choices
    | "ENUM16" => some choices
    | "SET" => some (discard (parens (commas quotedText)))
    | "SIGNED" => some (discard (keyword? "INTEGER"))
    | "UNSIGNED" => some (discard (keyword? "INTEGER"))
    | _ => none

/-- The closing angle bracket, unless the inner type already closed this one; tells whether the
symbol closes the outer type too. -/
def closeAngle (closed : Bool) : Parser Bool := do
  if closed then return false
  else if ← symbol? ">" then return false
  else if ← symbol? ">>" then return true
  else fail

/-- A type that closes nothing around it. -/
def whole (type : Parser (TypeKind × Bool)) : Parser TypeKind := do
  let (kind, closed) ← type
  if closed then fail else return kind

end DataType

namespace Rules

open Expr.Parser DataType

/-! ## Types inside types -/

/-- A field: a type, with a name before it when two words tell so, and options after it. -/
def field (r : Rules) (type : Parser (TypeKind × Bool)) : Parser Bool := do
  let first := ((← ahead 0).map Lexeme.isWord).getD false
  let second := ((← ahead 1).map Lexeme.isWord).getD false
  if first && second then discard name
  let (_, closed) ← type
  discard r.listedOptions?
  return closed

/-- Fields with commas between, until one closes the type around it; `fuel` bounds their number. -/
def fieldsWithin (r : Rules) (type : Parser (TypeKind × Bool)) : Nat → Parser Bool
  | 0 => fail
  | fuel + 1 => do
    if ← r.field type then return true
    else if ← symbol? "," then r.fieldsWithin type fuel
    else return false

/-- Optional fields of a structure in angle brackets; tells whether there were some, and whether
they closed the outer type too. -/
def structure? (r : Rules) (type : Parser (TypeKind × Bool)) : Parser (Bool × Bool) := do
  if ← symbol? "<" then
    let closed ← r.fieldsWithin type ((← get).length + 1)
    return (true, ← closeAngle closed)
  else return (false, false)

/-- Columns with their types and options, in parentheses. -/
def columns (r : Rules) (type : Parser (TypeKind × Bool)) : Parser Unit :=
  discard <| parens <| commas do
    discard name
    discard (whole type)
    whileGoing r.columnOption?

/-- The rest of a type that contains other types, after its name; tells whether it closed the type
around it. -/
def container? (r : Rules) (type : Parser (TypeKind × Bool)) (k : String) : Option (Parser Bool) :=
  let inner := discard (whole type)
  let closed := fun (p : Parser Unit) => do p; return false
  match k with
  | "ARRAY" => some do
    symbol "<"
    closeAngle (← type).2
  | "STRUCT" => some do return (← r.structure? type).2
  | "TUPLE" => some <| closed <| discard <| parens <| commas <| r.field type
  | "UNION" => some <| closed <| discard <| parens <| commas do
    discard name
    inner
  | "NULLABLE" => some <| closed <| parens inner
  | "LOWCARDINALITY" => some <| closed <| parens inner
  | "MAP" => some <| closed <| parens do
    inner
    symbol ","
    inner
  | "NESTED" => some <| closed <| r.columns type
  | "TABLE" => some <| closed do
    if ← symbolAhead 0 "(" then r.columns type
  | _ => none

/-- A type with its arguments, and whether it closed the type around it; `fuel` bounds how deep
types lie inside each other. -/
def typeWithin (r : Rules) : Nat → Parser (TypeKind × Bool)
  | 0 => fail
  | fuel + 1 => do
    let start ← get
    let first := (← take).lexeme
    unless first.isWord do fail
    let k := first.keyword
    let anyType ← if k == "ANY" then keyword? "TYPE" else pure false
    let (kind, closed) ←
      if anyType then pure (TypeKind.builtin, false)
      else if k == "INTERVAL" then do
        units?
        precision?
        pure (.interval, false)
      else
        match r.container? (typeWithin r fuel) k, builtin? k with
        | some rest, _ => do pure (.builtin, ← rest)
        | none, some rest => do
          rest
          pure (.builtin, false)
        | none, none => do
          set start
          discard qualifiedName
          modifiers?
          pure (.custom, false)
    let arrays ← get
    whileGoing do
      if ← symbol? "[" then
        discard (maybe count)
        symbol "]"
        return true
      else return false
    let isArray := (← get).length < arrays.length
    return (if isArray then .builtin else kind, closed)

/-- A data type, which may be part of another; tells whether it closed the type around it. -/
def typePart (r : Rules) : Parser (TypeKind × Bool) := do r.typeWithin ((← get).length + 1)

/-- A data type. -/
def dataType (r : Rules) : Parser TypeKind := whole r.typePart

end Rules

end SelectMerge.Expr
