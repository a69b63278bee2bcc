import SelectMerge.Block.Basic

/-!
# Sample schemas and rows

Two compatible schemas over one list of columns (`mixedSchema`, `compatibleSchema`), the schema that
covers both (`upgradedSchema`), and rows that carry exactly their types (`mixedRow`,
`compatibleRow`); and a small schema of scores (`scoredSchema`).
-/

namespace SelectMerge.Sample

/-! ## Mixed columns -/

/-- The columns of the mixed schemas: each common kind, single and in arrays. -/
def mixedColumns : List String :=
  ["int", "long", "float", "double", "string", "int_array", "long_array", "float_array",
    "double_array", "string_array", "bytes"]

/-- Each column under the type it is named for. -/
def mixedSchema : Schema :=
  ⟨mixedColumns, [.one .int, .one .long, .one .float, .one .double, .one .string, .many .int,
    .many .long, .many .float, .many .double, .many .string, .one .bytes]⟩

/-- The same columns with the types of numbers moved around. -/
def compatibleSchema : Schema :=
  ⟨mixedColumns, [.one .long, .one .float, .one .double, .one .int, .one .string, .many .long,
    .many .float, .many .double, .many .int, .many .string, .one .bytes]⟩

/-- The cover of both. -/
def upgradedSchema : Schema :=
  ⟨mixedColumns, [.one .long, .one .double, .one .double, .one .double, .one .string, .many .long,
    .many .double, .many .double, .many .double, .many .string, .one .bytes]⟩

/-- A row of the mixed schema that counts from `n`. -/
def mixedRow (n : Int) (bytes : List UInt8) : Row :=
  [.int (.ofInt n), .long (.ofInt (n + 1)), .float (.ofInt (n + 2)), .double (.ofInt (n + 3)),
    .string (toString (n + 4)), .many .int [Int32.ofInt (n + 5)],
    .many .long [Int64.ofInt (n + 6)], .many .float [Binary32.ofInt (n + 7)],
    .many .double [Binary64.ofInt (n + 8)], .many .string [toString (n + 9)], .bytes bytes]

/-- A row of the compatible schema that counts from `n`. -/
def compatibleRow (n : Int) (bytes : List UInt8) : Row :=
  [.long (.ofInt n), .float (.ofInt (n + 1)), .double (.ofInt (n + 2)), .int (.ofInt (n + 3)),
    .string (toString (n + 4)), .many .long [Int64.ofInt (n + 5)],
    .many .float [Binary32.ofInt (n + 6)], .many .double [Binary64.ofInt (n + 7)],
    .many .int [Int32.ofInt (n + 8)], .many .string [toString (n + 9)], .bytes bytes]

def mixedRows : List Row := [mixedRow 0 [0x10, 0x20], mixedRow 10 [0x30, 0x40]]

def compatibleRows : List Row := [compatibleRow 1 [0x50, 0x60], compatibleRow 11 [0x70, 0x00]]

/-! ## Scores -/

/-- A score and a name. -/
def scoredSchema : Schema := .ofColumns [("score", .one .long), ("name", .one .string)]

/-- One row a score, named after it. -/
def scoredRows (scores : List Int64) : List Row :=
  scores.map fun s => [.long s, .string ("r" ++ toString s.toInt)]

end SelectMerge.Sample
