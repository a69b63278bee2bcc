import SelectMerge.Column.Cell

/-!
# Shared rows

Rows are handed around and not copied. A `SharedRow` carries a handle for its place in memory:
handing it on keeps the handle, and a copy has one of its own, so `isSame` tells a row from a copy
of it.
-/

namespace SelectMerge

/-- A row and the handle that all who share it hold. -/
structure SharedRow where
  handle : Nat
  row : Row

namespace SharedRow

/-- Whether two shared rows are one row in memory. -/
def isSame (a b : SharedRow) : Bool := a.handle == b.handle

end SharedRow

end SelectMerge
