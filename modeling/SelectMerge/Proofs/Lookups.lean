import SelectMerge.Proofs.Schema.Casting
import SelectMerge.Wire.Payload

/-!
# Lookups in range

Columns are looked up by number and taken to be there (`Abort.item`); a lookup is right exactly if
the list has the item (`Abort.item_eq_ok_iff`), and steps without lookups never end in one that is
not (`Abort.ofExcept_ne_outside`).

Some cells of a row are found together if it has them all (`Row.mapM_item`), and so is a column of
many rows (`Row.mapM_item_column`). Rows that are cast to an aligned schema have all its columns, so
what is shown of them is found (`Schema.projectRow_mapM_item`), and their sections are written
without a lookup past the end of one (`Section.encodeAll_ne_outside`). A payload with a section for
every name of its schema reads its rows section by section (`Payload.row_eq`).
-/

namespace SelectMerge

namespace Abort

variable {α β ε : Type} {l : List α} {i n : Nat} {a : α} {f : Abort ε} {x : Except ε α}

theorem item_eq_ok_iff : (item l i : Except (Abort ε) α) = .ok a ↔ l[i]? = some a := by
  rw [item]
  cases l[i]? <;> simp

theorem item_eq_error_iff :
    (item l i : Except (Abort ε) α) = .error f ↔ l.length ≤ i ∧ f = .outside i l.length := by
  rw [item, ← List.getElem?_eq_none_iff]
  cases l[i]? <;> simp [eq_comm]

theorem ofExcept_eq_ok_iff : ofExcept x = .ok a ↔ x = .ok a := mapError_eq_ok_iff

theorem ofExcept_eq_error_iff : ofExcept x = .error f ↔ ∃ e, x = .error e ∧ f = .failed e := by
  cases x <;> simp [ofExcept, Except.mapError, eq_comm]

theorem ofExcept_injective : Function.Injective (ofExcept : Except ε α → Except (Abort ε) α) := by
  rintro (e | a) (e' | a') h <;> cases h <;> rfl

theorem ofExcept_ne_outside : ofExcept x ≠ .error (.outside i n) := by
  intro h
  obtain ⟨e, -, he⟩ := ofExcept_eq_error_iff.mp h
  cases he

theorem mapM_ofExcept (f : α → Except ε β) (l : List α) :
    (l.mapM fun a => ofExcept (f a)) = ofExcept (l.mapM f) := by
  induction l with
  | nil => rfl
  | cons a l ih =>
    rw [List.mapM_cons, List.mapM_cons, ih]
    rcases f a with e | b
    · rfl
    · rcases l.mapM f with e | bs <;> rfl

end Abort

namespace Row

variable {ε : Type} {r : Row} {i : Nat}

theorem item_of_lt (h : i < r.length) :
    (Abort.item r i : Except (Abort ε) Cell) = .ok (r.cell i) := by
  have hget := List.getElem?_eq_getElem h
  rw [Abort.item_eq_ok_iff, hget, cell_of_getElem? hget]

theorem mapM_item {indices : List Nat} (h : ∀ i ∈ indices, i < r.length) :
    indices.mapM (Abort.item r) = (.ok (indices.map r.cell) : Except (Abort ε) Row) :=
  mapM_eq_ok_map fun i hi => item_of_lt (h i hi)

theorem mapM_item_column {rows : List Row} (h : ∀ r ∈ rows, i < r.length) :
    (rows.mapM fun r => (Abort.item r i : Except (Abort ε) Cell)) =
      .ok (rows.map fun r => r.cell i) :=
  mapM_eq_ok_map fun r hr => item_of_lt (h r hr)

end Row

theorem Schema.projectRow_mapM_item {s : Schema} {indices : List Nat} (hs : s.Aligned)
    (h : ∀ i ∈ indices, i < s.types.length) (r : Row) :
    (do
      let p ← Abort.ofExcept (s.projectRow r)
      indices.mapM (Abort.item p.row) : Except (Abort MergeError) Row) =
      Abort.ofExcept ((s.projectRow r).map fun p => indices.map p.row.cell) := by
  rcases hp : s.projectRow r with e | p
  · rfl
  · have hfits := (fits_of_row_projectRow hs (map_eq_ok_iff.mpr ⟨p, hp, rfl⟩)).1
    exact Row.mapM_item fun i hi => hfits.length_eq ▸ h i hi

namespace Section

variable {rows : List Row} {t : ColumnType} {ts : List ColumnType} {first : Nat}

theorem columns_cons (h : ∀ r ∈ rows, first + (t :: ts).length ≤ r.length) :
    (∀ r ∈ rows, first < r.length) ∧ ∀ r ∈ rows, first + 1 + ts.length ≤ r.length := by
  rw [← forall₂_and]
  intro r hr
  have hlength := h r hr
  rw [List.length_cons] at hlength
  omega

/-- No column is missed in rows that have them all. -/
theorem encodeAll_ne_outside (h : ∀ r ∈ rows, first + ts.length ≤ r.length) (pool : Bytes)
    (i n : Nat) : encodeAll rows first pool ts ≠ .error (.outside i n) := by
  induction ts generalizing first pool with
  | nil => simp [encodeAll]
  | cons t ts ih =>
    obtain ⟨hfirst, hrest⟩ := columns_cons h
    rw [encodeAll, Row.mapM_item_column hfirst]
    intro herror
    rcases bind_eq_error_iff.mp herror with hlookup | ⟨cells, -, herror⟩
    · cases hlookup
    rcases bind_eq_error_iff.mp herror with hslots | ⟨⟨slots, pool'⟩, -, herror⟩
    · exact Abort.ofExcept_ne_outside hslots
    rcases bind_eq_error_iff.mp herror with hsections | ⟨_, -, hdone⟩
    · exact ih hrest pool' hsections
    · cases hdone

end Section

/-- The rows of a payload come from the sections in turn, if every name has its own. -/
theorem Payload.row_eq {p : Payload} (hs : p.schema.Aligned)
    (hsections : p.sections.length = p.schema.types.length) {i : Nat} (hi : i < p.rowCount) :
    p.row i = Abort.ofExcept ((p.schema.types.zip p.sections).mapM fun (t, s) => p.cell t s i) := by
  have hlength : p.schema.length = (p.schema.types.zip p.sections).length := by
    rw [List.length_zip, hsections, Nat.min_self]
    exact hs
  rw [row, if_pos hi, ← Abort.mapM_ofExcept, hlength]
  apply mapM_range_eq
  rintro j ⟨t, s⟩ hj
  rw [Abort.item_eq_ok_iff.mpr hj]
  rfl

end SelectMerge
