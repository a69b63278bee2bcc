import SelectMerge.Proofs.Outcome
import SelectMerge.Proofs.Schema.Cover
import SelectMerge.Rank.RowOrder

/-!
# Rows and orders under a schema

A row made under a schema has a cell of the declared type for every column (`Schema.Fits`), and such
cells are their own cast (`cast?_of_fits`). Whether an order is valid depends on how many columns
there are and which of them can be sorted by, so an order that one schema allows is allowed by every
schema that agrees with it (`validate_of_agrees`).
-/

namespace SelectMerge

/-! ## Cells and rows -/

namespace Cell

variable {c : Cell} {t : ColumnType}

theorem cast?_of_fits (h : c.fits t) : c.cast? t = some c := by
  cases c with
  | null => rfl
  | one s x =>
    obtain rfl : ColumnType.one s = t := by simpa [fits, type?] using h
    cases s <;> rfl
  | many s xs =>
    obtain rfl : ColumnType.many s = t := by simpa [fits, type?] using h
    have hid : s.elementConversion? s = some fun x => x := by cases s <;> rfl
    simp [cast?, hid]

end Cell

theorem Row.cell_of_getElem? {r : Row} {i : Nat} {c : Cell} (h : r[i]? = some c) :
    r.cell i = c := by
  simp [Row.cell, h]

namespace Schema

/-- Whether the row has a cell for every column, null or of the column's type. -/
def Fits (s : Schema) (r : Row) : Prop := List.Forall₂ (fun c t => c.fits t) r s.types

end Schema

/-! ## Orders -/

namespace RowOrder

variable {o : RowOrder} {s u : Schema}

theorem validate_eq_ok_iff : o.validate s = .ok () ↔ ∀ key ∈ o.keys,
    ∃ name t, s.names[key.column]? = some name ∧ s.types[key.column]? = some t ∧
      t.isOrderable := by
  rw [validate, forM_eq_ok_iff]
  refine forall₂_congr fun key _ => ?_
  cases s.names[key.column]? <;> cases s.types[key.column]? <;> simp

theorem validate_of_compatible (hnames : s.names.length = u.names.length)
    (htypes : List.Forall₂ (fun s t => s.isCompatible t) s.types u.types)
    (hs : o.validate s = .ok ()) : o.validate u = .ok () := by
  rw [validate_eq_ok_iff] at hs ⊢
  intro key hkey
  obtain ⟨name, t, hname, ht, horderable⟩ := hs key hkey
  obtain ⟨hnamed, -⟩ := List.getElem?_eq_some_iff.mp hname
  obtain ⟨hlt, rfl⟩ := List.getElem?_eq_some_iff.mp ht
  have hlt' : key.column < u.types.length := htypes.length_eq ▸ hlt
  have hcomp := (List.forall₂_iff_get.mp htypes).2 key.column hlt hlt'
  exact ⟨_, _, List.getElem?_eq_getElem (hnames ▸ hnamed), List.getElem?_eq_getElem hlt',
    ColumnType.isOrderable_of_isCompatible hcomp horderable⟩

theorem validate_of_agrees (hsu : s.Agrees u) (hs : o.validate s = .ok ()) :
    o.validate u = .ok () :=
  validate_of_compatible (congrArg List.length hsu.names) hsu.types hs

end RowOrder

end SelectMerge
