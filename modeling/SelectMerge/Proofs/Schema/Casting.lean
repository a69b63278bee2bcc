import SelectMerge.Proofs.Outcome
import SelectMerge.Proofs.Schema.Projection

/-!
# Projection as a cast of every cell

Handing a row on as it is and casting it come to the same (`row_projectRow`): a projected row has
each cell cast to the type of its column (`row_projectRow_eq_ok_iff`), so nulls stay, all other
cells are of the declared types (`fits_of_row_projectRow`), and a row can be projected as soon as
the type of each of its cells widens to the column's (`Admits`, `exists_project`).
-/

namespace SelectMerge

namespace Cell

variable {c c' : Cell} {t : ColumnType}

theorem fits_of_cast? (h : c.cast? t = some c') : c'.fits t ∧ c'.isNull = c.isNull := by
  cases c with
  | null => cases h; exact ⟨rfl, rfl⟩
  | one s x =>
    cases t with
    | many t => cases h
    | one t =>
      obtain ⟨f, -, rfl⟩ := Option.map_eq_some_iff.mp h
      exact ⟨by simp [fits, type?], rfl⟩
  | many s xs =>
    cases t with
    | one t => cases h
    | many t =>
      obtain ⟨f, -, rfl⟩ := Option.map_eq_some_iff.mp h
      exact ⟨by simp [fits, type?], rfl⟩

theorem castTo_eq_ok_iff : c.castTo t = .ok c' ↔ c.cast? t = some c' := by
  rw [castTo]
  cases c.cast? t <;> simp

end Cell

namespace Schema

variable {s u : Schema} {r r' : Row} {ts : List ColumnType}

/-! ## Rows that can be cast -/

/-- Whether the row has a cell for every column, null or of a type that widens to the column's. -/
def Admits (u : Schema) (r : Row) : Prop :=
  List.Forall₂ (fun c t => c.type?.all (·.widensTo t)) r u.types

theorem Admits.widen (h : s.Admits r) (hsu : List.Forall₂ (fun s t => s.widensTo t) s.types u.types) :
    u.Admits r := by
  refine forall₂_comp h hsu ?_
  intro c t t' hc ht
  cases hty : c.type? with
  | none => rfl
  | some t₀ =>
    rw [hty] at hc
    exact ColumnType.widensTo_trans hc ht

theorem Fits.admits (h : s.Fits r) : s.Admits r := by
  refine List.Forall₂.imp ?_ h
  intro c t hc
  cases hty : c.type? with
  | none => rfl
  | some t₀ =>
    obtain rfl : t₀ = t := by simpa [Cell.fits, hty] using hc
    exact t₀.widensTo_self

/-! ## What projection gives -/

theorem castCells_eq_mapM (r : Row) (ts : List ColumnType) :
    castCells r ts = (r.zip ts).mapM fun (c, t) => c.castTo t := by
  induction r generalizing ts with
  | nil => rfl
  | cons c r ih =>
    cases ts with
    | nil => rfl
    | cons t ts => rw [castCells, List.zip_cons_cons, List.mapM_cons, ih]

theorem castCells_eq_ok_iff : castCells r ts = .ok r' ↔
    List.Forall₂ (fun p c => p.1.cast? p.2 = some c) (List.zip r ts) r' := by
  rw [castCells_eq_mapM, mapM_eq_ok_iff]
  simp only [Cell.castTo_eq_ok_iff]

theorem all_fits_iff (hlen : r.length = ts.length) :
    ((r.zip ts).all fun (c, t) => c.fits t) ↔ List.Forall₂ (fun c t => c.fits t) r ts := by
  rw [List.all_eq_true, List.forall₂_iff_zip]
  constructor
  · intro h
    exact ⟨hlen, fun hct => h _ hct⟩
  · rintro ⟨-, h⟩ ⟨c, t⟩ hct
    exact h hct

theorem forall₂_cast?_of_fits (h : List.Forall₂ (fun c t => c.fits t) r ts) :
    List.Forall₂ (fun p c => p.1.cast? p.2 = some c) (List.zip r ts) r := by
  induction h with
  | nil => exact .nil
  | cons hc _ ih => exact .cons (Cell.cast?_of_fits hc) ih

/-- Whether a row is handed on or made anew, what comes of it is each of its cells cast. -/
theorem row_projectRow (hs : s.Aligned) (r : Row) : (s.projectRow r).map (·.row) =
    if r.length = s.length then (r.zip s.types).mapM fun (c, t) => c.castTo t
    else .error (.rowArity s.length r.length) := by
  rw [projectRow, ← castCells_eq_mapM]
  by_cases hlen : r.length = s.length
  · rw [if_neg (not_not.mpr hlen), if_pos hlen]
    split
    · -- a row that is handed on is its own cast
      rename_i hfits
      have hself := forall₂_cast?_of_fits ((all_fits_iff (hlen.trans hs)).mp hfits)
      exact (castCells_eq_ok_iff.mpr hself).symm
    · cases castCells r s.types <;> rfl
  · rw [if_pos hlen, if_neg hlen]
    rfl

theorem row_projectRow_eq_ok_iff (hs : s.Aligned) : (s.projectRow r).map (·.row) = .ok r' ↔
    r.length = s.length ∧ List.Forall₂ (fun p c => p.1.cast? p.2 = some c) (List.zip r s.types) r' := by
  rw [row_projectRow hs, ← castCells_eq_mapM, ← castCells_eq_ok_iff]
  split <;> simp [*]

theorem forall₂_fits_of_cast? (hlen : r.length = ts.length)
    (h : List.Forall₂ (fun p c => p.1.cast? p.2 = some c) (List.zip r ts) r') :
    List.Forall₂ (fun c t => c.fits t) r' ts ∧ r'.map Cell.isNull = r.map Cell.isNull := by
  induction r generalizing ts r' with
  | nil =>
    obtain rfl : ts = [] := List.length_eq_zero_iff.mp hlen.symm
    cases h
    exact ⟨.nil, rfl⟩
  | cons c r ih =>
    cases ts with
    | nil => cases hlen
    | cons t ts =>
      cases h with
      | cons hhead htail =>
        obtain ⟨hfit, hnull⟩ := Cell.fits_of_cast? hhead
        obtain ⟨hfits, hnulls⟩ := ih (by simpa using hlen) htail
        exact ⟨.cons hfit hfits, by rw [List.map_cons, List.map_cons, hnull, hnulls]⟩

theorem fits_of_row_projectRow (hs : s.Aligned) (h : (s.projectRow r).map (·.row) = .ok r') :
    s.Fits r' ∧ r'.map Cell.isNull = r.map Cell.isNull := by
  obtain ⟨hlen, hcells⟩ := (row_projectRow_eq_ok_iff hs).mp h
  exact forall₂_fits_of_cast? (hlen.trans hs) hcells

theorem fits_of_project {rows rows' : List Row} (hs : s.Aligned) (h : s.project rows = .ok rows') :
    List.Forall₂ (fun r r' => s.Fits r' ∧ r'.map Cell.isNull = r.map Cell.isNull) rows rows' :=
  (mapM_eq_ok_iff.mp h).imp fun _ _ => fits_of_row_projectRow hs

theorem forall_fits_of_project {rows rows' : List Row} (hs : s.Aligned)
    (h : s.project rows = .ok rows') : ∀ r ∈ rows', s.Fits r := by
  intro r' hr'
  obtain ⟨r, -, hr⟩ := (exists_of_mapM_eq_ok h).2 r' hr'
  exact (fits_of_row_projectRow hs hr).1

theorem project_of_fits {rows : List Row} (hs : s.Aligned)
    (h : ∀ r ∈ rows, s.Fits r) : s.project rows = .ok rows := by
  rw [project, mapM_eq_ok_iff, List.forall₂_same]
  intro r hr
  have hlen : r.length = s.length := (h r hr).length_eq.trans hs.symm
  exact (row_projectRow_eq_ok_iff hs).mpr ⟨hlen, forall₂_cast?_of_fits (h r hr)⟩

/-! ## Rows that are projected -/

theorem Admits.exists_cast? (h : List.Forall₂ (fun c t => c.type?.all (·.widensTo t)) r ts) :
    ∃ r', List.Forall₂ (fun p c => p.1.cast? p.2 = some c) (List.zip r ts) r' := by
  induction h with
  | nil => exact ⟨[], .nil⟩
  | @cons c t r ts hc _ ih =>
    obtain ⟨c', hc'⟩ := Option.isSome_iff_exists.mp ((c.isSome_cast? t).trans hc)
    obtain ⟨r', hr'⟩ := ih
    exact ⟨c' :: r', .cons hc' hr'⟩

theorem cast?_cell_of_projectRow (hu : u.Aligned) (h : (u.projectRow r).map (·.row) = .ok r')
    {i : Nat} {t : ColumnType} (ht : u.types[i]? = some t) :
    (r.cell i).cast? t = some (r'.cell i) := by
  obtain ⟨hlen, hcells⟩ := (row_projectRow_eq_ok_iff hu).mp h
  have hlt : i < r.length := hlen.trans hu ▸ (List.getElem?_eq_some_iff.mp ht).1
  have hzip : (r.zip u.types)[i]? = some (r[i], t) := by simp [List.getElem?_zip_eq_some, ht]
  obtain ⟨hlt', hcell⟩ := List.getElem?_eq_some_iff.mp hzip
  have hcast := (List.forall₂_iff_get.mp hcells).2 i hlt' (hcells.length_eq ▸ hlt')
  rw [List.get_eq_getElem, hcell] at hcast
  rw [Row.cell_of_getElem? (List.getElem?_eq_getElem hlt), hcast]
  exact congrArg some (Row.cell_of_getElem? (List.getElem?_eq_getElem _)).symm

theorem exists_projectRow (hu : u.Aligned) (hsu : s.WidensTo u) (hr : s.Fits r) :
    ∃ p, u.projectRow r = .ok p ∧
      ∀ (i : Nat) t, u.types[i]? = some t → (r.cell i).cast? t = some (p.row.cell i) := by
  have hadmits : u.Admits r := hr.admits.widen hsu.types
  obtain ⟨r', hr'⟩ := Admits.exists_cast? hadmits
  have hproject := (row_projectRow_eq_ok_iff hu).mpr ⟨hadmits.length_eq.trans hu.symm, hr'⟩
  obtain ⟨p, hp, rfl⟩ := map_eq_ok_iff.mp hproject
  exact ⟨p, hp, fun i t => cast?_cell_of_projectRow hu hproject⟩

/-- Rows of which every cell's type widens to its column's can be projected. -/
theorem exists_project {rows : List Row} (hs : s.Aligned) (h : ∀ r ∈ rows, s.Admits r) :
    ∃ rows', s.project rows = .ok rows' := by
  apply exists_mapM_eq_ok
  intro r hr
  obtain ⟨r', hr'⟩ := Admits.exists_cast? (h r hr)
  have hlen : r.length = s.length := (h r hr).length_eq.trans hs.symm
  exact ⟨r', (row_projectRow_eq_ok_iff hs).mpr ⟨hlen, hr'⟩⟩

end Schema

end SelectMerge
