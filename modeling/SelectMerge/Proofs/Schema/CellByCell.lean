import SelectMerge.Proofs.Schema.Casting

/-!
# Projection cell by cell

A row is projected by casting each of its cells, and it makes no difference that one which is of the
declared types already is handed on as it is (`projectRow_eq_kept_iff`, `projectRow_row`). So a row
is refused for nothing but how many cells it has or a cell of a type that does not widen to the
column's (`exists_projectRow_iff`), and the error is about the leftmost of these cells (`Refuses`).
Of many rows the first that is refused decides (`project_eq_error_iff`). `projects_cell_by_cell`
collects these.
-/

namespace SelectMerge

namespace Cell

variable {c : Cell} {t : ColumnType} {e : MergeError}

theorem exists_castTo_iff : (∃ c', c.castTo t = .ok c') ↔ c.type?.all (·.widensTo t) := by
  simp only [castTo_eq_ok_iff, ← isSome_cast?, Option.isSome_iff_exists]

theorem castTo_eq_error_iff : c.castTo t = .error e ↔
    ∃ source, c.type? = some source ∧ ¬ source.widensTo t ∧ e = .unsupportedCast source t := by
  have hwiden := c.isSome_cast? t
  rw [castTo]
  cases hcast : c.cast? t with
  | some c' =>
    rw [hcast] at hwiden
    constructor
    · intro h
      cases h
    · rintro ⟨source, hsource, hnot, -⟩
      rw [hsource] at hwiden
      exact absurd hwiden.symm hnot
  | none =>
    rw [hcast] at hwiden
    cases htype : c.type? with
    | none =>
      rw [htype] at hwiden
      cases hwiden
    | some source =>
      rw [htype] at hwiden
      have hnot : ¬ source.widensTo t := Bool.eq_false_iff.mp hwiden.symm
      constructor
      · intro h
        obtain rfl := Except.error.inj h
        exact ⟨source, rfl, hnot, rfl⟩
      · rintro ⟨_, hsource, -, rfl⟩
        cases hsource
        rfl

end Cell

namespace Schema

variable {s : Schema} {r : Row} {rows rows' : List Row} {e : MergeError}

/-! ## One row -/

/-- The errors that a row is refused with: that of its length, or else that of the first cell whose
type does not widen to the column's. -/
inductive Refuses (s : Schema) (r : Row) : MergeError → Prop where
  | arity (hlen : r.length ≠ s.length) : Refuses s r (.rowArity s.length r.length)
  | cell {before after : List (Cell × ColumnType)} {c : Cell} {source t : ColumnType}
      (hlen : r.length = s.length) (hrow : r.zip s.types = before ++ (c, t) :: after)
      (hbefore : ∀ p ∈ before, p.1.type?.all (·.widensTo p.2)) (htype : c.type? = some source)
      (hnot : ¬ source.widensTo t) : Refuses s r (.unsupportedCast source t)

theorem castCells_eq_error_iff {ts : List ColumnType} : castCells r ts = .error e ↔
    ∃ before c t after, r.zip ts = before ++ (c, t) :: after ∧
      (∀ p ∈ before, p.1.type?.all (·.widensTo p.2)) ∧ c.castTo t = .error e := by
  rw [castCells_eq_mapM, mapM_eq_error_iff]
  simp only [Prod.exists, Cell.exists_castTo_iff]

theorem projectRow_eq_error_iff : s.projectRow r = .error e ↔ s.Refuses r e := by
  rw [projectRow]
  constructor
  · intro h
    split at h
    · rename_i hlen
      obtain rfl := Except.error.inj h
      exact .arity hlen
    · rename_i hlen
      split at h
      · cases h
      · have hcast : castCells r s.types = .error e := map_eq_error_iff.mp h
        obtain ⟨before, c, t, after, hrow, hbefore, hc⟩ := castCells_eq_error_iff.mp hcast
        obtain ⟨source, htype, hnot, rfl⟩ := Cell.castTo_eq_error_iff.mp hc
        exact .cell (not_not.mp hlen) hrow hbefore htype hnot
  · intro h
    cases h with
    | arity hlen => exact if_pos hlen
    | @cell before after c source t hlen hrow hbefore htype hnot =>
      have hc : c.castTo t = .error (.unsupportedCast source t) :=
        Cell.castTo_eq_error_iff.mpr ⟨source, htype, hnot, rfl⟩
      rw [if_neg (not_not.mpr hlen)]
      split
      · -- the row is not handed on: a cell of the column's type would widen to it
        rename_i hall
        have hfit : c.fits t := List.all_eq_true.mp hall (c, t) (by simp [hrow])
        rw [Cell.castTo_eq_ok_iff.mpr (Cell.cast?_of_fits hfit)] at hc
        cases hc
      · exact map_eq_error_iff.mpr
          (castCells_eq_error_iff.mpr ⟨before, c, t, after, hrow, hbefore, hc⟩)

theorem exists_projectRow_iff (hs : s.Aligned) : (∃ p, s.projectRow r = .ok p) ↔ s.Admits r := by
  constructor
  · rintro ⟨p, hp⟩
    obtain ⟨hlen, hcells⟩ := (row_projectRow_eq_ok_iff hs).mp (map_eq_ok_iff.mpr ⟨p, hp, rfl⟩)
    have hcast := castCells_eq_ok_iff.mpr hcells
    rw [castCells_eq_mapM] at hcast
    refine List.forall₂_iff_zip.mpr ⟨hlen.trans hs, ?_⟩
    intro c t hct
    obtain ⟨c', -, hc'⟩ := (exists_of_mapM_eq_ok hcast).1 (c, t) hct
    exact Cell.exists_castTo_iff.mp ⟨c', hc'⟩
  · intro h
    obtain ⟨r', hr'⟩ := Admits.exists_cast? h
    have hlen : r.length = s.length := h.length_eq.trans hs.symm
    obtain ⟨p, hp, -⟩ := map_eq_ok_iff.mp ((row_projectRow_eq_ok_iff hs).mpr ⟨hlen, hr'⟩)
    exact ⟨p, hp⟩

theorem projectRow_eq_kept_iff (hs : s.Aligned) : s.projectRow r = .ok (.kept r) ↔ s.Fits r := by
  rw [projectRow]
  by_cases hlen : r.length = s.length
  · rw [if_neg (not_not.mpr hlen), Fits, ← all_fits_iff (hlen.trans hs)]
    split
    · rename_i hall
      exact iff_of_true rfl hall
    · rename_i hall
      refine iff_of_false ?_ hall
      intro h
      obtain ⟨r', -, hr'⟩ := map_eq_ok_iff.mp h
      cases hr'
  · rw [if_pos hlen]
    constructor
    · intro h
      cases h
    · intro hfits
      exact absurd (hfits.length_eq.trans hs.symm) hlen

theorem projectRow_row {p : ProjectedRow} (hs : s.Aligned) (h : s.projectRow r = .ok p) :
    s.Fits p.row ∧ s.projectRow p.row = .ok (.kept p.row) := by
  obtain ⟨hfits, -⟩ := fits_of_row_projectRow hs (map_eq_ok_iff.mpr ⟨p, h, rfl⟩)
  exact ⟨hfits, (projectRow_eq_kept_iff hs).mpr hfits⟩

/-! ## Many rows -/

theorem project_eq_ok_iff : s.project rows = .ok rows' ↔
    List.Forall₂ (fun r r' => ∃ p, s.projectRow r = .ok p ∧ p.row = r') rows rows' := by
  rw [project, mapM_eq_ok_iff]
  simp only [map_eq_ok_iff]

/-- Rows are refused with the error of the first of them that is. -/
theorem project_eq_error_iff : s.project rows = .error e ↔
    ∃ before r after, rows = before ++ r :: after ∧ (∀ r' ∈ before, ∃ p, s.projectRow r' = .ok p) ∧
      s.projectRow r = .error e := by
  have hok : ∀ r, (∃ r', (s.projectRow r).map (·.row) = .ok r') ↔ ∃ p, s.projectRow r = .ok p := by
    intro r
    simp [map_eq_ok_iff]
  rw [project, mapM_eq_error_iff]
  simp only [hok, map_eq_error_iff]

theorem exists_project_iff :
    (∃ rows', s.project rows = .ok rows') ↔ ∀ r ∈ rows, ∃ p, s.projectRow r = .ok p := by
  constructor
  · rintro ⟨rows', h⟩ r hr
    obtain ⟨r', -, hr'⟩ := (exists_of_mapM_eq_ok h).1 r hr
    obtain ⟨p, hp, -⟩ := map_eq_ok_iff.mp hr'
    exact ⟨p, hp⟩
  · intro h
    apply exists_mapM_eq_ok
    intro r hr
    obtain ⟨p, hp⟩ := h r hr
    exact ⟨p.row, map_eq_ok_iff.mpr ⟨p, hp, rfl⟩⟩

/-- Rows are projected cell by cell, and refused by their first cell that cannot be cast. -/
theorem projects_cell_by_cell (hs : s.Aligned) :
    (∀ r, (∃ p, s.projectRow r = .ok p) ↔ s.Admits r) ∧
    (∀ r p, s.projectRow r = .ok p →
      (r.zip s.types).mapM (fun (c, t) => c.castTo t) = .ok p.row ∧ (p = .kept r ↔ s.Fits r) ∧
        s.Fits p.row ∧ s.projectRow p.row = .ok (.kept p.row)) ∧
    (∀ r e, s.projectRow r = .error e ↔ s.Refuses r e) ∧
    (∀ rows, (∃ rows', s.project rows = .ok rows') ↔ ∀ r ∈ rows, ∃ p, s.projectRow r = .ok p) ∧
    (∀ rows rows', s.project rows = .ok rows' ↔
      List.Forall₂ (fun r r' => ∃ p, s.projectRow r = .ok p ∧ p.row = r') rows rows') ∧
    ∀ rows e, s.project rows = .error e ↔ ∃ before r after, rows = before ++ r :: after ∧
      (∀ r' ∈ before, ∃ p, s.projectRow r' = .ok p) ∧ s.projectRow r = .error e := by
  refine ⟨fun r => exists_projectRow_iff hs, ?_, fun r e => projectRow_eq_error_iff,
    fun rows => exists_project_iff, fun rows rows' => project_eq_ok_iff,
    fun rows e => project_eq_error_iff⟩
  intro r p hp
  have hadmits : s.Admits r := (exists_projectRow_iff hs).mp ⟨p, hp⟩
  have hlen : r.length = s.length := hadmits.length_eq.trans hs.symm
  have hcells : (s.projectRow r).map (·.row) = .ok p.row := map_eq_ok_iff.mpr ⟨p, hp, rfl⟩
  rw [row_projectRow hs, if_pos hlen] at hcells
  have hkept : p = .kept r ↔ s.Fits r := by
    rw [← projectRow_eq_kept_iff hs, hp, Except.ok.injEq]
  exact ⟨hcells, hkept, projectRow_row hs hp⟩

/-! ### Two readings -/

/-- A number and a flag, some samples and a label. -/
def measures : Schema :=
  ofColumns [("id", .one .long), ("level", .one .double), ("samples", .many .double),
    ("label", .one .string)]

/-- A reading of narrower types, without a label. -/
def reading : Row := [.int 7, .boolean true, .many .int ([16777217, -3] : List Int32), .null]

/-- A reading with two cells that cannot be cast. -/
def misread : Row := [.null, .int 2, .many .boolean ([true] : List Bool), .int 5]

theorem projects_cell_by_cell_measures :
    measures.Aligned ∧ (∃ p, measures.projectRow reading = .ok p ∧ p ≠ .kept reading ∧
      measures.Fits p.row ∧ measures.projectRow p.row = .ok (.kept p.row)) ∧
    measures.Refuses misread (.unsupportedCast (.many .boolean) (.many .double)) ∧
    measures.project [reading, misread, []] =
      .error (.unsupportedCast (.many .boolean) (.many .double)) := by
  have haligned : measures.Aligned := by decide
  obtain ⟨hadmits, hcells, hrefuses, -, -, herror⟩ := projects_cell_by_cell haligned
  have hreading : measures.Admits reading := by
    simp [Admits, measures, reading, ofColumns, Cell.type?, ColumnType.widensTo, Scalar.covers,
      Scalar.isNumber, Scalar.rank?]
  have hmisread : measures.projectRow misread =
      .error (.unsupportedCast (.many .boolean) (.many .double)) := rfl
  obtain ⟨p, hp⟩ := (hadmits reading).mpr hreading
  obtain ⟨-, hkept, hfits, hself⟩ := hcells reading p hp
  refine ⟨haligned, ⟨p, hp, ?_, hfits, hself⟩, (hrefuses _ _).mp hmisread,
    (herror _ _).mpr ⟨[reading], misread, [[]], rfl, by simp [hp], hmisread⟩⟩
  rw [ne_eq, hkept]
  simp [Fits, measures, reading, ofColumns, Cell.fits, Cell.type?]

end Schema

end SelectMerge
