import SelectMerge.Proofs.Schema.Casting
import SelectMerge.Proofs.Wire.Columns

/-!
# Tables and back

Rows that can be projected can be encoded, and a table gives back its schema and the projected rows,
whether it is read as it was made or from its bytes (`ofRows_iff_project`).

`Payload.Stores` says that a payload holds rows column by column. Projected rows fit their schema,
so that they can be written (`Section.exists_encodeAll`) and the payload stores them; from a payload
that stores rows they are read (`Stores.rows_eq_ok`), and its bytes are taken apart into the same
payload (`exists_ofRows`). `FitsWire` and `Cell.Survives` have what is asked of sizes and of
documents.
-/

namespace SelectMerge

open Decoder

/-! ## Documents -/

theorem Cell.survives_of_cast? {c c' : Cell} {t : ColumnType} (hc : c.Survives)
    (h : c.cast? t = some c') : c'.Survives := by
  cases c with
  | null =>
    cases h
    exact trivial
  | one s x =>
    cases t with
    | many t => cases h
    | one t =>
      obtain ⟨f, hf, rfl⟩ := Option.map_eq_some_iff.mp h
      -- documents are cast to documents only, and stay as they are
      cases t with
      | object =>
        cases s <;> cases hf
        exact hc
      | int | long | float | double | boolean | string | bytes | timestamp => exact trivial
  | many s xs =>
    cases t with
    | one t => cases h
    | many t =>
      obtain ⟨f, hf, rfl⟩ := Option.map_eq_some_iff.mp h
      intro y hy
      obtain ⟨x, hx, rfl⟩ := List.mem_map.mp hy
      cases t with
      | object =>
        cases s <;> cases hf
        exact hc x hx
      | int | long | float | double | boolean | string | bytes | timestamp => exact trivial

theorem survives_cell {r : Row} (h : ∀ c ∈ r, c.Survives) (j : Nat) : (r.cell j).Survives := by
  rw [Row.cell, List.getD_eq_getElem?_getD]
  cases hj : r[j]? with
  | none => exact trivial
  | some c => exact h c (List.mem_of_getElem? hj)

theorem Cell.survives_of_fits {r : Row} {ts : List ColumnType}
    (hr : List.Forall₂ (fun c t => Cell.fits t c) r ts)
    (hts : ∀ t ∈ ts, t ≠ .one .object ∧ t ≠ .many .object) : ∀ c ∈ r, c.Survives := by
  induction hr with
  | nil => simp
  | @cons c t r ts hc _ ih =>
    obtain ⟨ht, hts⟩ := List.forall_mem_cons.mp hts
    refine List.forall_mem_cons.mpr ⟨?_, ih hts⟩
    cases c with
    | null => trivial
    | one s x =>
      obtain rfl : ColumnType.one s = t := by simpa [Cell.fits, Cell.type?] using hc
      cases s
      case object => exact absurd rfl ht.1
      all_goals trivial
    | many s xs =>
      obtain rfl : ColumnType.many s = t := by simpa [Cell.fits, Cell.type?] using hc
      cases s
      case object => exact absurd rfl ht.2
      all_goals exact fun _ _ => trivial

namespace Schema

variable {s : Schema} {rows rows' : List Row}

theorem survives_of_project (hs : s.Aligned) (h : s.project rows = .ok rows')
    (hc : ∀ r ∈ rows, ∀ c ∈ r, c.Survives) : ∀ r ∈ rows', ∀ c ∈ r, c.Survives := by
  have hall := mapM_eq_ok_iff.mp h
  clear h
  induction hall with
  | nil => simp
  | @cons r r' rows rows' hr _ ih =>
    obtain ⟨hrow, hrows⟩ := List.forall_mem_cons.mp hc
    refine List.forall_mem_cons.mpr ⟨?_, ih hrows⟩
    obtain ⟨-, hcells⟩ := (row_projectRow_eq_ok_iff hs).mp hr
    intro c' hc'
    obtain ⟨i, hi, rfl⟩ := List.getElem_of_mem hc'
    obtain ⟨hlen, hcast⟩ := List.forall₂_iff_get.mp hcells
    have hzip := hcast i (hlen ▸ hi) hi
    exact Cell.survives_of_cast? (hrow _ (List.of_mem_zip (List.get_mem _ _)).1) hzip

end Schema

/-! ## Writing and reading -/

namespace Payload

variable {s : Schema} {rows rows' : List Row} {p : Payload}

/-- Whether lengths on the wire can tell the numbers of columns and of rows, and the sizes of the
names and of the pool. -/
structure FitsWire (s : Schema) (rows : List Row) : Prop where
  columns : s.length ≤ wireLimit
  names : ∀ name ∈ s.names, (Bytes.ofText name).length ≤ wireLimit
  count : rows.length ≤ wireLimit
  pool : Section.poolSize rows 0 s.types ≤ wireLimit

theorem reads_sections {ts : List ColumnType} {sections : List Section} {n : Nat}
    (hlen : sections.length = ts.length)
    (h : ∀ (j : Nat) t s, ts[j]? = some t → sections[j]? = some s →
      (decodeSection n t).Reads (s.nulls ++ s.slots) s) :
    (ts.mapM (decodeSection n)).Reads (sections.flatMap fun s => s.nulls ++ s.slots) sections := by
  induction ts generalizing sections with
  | nil =>
    obtain rfl := List.length_eq_zero_iff.mp hlen
    exact reads_pure []
  | cons t ts ih =>
    cases sections with
    | nil => cases hlen
    | cons s sections =>
      rw [List.mapM_cons, List.flatMap_cons]
      apply (h 0 t s rfl rfl).bind
      exact (ih (by simpa using hlen) fun j t' s' ht' hs' => h (j + 1) t' s' ht' hs').map
        fun sections => s :: sections

/-- Whether a payload holds rows column by column. -/
structure Stores (p : Payload) (rows : List Row) : Prop where
  count : p.rowCount = rows.length
  columns : p.sections.length = p.schema.types.length
  cells : ∀ (j : Nat) t s, p.schema.types[j]? = some t → p.sections[j]? = some s →
    s.Holds t p.pool (rows.map fun r => r.cell j)

theorem Stores.row_eq_ok (hs : p.schema.Aligned) (h : p.Stores rows)
    (hfit : ∀ r ∈ rows, p.schema.Fits r) {i : Nat} (hi : i < rows.length) :
    p.row i = .ok rows[i] := by
  have hlen : rows[i].length = p.schema.types.length := (hfit _ (List.getElem_mem hi)).length_eq
  rw [row_eq hs h.columns (h.count ▸ hi), Abort.ofExcept_eq_ok_iff, mapM_eq_ok_iff,
    List.forall₂_iff_get]
  refine ⟨by rw [List.length_zip, h.columns, Nat.min_self, hlen], ?_⟩
  intro j hj hj'
  have hjs : j < p.sections.length := h.columns ▸ hlen ▸ hj'
  have hjt : j < p.schema.types.length := hlen ▸ hj'
  have hholds := h.cells j _ _ (List.getElem?_eq_getElem hjt) (List.getElem?_eq_getElem hjs)
  have hi' : i < (rows.map fun r => r.cell j).length := by rwa [List.length_map]
  have hcell := hholds.cell_eq_ok hi'
  rw [List.getElem_map, Row.cell_of_getElem? (List.getElem?_eq_getElem hj')] at hcell
  simpa using hcell

theorem Stores.rows_eq_ok (hs : p.schema.Aligned) (h : p.Stores rows)
    (hfit : ∀ r ∈ rows, p.schema.Fits r) : p.rows = .ok rows := by
  rw [Payload.rows, mapM_eq_ok_iff, List.forall₂_iff_get, h.count]
  refine ⟨List.length_range, ?_⟩
  intro i hi hi'
  simpa using h.row_eq_ok hs hfit hi'

theorem Stores.forM_checkPlaces (h : p.Stores rows) :
    ((p.schema.types.zip p.sections).forM fun (t, s) =>
      if t.width?.isSome then Except.ok () else checkPlaces rows.length p.pool s) = .ok () := by
  rw [forM_eq_ok_iff]
  rintro ⟨t, s⟩ hts
  obtain ⟨j, hj⟩ := List.mem_iff_getElem?.mp hts
  obtain ⟨ht, hs⟩ := List.getElem?_zip_eq_some.mp hj
  cases hwidth : t.width? with
  | some width => simp only [hwidth, Option.isSome_some, if_true]
  | none =>
    have hcheck := (h.cells j t s ht hs).checkPlaces_eq_ok hwidth
    rw [List.length_map] at hcheck
    simpa only [hwidth, Option.isSome_none, Bool.false_eq_true, if_false] using hcheck

theorem exists_ofRows (hs : s.Aligned) (h : s.project rows = .ok rows')
    (hc : ∀ r ∈ rows', ∀ c ∈ r, c.Survives) (hsize : FitsWire s rows') :
    ∃ p, ofRows s rows = .ok p ∧ p.schema = s ∧ p.Stores rows' ∧ ofBytes p.bytes = .ok p := by
  have hcells : ∀ r ∈ rows', ∀ (j : Nat) t, s.types[j]? = some t → (r.cell (0 + j)).fits t := by
    intro r hr j t ht
    obtain ⟨hlen, hfits⟩ := List.forall₂_iff_get.mp (Schema.forall_fits_of_project hs h r hr)
    obtain ⟨hjt, rfl⟩ := List.getElem?_eq_some_iff.mp ht
    have hjr : j < r.length := hlen ▸ hjt
    rw [Nat.zero_add, Row.cell_of_getElem? (List.getElem?_eq_getElem hjr)]
    exact hfits j hjr hjt
  have hcolumns : ∀ r ∈ rows', 0 + s.types.length ≤ r.length := fun r hr => by
    rw [Nat.zero_add, (Schema.forall_fits_of_project hs h r hr).length_eq]
  obtain ⟨header, hheader, hreads⟩ := Schema.exists_encode hs hsize.columns hsize.names
  obtain ⟨sections, pool, hsections, hpool, hcount, hholds⟩ :=
    Section.exists_encodeAll 0 [] hcolumns hcells (fun r hr => survives_cell (hc r hr))
      (by simpa using hsize.pool)
  simp only [Nat.zero_add, List.nil_append] at hsections hholds
  have hpoolLength : pool.length ≤ wireLimit := hpool ▸ hsize.pool
  have hstores : ∀ bs, (⟨bs, s, rows'.length, sections, pool⟩ : Payload).Stores rows' :=
    fun _ => ⟨rfl, hcount, hholds⟩
  refine ⟨⟨header ++ Bytes.ofNat 4 rows'.length ++
    (sections.flatMap fun s => s.nulls ++ s.slots) ++ Bytes.ofNat 4 pool.length ++ pool,
    s, rows'.length, sections, pool⟩, ?_, rfl, hstores _, ?_⟩
  · have hcount := Bytes.ofLength_eq_ok hsize.count
    have hlength := Bytes.ofLength_eq_ok hpoolLength
    refine bind_eq_ok_iff.mpr ⟨rows', Abort.ofExcept_eq_ok_iff.mpr h, ?_⟩
    refine bind_eq_ok_iff.mpr ⟨header, Abort.ofExcept_eq_ok_iff.mpr hheader, ?_⟩
    refine bind_eq_ok_iff.mpr ⟨_, Abort.ofExcept_eq_ok_iff.mpr hcount, ?_⟩
    refine bind_eq_ok_iff.mpr ⟨(sections, pool), hsections, ?_⟩
    exact bind_eq_ok_iff.mpr ⟨_, Abort.ofExcept_eq_ok_iff.mpr hlength, rfl⟩
  · have hbody := reads_sections hcount fun j t s ht hs => by
      have hread := (hholds j t s ht hs).reads_section
      rwa [List.length_map] at hread
    have hparts : decodeParts.Reads (header ++ (Bytes.ofNat 4 rows'.length ++
        ((sections.flatMap fun s => s.nulls ++ s.slots) ++ (Bytes.ofNat 4 pool.length ++ pool))))
        (s, rows'.length, sections, pool) := by
      apply hreads.bind
      apply Reads.length_bind hsize.count (by omega)
      apply hbody.bind
      apply Reads.length_bind hpoolLength (by omega)
      exact (reads_take rfl).map fun pool => (s, rows'.length, sections, pool)
    simp only [List.append_assoc]
    refine bind_eq_ok_iff.mpr ⟨_, hparts.runAll_eq, ?_⟩
    exact bind_eq_ok_iff.mpr ⟨(), (hstores []).forM_checkPlaces, rfl⟩

/-- Rows can be encoded exactly if they can be projected, and with the same error if not: nothing
the encoder meets is of another type than its column's, and nothing is missing. The table then has
the schema and as many rows, gives back the projected rows, and is the table that its bytes are read
as. -/
theorem ofRows_iff_project (hs : s.Aligned)
    (hdocuments : ∀ r ∈ rows, ∀ c ∈ r, c.Survives)
    (hsize : ∀ rows', s.project rows = .ok rows' → FitsWire s rows') :
    ((∃ p, ofRows s rows = .ok p) ↔ ∃ rows', s.project rows = .ok rows') ∧
      (∀ f, ofRows s rows = .error f ↔ ∃ e, s.project rows = .error e ∧ f = .failed e) ∧
      ∀ p rows', ofRows s rows = .ok p → s.project rows = .ok rows' →
        p.schema = s ∧ p.rowCount = rows.length ∧ p.rows = .ok rows' ∧
          ofBytes p.bytes = .ok p := by
  cases h : s.project rows with
  | error e =>
    have hfail : ofRows s rows = .error (.failed e) := by
      rw [ofRows, h]
      rfl
    rw [hfail]
    simp [eq_comm]
  | ok rows' =>
    have hdocuments' := Schema.survives_of_project hs h hdocuments
    obtain ⟨p, hp, hschema, hstores, hback⟩ := exists_ofRows hs h hdocuments' (hsize rows' h)
    rw [hp]
    refine ⟨by simp, by simp, ?_⟩
    intro p₁ rows₁ hp₁ hrows₁
    obtain rfl := Except.ok.inj hp₁
    obtain rfl := Except.ok.inj hrows₁
    have hlen : rows.length = rows'.length := (mapM_eq_ok_iff.mp h).length_eq
    have hfit : ∀ r ∈ rows', p.schema.Fits r := hschema ▸ Schema.forall_fits_of_project hs h
    have hs' : p.schema.Aligned := hschema ▸ hs
    exact ⟨hschema, hstores.count.trans hlen.symm, hstores.rows_eq_ok hs' hfit, hback⟩

/-! ### Visits -/

/-- Columns of words and of the pool. -/
def visitSchema : Schema := .ofColumns [("id", .one .long), ("page", .one .string),
  ("times", .many .long), ("extra", .one .object), ("score", .one .double)]

def visitExtra : Json := .object [("tags", .list [.bool true, .null])]

/-- Visits, one of them from a segment whose ids and times were narrower. -/
def visits : List Row :=
  [[.long 1, .string "start", .many .long [(7 : Int64), (-1 : Int64)], .object visitExtra, .null],
    [.int 2, .null, .many .int [(3 : Int32)], .null, .double ⟨0xBFF8000000000000⟩],
    [.null, .string "", .many .long [], .null, .null]]

def castVisits : List Row :=
  [[.long 1, .string "start", .many .long [(7 : Int64), (-1 : Int64)], .object visitExtra, .null],
    [.long 2, .null, .many .long [(3 : Int64)], .null, .double ⟨0xBFF8000000000000⟩],
    [.null, .string "", .many .long [], .null, .null]]

theorem ofRows_iff_project_visits : ∃ p, ofRows visitSchema visits = .ok p ∧
    p.rows = .ok castVisits ∧ ofBytes p.bytes = .ok p := by
  have hdocuments : ∀ r ∈ visits, ∀ c ∈ r, c.Survives := by
    have hextra : Json.read? visitExtra.print.toList = some visitExtra := by
      rw [Json.print, String.toList_ofList]
      rfl
    intro r hr c hc
    simp only [visits, List.mem_cons, List.not_mem_nil, or_false] at hr
    rcases hr with rfl | rfl | rfl <;>
      simp only [List.mem_cons, List.not_mem_nil, or_false] at hc <;>
      rcases hc with rfl | rfl | rfl | rfl | rfl <;>
      first
      | exact trivial
      | exact fun _ _ => trivial
      | exact hextra
  have hproject : visitSchema.project visits = .ok castVisits := by rfl
  have hsize : ∀ rows', visitSchema.project visits = .ok rows' →
      FitsWire visitSchema rows' := by
    intro rows' h
    obtain rfl := Except.ok.inj (hproject.symm.trans h)
    exact ⟨by decide, by decide +kernel, by decide, by decide +kernel⟩
  have haligned : visitSchema.Aligned := rfl
  obtain ⟨hiff, -, hback⟩ := ofRows_iff_project haligned hdocuments hsize
  obtain ⟨p, hp⟩ := hiff.mpr ⟨castVisits, hproject⟩
  obtain ⟨-, -, hrows, hbytes⟩ := hback p castVisits hp hproject
  exact ⟨p, hp, hrows, hbytes⟩

end Payload

end SelectMerge
