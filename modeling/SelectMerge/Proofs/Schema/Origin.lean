import SelectMerge.Proofs.Lookups
import SelectMerge.Proofs.Schema.Casting
import SelectMerge.Proofs.Schema.LeastCover
import SelectMerge.Proofs.Wire.Spelling
import SelectMerge.Run.ResultTable
import SelectMerge.Schema.SchemaJson

/-!
# Where schemas come from

Every way to make a schema (`Origin`) gives each name its type, except for documents: what a
document lists is taken as it stands. So a schema that no document has misled is aligned
(`aligned_of_schema?`), by induction over covers.

To be aligned is to keep all columns (`keepsColumns_iff`). `KeepsColumns` says that a schema is read
back from its bytes, that rows which are cast to it, tables and results have a value of the right
type for every name, and that no value is looked up past the end of a row. A schema of which a name
has no type, or a type no name, does none of this: it cannot be read back, it loses columns of the
rows that are cast to it, and lookups of these columns go past the end (`not_aligned_lopsided`).
-/

namespace SelectMerge

/-! ## Kept columns -/

theorem Section.length_of_encodeAll {rows : List Row} {ts : List ColumnType} {first : Nat}
    {pool pool' : Bytes} {sections : List Section}
    (h : encodeAll rows first pool ts = .ok (sections, pool')) : sections.length = ts.length := by
  induction ts generalizing first pool sections with
  | nil =>
    cases h
    rfl
  | cons t ts ih =>
    obtain ⟨cells, -, h⟩ := bind_eq_ok_iff.mp h
    obtain ⟨⟨slots, pool₁⟩, -, h⟩ := bind_eq_ok_iff.mp h
    obtain ⟨⟨rest, pool₂⟩, hrest, h⟩ := bind_eq_ok_iff.mp h
    cases h
    rw [List.length_cons, List.length_cons, ih hrest]

namespace Schema

variable {s : Schema} {r : Row} {indices : List Nat}

theorem lt_of_indexOf? {name : String} {i : Nat} (h : s.indexOf? name = some i) :
    i < s.names.length :=
  (List.findIdx?_eq_some_iff_getElem.mp h).1

theorem lt_of_mapM_indexOf? {names : List String} (hs : s.Aligned)
    (h : (names.mapM fun name =>
      match s.indexOf? name with
      | some i => Except.ok i
      | none => Except.error (Abort.failed (MergeError.unknownColumn name))) = .ok indices) :
    ∀ i ∈ indices, i < s.types.length := by
  intro i hi
  obtain ⟨name, -, hname⟩ := (exists_of_mapM_eq_ok h).2 i hi
  split at hname
  · rename_i i' hindex
    obtain rfl := Except.ok.inj hname
    exact hs ▸ lt_of_indexOf? hindex
  · cases hname

theorem Fits.cells (hr : s.Fits r) (h : ∀ i ∈ indices, i < s.types.length) :
    List.Forall₂ (fun c t => c.fits t) (indices.map r.cell)
      (indices.filterMap fun i => s.types[i]?) := by
  induction indices with
  | nil => exact .nil
  | cons i indices ih =>
    obtain ⟨hi, hrest⟩ := List.forall_mem_cons.mp h
    obtain ⟨hlen, hfits⟩ := List.forall₂_iff_get.mp hr
    rw [List.map_cons, List.filterMap_cons_some (List.getElem?_eq_getElem hi),
      Row.cell_of_getElem? (List.getElem?_eq_getElem (hlen ▸ hi))]
    exact .cons (hfits i (hlen ▸ hi) hi) (ih hrest)

theorem length_filterMap_types (h : ∀ i ∈ indices, i < s.types.length) :
    (indices.filterMap fun i => s.types[i]?).length = indices.length := by
  induction indices with
  | nil => rfl
  | cons i indices ih =>
    obtain ⟨hi, hrest⟩ := List.forall_mem_cons.mp h
    rw [List.filterMap_cons_some (List.getElem?_eq_getElem hi), List.length_cons, ih hrest,
      List.length_cons]

/-- Whether everything made under a schema has all its columns: it is read back from its bytes,
rows, tables and results come out with a value of the right type for every name, and no value is
looked up past the end of a row while a table is written, its rows are read or a result is made. -/
structure KeepsColumns (s : Schema) : Prop where
  encoded : ∀ bs, s.encode = .ok bs → ofBytes bs = .ok s
  projected : ∀ r p, s.projectRow r = .ok p → p.row.length = s.names.length ∧ s.Fits p.row
  tabled : ∀ rows p, Payload.ofRows s rows = .ok p →
    p.schema = s ∧ p.sections.length = s.names.length
  shown : ∀ (sel : Selection) (q : Query) (t : ResultTable), sel.schema = s →
    sel.table q = .ok t → t.types.length = t.columns.length ∧
      ∀ r ∈ t.rows, List.Forall₂ (fun c t => c.fits t) r t.types
  tabledInside : ∀ rows i n, Payload.ofRows s rows ≠ .error (.outside i n)
  readInside : ∀ rows p row i n, Payload.ofRows s rows = .ok p → p.row row ≠ .error (.outside i n)
  shownInside : ∀ (sel : Selection) (q : Query) i n, sel.schema = s →
    sel.table q ≠ .error (.outside i n)

theorem encoded_of_aligned (hs : s.Aligned) {bs : Bytes} (h : s.encode = .ok bs) :
    ofBytes bs = .ok s := by
  have hencodable := encodable_of_encode hs h
  obtain ⟨bs', hbs', hreads⟩ := exists_encode hs hencodable.columns hencodable.names
  obtain rfl := Except.ok.inj (h.symm.trans hbs')
  exact hreads.runAll_eq

theorem projected_of_aligned (hs : s.Aligned) {p : ProjectedRow} (h : s.projectRow r = .ok p) :
    p.row.length = s.names.length ∧ s.Fits p.row := by
  have hrow : (s.projectRow r).map (·.row) = .ok p.row := by rw [h]; rfl
  obtain ⟨hfits, -⟩ := fits_of_row_projectRow hs hrow
  exact ⟨hfits.length_eq.trans hs.symm, hfits⟩

theorem tabled_of_aligned (hs : s.Aligned) {rows : List Row} {p : Payload}
    (h : Payload.ofRows s rows = .ok p) : p.schema = s ∧ p.sections.length = s.names.length := by
  obtain ⟨rows', -, h⟩ := bind_eq_ok_iff.mp h
  obtain ⟨header, -, h⟩ := bind_eq_ok_iff.mp h
  obtain ⟨count, -, h⟩ := bind_eq_ok_iff.mp h
  obtain ⟨⟨sections, pool⟩, hsections, h⟩ := bind_eq_ok_iff.mp h
  obtain ⟨poolLength, -, h⟩ := bind_eq_ok_iff.mp h
  cases h
  exact ⟨rfl, (Section.length_of_encodeAll hsections).trans hs.symm⟩

theorem ofRows_ne_outside (hs : s.Aligned) (rows : List Row) (i n : Nat) :
    Payload.ofRows s rows ≠ .error (.outside i n) := by
  intro h
  rcases bind_eq_error_iff.mp h with hproject | ⟨rows', hproject, h⟩
  · exact Abort.ofExcept_ne_outside hproject
  rcases bind_eq_error_iff.mp h with hheader | ⟨header, -, h⟩
  · exact Abort.ofExcept_ne_outside hheader
  rcases bind_eq_error_iff.mp h with hcount | ⟨count, -, h⟩
  · exact Abort.ofExcept_ne_outside hcount
  rcases bind_eq_error_iff.mp h with hsections | ⟨⟨sections, pool⟩, -, h⟩
  · have hfits := forall_fits_of_project hs (Abort.ofExcept_eq_ok_iff.mp hproject)
    have hcolumns : ∀ r ∈ rows', 0 + s.types.length ≤ r.length := fun r hr => by
      rw [Nat.zero_add, (hfits r hr).length_eq]
    exact Section.encodeAll_ne_outside hcolumns [] i n hsections
  rcases bind_eq_error_iff.mp h with hlength | ⟨length, -, h⟩
  · exact Abort.ofExcept_ne_outside hlength
  · cases h

theorem row_ne_outside (hs : s.Aligned) {rows : List Row} {p : Payload}
    (h : Payload.ofRows s rows = .ok p) (row i n : Nat) : p.row row ≠ .error (.outside i n) := by
  obtain ⟨hschema, hsections⟩ := tabled_of_aligned hs h
  by_cases hrow : row < p.rowCount
  · have hlength : p.sections.length = p.schema.types.length := by
      rw [hsections, hschema]
      exact hs
    rw [Payload.row_eq (hschema ▸ hs) hlength hrow]
    exact Abort.ofExcept_ne_outside
  · rw [Payload.row, if_neg hrow]
    intro herror
    cases herror

theorem shown_of_aligned {sel : Selection} {q : Query} {t : ResultTable} (hs : sel.schema.Aligned)
    (h : sel.table q = .ok t) : t.types.length = t.columns.length ∧
      ∀ r ∈ t.rows, List.Forall₂ (fun c t => c.fits t) r t.types := by
  rw [Selection.table] at h
  split at h
  · cases h
    exact ⟨hs.symm, by simp⟩
  · obtain ⟨indices, hindices, h⟩ := bind_eq_ok_iff.mp h
    obtain ⟨rows, hrows, h⟩ := bind_eq_ok_iff.mp h
    cases h
    have hin := lt_of_mapM_indexOf? hs hindices
    constructor
    · rw [(mapM_eq_ok_iff.mp hindices).length_eq]
      exact length_filterMap_types hin
    · intro r' hr'
      obtain ⟨r, -, hr⟩ := (exists_of_mapM_eq_ok hrows).2 r' hr'
      rw [projectRow_mapM_item hs hin, Abort.ofExcept_eq_ok_iff] at hr
      obtain ⟨p, hp, rfl⟩ := map_eq_ok_iff.mp hr
      exact (projected_of_aligned hs hp).2.cells hin

theorem table_ne_outside {sel : Selection} (hs : sel.schema.Aligned) (q : Query) (i n : Nat) :
    sel.table q ≠ .error (.outside i n) := by
  intro h
  rw [Selection.table] at h
  split at h
  · cases h
  rcases bind_eq_error_iff.mp h with hindices | ⟨indices, hindices, h⟩
  · obtain ⟨name, -, hname⟩ := exists_of_mapM_eq_error hindices
    split at hname <;> cases hname
  have hin := lt_of_mapM_indexOf? hs hindices
  rcases bind_eq_error_iff.mp h with hrows | ⟨rows, -, h⟩
  · obtain ⟨r, -, hr⟩ := exists_of_mapM_eq_error hrows
    rw [projectRow_mapM_item hs hin] at hr
    exact Abort.ofExcept_ne_outside hr
  · cases h

theorem keepsColumns_iff : s.KeepsColumns ↔ s.Aligned := by
  constructor
  · -- a row of nulls is projected to itself, so it has a value for every name and every type
    intro h
    let nulls : Row := List.replicate s.names.length .null
    have hkept : s.projectRow nulls = .ok (.kept nulls) := by
      rw [projectRow, if_neg (by simp [nulls, length]), if_pos]
      rw [List.all_eq_true]
      rintro ⟨c, t⟩ hct
      rw [List.eq_of_mem_replicate (List.of_mem_zip hct).1]
      rfl
    obtain ⟨hnames, hfits⟩ := h.projected nulls _ hkept
    exact hnames.symm.trans hfits.length_eq
  · intro hs
    exact {
      encoded := fun _ => encoded_of_aligned hs
      projected := fun _ _ => projected_of_aligned hs
      tabled := fun _ _ => tabled_of_aligned hs
      shown := fun sel q t hsel => by subst hsel; exact shown_of_aligned hs
      tabledInside := ofRows_ne_outside hs
      readInside := fun _ _ row i n h => row_ne_outside hs h row i n
      shownInside := fun sel q i n hsel => by subst hsel; exact table_ne_outside hs q i n }

/-! ## Origins -/

/-- How a schema is made. -/
inductive Origin where
  | columns (columns : List (String × ColumnType))
  | lists (names : List String) (types : List ColumnType)
  | placeholder
  | bytes (bs : Bytes)
  | document (text : List Char)
  | cover (a b : Origin)

namespace Origin

/-- The schema that is made, if it is not refused. -/
def schema? : Origin → Option Schema
  | columns cs => some (.ofColumns cs)
  | lists names types => (ofLists names types).toOption
  | placeholder => some Schema.placeholder
  | bytes bs => (ofBytes bs).toOption
  | document text => ofText? text
  | cover a b => do (Schema.cover (← a.schema?) (← b.schema?)).toOption

/-- The documents that go into a schema. -/
def documents : Origin → List (List Char)
  | document text => [text]
  | cover a b => a.documents ++ b.documents
  | columns _ | lists _ _ | placeholder | bytes _ => []

variable {o : Origin}

theorem aligned_ofLists {names : List String} {types : List ColumnType}
    (h : ofLists names types = .ok s) : s.Aligned := by
  rw [ofLists] at h
  split at h
  · rename_i hlen
    cases h
    exact hlen
  · cases h

theorem aligned_cover {a b : Schema} (ha : a.Aligned) (hb : b.Aligned) (h : a.cover b = .ok s) :
    s.Aligned :=
  (isCompatible_of_cover? ha hb (cover_eq_ok_iff.mp h)).1

theorem schema?_cover_eq_some_iff {a b : Origin} : (cover a b).schema? = some s ↔
    ∃ sa sb, a.schema? = some sa ∧ b.schema? = some sb ∧ Schema.cover sa sb = .ok s := by
  simp only [schema?, Option.bind_eq_bind, Option.bind_eq_some_iff, toOption_eq_some_iff]
  exact exists_congr fun _ => exists_and_left.symm

/-- A schema that no document has misled is aligned, and to be aligned is to keep all columns. -/
theorem aligned_of_schema? (h : o.schema? = some s) :
    ((∀ text ∈ o.documents, ∀ s', ofText? text = some s' → s'.Aligned) → s.Aligned) ∧
      (s.KeepsColumns ↔ s.Aligned) := by
  refine ⟨fun hdocuments => ?_, keepsColumns_iff⟩
  induction o generalizing s with
  | columns cs =>
    cases h
    exact aligned_ofColumns cs
  | lists names types => exact aligned_ofLists (toOption_eq_some_iff.mp h)
  | placeholder =>
    cases h
    exact aligned_ofColumns _
  | bytes bs => exact aligned_of_ofBytes (toOption_eq_some_iff.mp h)
  | document text => exact hdocuments text (by simp [documents]) s h
  | cover a b iha ihb =>
    obtain ⟨sa, sb, ha, hb, hcover⟩ := schema?_cover_eq_some_iff.mp h
    have ha := iha ha fun text htext => hdocuments text (List.mem_append_left _ htext)
    have hb := ihb hb fun text htext => hdocuments text (List.mem_append_right _ htext)
    exact aligned_cover ha hb hcover

/-! ### Documents -/

/-- A document of one column, to be covered with what a segment sent. -/
def tally : Origin := .cover (.document (json (.ofColumns [("count", .one .int)])).print.toList)
  (.bytes [0, 0, 0, 1, 0, 0, 0, 1, 110, 0, 0, 0, 1])

theorem aligned_of_schema?_tally : tally.schema? = some (.ofColumns [("count", .one .long)]) ∧
    (ofColumns [("count", .one .long)]).KeepsColumns := by
  have hread : ofText? (json (.ofColumns [("count", .one .int)])).print.toList =
      some (.ofColumns [("count", .one .int)]) := by
    rw [Json.print, String.toList_ofList]
    rfl
  have hmade : tally.schema? = some (.ofColumns [("count", .one .long)]) :=
    schema?_cover_eq_some_iff.mpr ⟨_, .ofColumns [("n", .one .long)], hread, by rfl, by rfl⟩
  obtain ⟨haligned, hkeeps⟩ := aligned_of_schema? hmade
  refine ⟨hmade, hkeeps.mpr (haligned ?_)⟩
  intro text htext s' hs'
  obtain rfl := List.mem_singleton.mp htext
  obtain rfl := Option.some.inj (hread.symm.trans hs')
  rfl

/-- Two names and one type. -/
def lopsided : Schema := ⟨["a", "b"], [.one .int]⟩

/-- One name and two types. -/
def nameless : Schema := ⟨["a"], [.one .int, .one .int]⟩

/-- What a document lists is not checked. The second column of `lopsided` has no type: the bytes of
the schema end too early for it, a row that is cast loses it, and it is missed in a table that was
written and in a result. The second column of `nameless` has no name, so that rows do not have it
and no table can be written. -/
theorem not_aligned_lopsided :
    (document lopsided.json.print.toList).schema? = some lopsided ∧ ¬ lopsided.Aligned ∧
      (∃ bs, lopsided.encode = .ok bs ∧ ofBytes bs = .error (.truncated 4 16 9)) ∧
      lopsided.projectRow [.boolean true, .string "kept"] = .ok (.recast [.int 1]) ∧
      (∃ p, Payload.ofRows lopsided [[.int 1, .int 2]] = .ok p ∧
        p.row 0 = .error (.outside 1 1)) ∧
      Selection.table ⟨lopsided, [[.boolean true, .int 2]], 1⟩ (.ofSelect [.identifier "b"]) =
        .error (.outside 1 1) ∧
      (document nameless.json.print.toList).schema? = some nameless ∧
      Payload.ofRows nameless [[.int 1]] = .error (.outside 1 1) := by
  have hread : ofText? lopsided.json.print.toList = some lopsided := by
    rw [Json.print, String.toList_ofList]
    rfl
  have hread' : ofText? nameless.json.print.toList = some nameless := by
    rw [Json.print, String.toList_ofList]
    rfl
  have hcolumn : encodeColumn "a" (.one .int) = .ok [0, 0, 0, 1, 97, 0, 0, 0, 0] := by
    have hname : Bytes.ofText "a" = [97] := Bytes.ofText_of_text? (by rfl)
    rw [encodeColumn, hname]
    rfl
  have hbytes : lopsided.encode = .ok [0, 0, 0, 2, 0, 0, 0, 1, 97, 0, 0, 0, 0] :=
    bind_eq_ok_iff.mpr ⟨_, rfl,
      bind_eq_ok_iff.mpr ⟨_, mapM_eq_ok_iff.mpr (.cons hcolumn .nil), rfl⟩⟩
  have hbytes' : nameless.encode = .ok [0, 0, 0, 1, 0, 0, 0, 1, 97, 0, 0, 0, 0] :=
    bind_eq_ok_iff.mpr ⟨_, rfl,
      bind_eq_ok_iff.mpr ⟨_, mapM_eq_ok_iff.mpr (.cons hcolumn .nil), rfl⟩⟩
  have htable : ∃ p, Payload.ofRows lopsided [[.int 1, .int 2]] = .ok p ∧
      p.row 0 = .error (.outside 1 1) := by
    rw [Payload.ofRows, hbytes]
    exact ⟨_, rfl, rfl⟩
  have hrefused : Payload.ofRows nameless [[.int 1]] = .error (.outside 1 1) := by
    rw [Payload.ofRows, hbytes']
    rfl
  exact ⟨hread, by decide, ⟨_, hbytes, by rfl⟩, by rfl, htable, by rfl, hread', hrefused⟩

end Origin

end Schema

end SelectMerge
