import SelectMerge.Proofs.Json.Extent
import SelectMerge.Proofs.Wire.Safety
import SelectMerge.Proofs.Wire.Spelling

/-!
# Decoded sizes

Every value is decoded from at least as many bytes as it holds (`Charges`, `charges_decode`), so
what a payload says about itself is bounded by its length: the rows by their slots, the values by
the pool (`Within`, `within_of_ofBytes`). A schema without columns has no slots, and only there does
a short payload have many rows (`hollow_length_lt_rowCount`). `sizes_le_of_ofBytes` bounds the rows,
and every text, run of bytes, list and array in them.
-/

namespace SelectMerge

/-! ## Sizes of values -/

namespace Scalar

/-- The sizes of the texts and runs of bytes in a value, and of the lists and objects of
documents. -/
def sizes : (s : Scalar) → s.Carrier → List Nat
  | string => fun (s : String) => [s.utf8ByteSize]
  | bytes => fun (bs : Bytes) => [bs.length]
  | object => fun (j : Json) => j.sizes
  | _ => fun _ => []

end Scalar

namespace Cell

/-- The sizes of all texts, runs of bytes and arrays in a cell, documents included. -/
def sizes : Cell → List Nat
  | null => []
  | one s x => s.sizes x
  | many s xs => xs.length :: xs.flatMap s.sizes

end Cell

/-! ## Readers -/

namespace Decoder

variable {α β : Type} {d : Decoder α} {enc : α → Except MergeError Bytes} {size : α → Nat}

/-- Whether every value takes at least as many bytes as its size. -/
def Charges (d : Decoder α) (size : α → Nat) : Prop :=
  ∀ c x c', d.run c = .ok (x, c') → size x + c'.rest.length ≤ c.rest.length

theorem Charges.le (hd : d.Charges size) {c c' : Cursor} {x : α} (h : d.run c = .ok (x, c')) :
    size x + c'.rest.length ≤ c.rest.length := hd c x c' h

theorem Charges.mono {size' : α → Nat} (hd : d.Charges size) (h : ∀ x, size' x ≤ size x) :
    d.Charges size' :=
  fun c x c' hrun => (Nat.add_le_add_right (h x) _).trans (hd c x c' hrun)

theorem Charges.map {size' : β → Nat} (hd : d.Charges size) {g : α → β}
    (h : ∀ x, size' (g x) ≤ size x) : (g <$> d).Charges size' := by
  intro c y c' hrun
  obtain ⟨x, hx, rfl⟩ := run_map_eq_ok_iff.mp hrun
  exact hd.mono h c x c' hx

/-- A value is charged for its encoding. -/
theorem Spells.charges (hd : d.Spells enc) (h : ∀ x bs, enc x = .ok bs → size x ≤ bs.length) :
    d.Charges size := by
  intro c x c' hrun
  obtain ⟨bs, hbs, hrest⟩ := hd c x c' hrun
  rw [hrest, List.length_append]
  exact Nat.add_le_add_right (h x bs hbs) _

theorem charges_take (n : Nat) : (take n).Charges fun _ => n := by
  intro c bs c' hrun
  obtain ⟨hlen, hrest⟩ := run_take_eq_ok hrun
  rw [hrest, List.length_append, hlen]

theorem charges_length (itemSize : Nat) : (length itemSize).Charges fun _ => 4 := by
  refine (spells_length itemSize).charges fun n bs h => ?_
  unfold Bytes.ofLength at h
  split at h
  · cases h
    exact (Bytes.length_ofNat _ _).ge
  · cases h

theorem charges_blob : blob.Charges fun bs => 4 + bs.length := by
  refine spells_blob.charges fun bs out h => ?_
  obtain ⟨-, rfl⟩ := Bytes.blob_eq_ok_iff.mp h
  rw [List.length_append, Bytes.length_ofNat]

theorem charges_times (hd : d.Charges size) (n : Nat) :
    (times d n).Charges fun xs => (xs.map size).sum := by
  induction n with
  | zero =>
    intro c xs c' hrun
    cases hrun
    exact (Nat.zero_add _).le
  | succ n ih =>
    intro c xs c' hrun
    obtain ⟨x, c₁, hx, hrun⟩ := run_bind_eq_ok_iff.mp hrun
    obtain ⟨tail, c₂, htail, hrun⟩ := run_bind_eq_ok_iff.mp hrun
    cases hrun
    have hhead := hd.le hx
    have hrest := ih.le htail
    dsimp only
    rw [List.map_cons, List.sum_cons]
    omega

end Decoder

open Decoder

theorem Bytes.length_ofText (s : String) : (Bytes.ofText s).length = s.utf8ByteSize := by
  rw [Bytes.ofText, Bytes.toList_eq]
  rfl

theorem Bytes.length_of_text? {bs : Bytes} {s : String} (h : Bytes.text? bs = some s) :
    s.utf8ByteSize = bs.length := by
  rw [← Bytes.length_ofText, Bytes.ofText_of_text? h]

/-! ## Values -/

namespace Scalar

theorem sum_sizes_of_document? {bs : Bytes} {j : Json} (h : document? bs = some j) :
    j.sizes.sum ≤ bs.length := by
  obtain ⟨s, hs, hj⟩ := Option.bind_eq_some_iff.mp h
  have hlen := Json.sum_sizes_of_read? hj
  rwa [String.utf8Len_toList, Bytes.length_of_text? hs] at hlen

theorem four_le_leastSize (s : Scalar) : 4 ≤ s.leastSize := by
  cases s <;> decide

theorem charges_word {s : Scalar} {width : Nat} (h : s.width? = some width) (what : String) :
    (s.decode what).Charges fun _ => width := by
  obtain ⟨f, hf⟩ := exists_decode_eq h what
  rw [hf]
  exact (charges_take width).map fun _ => Nat.le_refl _

theorem charges_decode (what : String) (s : Scalar) :
    (s.decode what).Charges fun x => s.leastSize + (s.sizes x).sum := by
  cases s with
  | int | long | float | double | boolean | timestamp => exact charges_word rfl what
  | string =>
    intro c s c' hrun
    obtain ⟨bs, c₁, hblob, hrun⟩ := run_bind_eq_ok_iff.mp hrun
    split at hrun
    · rename_i s' htext
      cases hrun
      have hlen := charges_blob.le hblob
      rwa [← Bytes.length_of_text? htext] at hlen
    · cases hrun
  | bytes => exact charges_blob
  | object =>
    intro c j c' hrun
    obtain ⟨bs, c₁, hblob, hrun⟩ := run_bind_eq_ok_iff.mp hrun
    split at hrun
    · rename_i j' hdocument
      cases hrun
      have hlen := charges_blob.le hblob
      have hsizes := sum_sizes_of_document? hdocument
      show 4 + j.sizes.sum + c'.rest.length ≤ c.rest.length
      omega
    · cases hrun

end Scalar

namespace Payload

variable {bs : Bytes} {p : Payload} {t : ColumnType} {c : Cell}

theorem sum_sizes_many_le (s : Scalar) (xs : List s.Carrier) :
    (Cell.many s xs).sizes.sum ≤ (xs.map fun x => s.leastSize + (s.sizes x).sum).sum := by
  have hleast := s.four_le_leastSize
  rw [Cell.sizes, List.sum_cons]
  induction xs with
  | nil => exact Nat.le_refl 0
  | cons x xs ih =>
    rw [List.length_cons, List.flatMap_cons, List.sum_append, List.map_cons, List.sum_cons]
    omega

theorem charges_decodeCell (t : ColumnType) :
    (decodeCell t).Charges fun c => c.sizes.sum := by
  cases t with
  | one s => exact (s.charges_decode _).map fun x => Nat.le_add_left _ _
  | many s =>
    intro c cell c' hrun
    obtain ⟨xs, harray, rfl⟩ := run_map_eq_ok_iff.mp hrun
    obtain ⟨count, c₁, hcount, hitems⟩ := run_bind_eq_ok_iff.mp harray
    have hlen := (charges_length _).le hcount
    have hsum := (charges_times (s.charges_decode _) count).le hitems
    have hle := sum_sizes_many_le s xs
    dsimp only
    omega

theorem sum_sizes_of_decodeCell {cursor : Cursor} (h : (decodeCell t).run' cursor = .ok c) :
    c.sizes.sum ≤ cursor.rest.length := by
  obtain ⟨⟨c', cursor'⟩, hrun, rfl⟩ := map_eq_ok_iff.mp h
  exact (Nat.le_add_right _ _).trans (charges_decodeCell t _ _ _ hrun)

/-! ## Sections -/

theorem four_le_slotWidth (t : ColumnType) : 4 ≤ t.slotWidth := by
  cases t with
  | one s => exact s.four_le_leastSize
  | many s => exact Nat.le_refl 4

/-- Every section has a slot for each row, of bytes of its own. -/
theorem slots_of_sections {rowCount : Nat} {types : List ColumnType} {cursor cursor' : Cursor}
    {sections : List Section}
    (h : (types.mapM (decodeSection rowCount)).run cursor = .ok (sections, cursor')) :
    sections.length = types.length ∧ cursor'.rest.length ≤ cursor.rest.length ∧
      ∀ s ∈ sections, rowCount ≤ s.slots.length ∧ s.slots.length ≤ cursor.rest.length := by
  induction types generalizing cursor sections with
  | nil =>
    cases h
    exact ⟨rfl, Nat.le_refl _, nofun⟩
  | cons t types ih =>
    rw [List.mapM_cons] at h
    obtain ⟨s, cursor₁, hs, h⟩ := run_bind_eq_ok_iff.mp h
    obtain ⟨rest, cursor₂, hrest, h⟩ := run_bind_eq_ok_iff.mp h
    cases h
    obtain ⟨nulls, cursor₃, hnulls, hs⟩ := run_bind_eq_ok_iff.mp hs
    obtain ⟨slots, cursor₄, hslots, hs⟩ := run_bind_eq_ok_iff.mp hs
    cases hs
    have hlen := (charges_take _).le hnulls
    obtain ⟨hwidth, hbytes⟩ := run_take_eq_ok hslots
    have hroom := congrArg List.length hbytes
    rw [List.length_append] at hroom
    have hrows : rowCount ≤ rowCount * t.slotWidth :=
      Nat.le_mul_of_pos_right _ (by have := four_le_slotWidth t; omega)
    obtain ⟨hlength, hle, hall⟩ := ih hrest
    refine ⟨congrArg (· + 1) hlength, by omega, List.forall_mem_cons.mpr ⟨?_, fun s hs => ?_⟩⟩
    · dsimp only
      omega
    · obtain ⟨hrow, hslot⟩ := hall s hs
      exact ⟨hrow, by omega⟩

theorem exists_parts (h : ofBytes bs = .ok p) : ∃ c₁ c₂ c₃ poolLength c₄ c₅,
    Schema.decode.run ⟨0, bs⟩ = .ok (p.schema, c₁) ∧
      (Decoder.length 0).run c₁ = .ok (p.rowCount, c₂) ∧
      (p.schema.types.mapM (decodeSection p.rowCount)).run c₂ = .ok (p.sections, c₃) ∧
      (Decoder.length 1).run c₃ = .ok (poolLength, c₄) ∧
      (Decoder.take poolLength).run c₄ = .ok (p.pool, c₅) := by
  obtain ⟨⟨schema, rowCount, sections, pool⟩, hparts, h⟩ := bind_eq_ok_iff.mp h
  obtain ⟨-, -, h⟩ := bind_eq_ok_iff.mp h
  cases h
  obtain ⟨offset, hparts⟩ := runAll_eq_ok_iff.mp hparts
  obtain ⟨schema, c₁, hschema, hparts⟩ := run_bind_eq_ok_iff.mp hparts
  obtain ⟨rowCount, c₂, hrows, hparts⟩ := run_bind_eq_ok_iff.mp hparts
  obtain ⟨sections, c₃, hsections, hparts⟩ := run_bind_eq_ok_iff.mp hparts
  obtain ⟨poolLength, c₄, hlength, hparts⟩ := run_bind_eq_ok_iff.mp hparts
  obtain ⟨pool, c₅, hpool, hparts⟩ := run_bind_eq_ok_iff.mp hparts
  cases hparts
  exact ⟨c₁, c₂, c₃, poolLength, c₄, _, hschema, hrows, hsections, hlength, hpool⟩

theorem aligned_of_ofBytes (h : ofBytes bs = .ok p) : p.schema.Aligned :=
  have ⟨_, _, _, _, _, _, hschema, _⟩ := exists_parts h
  Schema.aligned_of_decode hschema

/-- Whether the parts of a payload lie in so many bytes: a slot for each row in every section, and
the pool. -/
structure Within (p : Payload) (size : Nat) : Prop where
  sections : p.sections.length = p.schema.types.length
  slots : ∀ s ∈ p.sections, p.rowCount ≤ s.slots.length ∧ s.slots.length ≤ size
  pool : p.pool.length ≤ size

theorem within_of_ofBytes (h : ofBytes bs = .ok p) : p.Within bs.length := by
  obtain ⟨c₁, c₂, c₃, poolLength, c₄, c₅, hschema, hrows, hsections, hlength, hpool⟩ :=
    exists_parts h
  have hschema : 0 + c₁.rest.length ≤ bs.length :=
    (Schema.spells_schema.charges fun _ _ _ => Nat.zero_le _).le hschema
  have hrows := (charges_length _).le hrows
  obtain ⟨hcount, hle, hslots⟩ := slots_of_sections hsections
  have hlength := (charges_length _).le hlength
  obtain ⟨-, hbytes⟩ := run_take_eq_ok hpool
  have hroom := congrArg List.length hbytes
  rw [List.length_append] at hroom
  refine ⟨hcount, fun s hs => ?_, ?_⟩
  · obtain ⟨hrow, hslot⟩ := hslots s hs
    exact ⟨hrow, by omega⟩
  · omega

namespace Within

variable {size : Nat}

theorem rowCount_le (hp : p.Within size) (hcolumns : p.schema.types ≠ []) : p.rowCount ≤ size := by
  have hpos : 0 < p.sections.length := by
    rw [hp.sections]
    exact List.length_pos_iff.mpr hcolumns
  obtain ⟨hrow, hslot⟩ := hp.slots _ (List.getElem_mem hpos)
  exact hrow.trans hslot

theorem sum_sizes_cell_le {s : Section} {i : Nat} (hp : p.Within size) (hs : s ∈ p.sections)
    (h : p.cell t s i = .ok c) : c.sizes.sum ≤ size := by
  rw [Payload.cell] at h
  split at h
  · cases h
    exact Nat.zero_le _
  · split at h
    · rename_i width _
      have hslot : (s.slot width i).length ≤ s.slots.length := by
        rw [Section.slot, List.length_take, List.length_drop]
        omega
      exact (sum_sizes_of_decodeCell h).trans (hslot.trans (hp.slots s hs).2)
    · obtain ⟨place, -, hread⟩ := bind_eq_ok_iff.mp h
      have hrest : (p.pool.drop place).length ≤ p.pool.length := by
        rw [List.length_drop]
        exact Nat.sub_le _ _
      exact (sum_sizes_of_decodeCell hread).trans (hrest.trans hp.pool)

theorem sizes_row_le {i : Nat} {r : Row} (hp : p.Within size) (h : p.row i = .ok r) :
    ∀ c ∈ r, ∀ n ∈ c.sizes, n ≤ size := by
  intro c hc n hn
  rw [Payload.row] at h
  split at h
  · obtain ⟨column, -, hcolumn⟩ := (exists_of_mapM_eq_ok h).2 c hc
    obtain ⟨⟨t, s⟩, hts, hcell⟩ := bind_eq_ok_iff.mp hcolumn
    have hmem := List.mem_of_getElem? (Abort.item_eq_ok_iff.mp hts)
    exact (List.single_le_sum (by simp) n hn).trans
      (hp.sum_sizes_cell_le (List.of_mem_zip hmem).2 (Abort.ofExcept_eq_ok_iff.mp hcell))
  · cases h

end Within

theorem row_eq_nil {i : Nat} {r : Row} (hs : p.schema.Aligned) (hcolumns : p.schema.types = [])
    (h : p.row i = .ok r) : r = [] := by
  have hlength : p.schema.length = 0 := hs.trans (congrArg List.length hcolumns)
  rw [Payload.row, hlength, List.range_zero] at h
  split at h
  · exact (Except.ok.inj h).symm
  · cases h

theorem length_of_rows {rows : List Row} (h : p.rows = .ok rows) : rows.length = p.rowCount := by
  rw [← (mapM_eq_ok_iff.mp h).length_eq, List.length_range]

/-- A payload has at most as many rows as bytes, unless its schema has no columns and all its rows
are empty; and no text, run of bytes or array in a row has more bytes or elements than the payload
has bytes. -/
theorem sizes_le_of_ofBytes (h : ofBytes bs = .ok p) :
    (p.schema.types ≠ [] → p.rowCount ≤ bs.length) ∧
      (∀ i r, p.row i = .ok r →
        (p.schema.types = [] → r = []) ∧ ∀ c ∈ r, ∀ n ∈ c.sizes, n ≤ bs.length) ∧
      (∀ rows, p.rows = .ok rows → rows.length = p.rowCount) ∧
      ∀ b, p.toBlock = .ok b → b.length = p.rowCount := by
  have hp := within_of_ofBytes h
  have hs := aligned_of_ofBytes h
  refine ⟨hp.rowCount_le, fun i r hr => ⟨fun hcolumns => row_eq_nil hs hcolumns hr,
    hp.sizes_row_le hr⟩, fun rows => length_of_rows, fun b hb => ?_⟩
  obtain ⟨rows, hrows, rfl⟩ := map_eq_ok_iff.mp hb
  exact length_of_rows hrows

/-- Two rows whose slots name one place, where the pool has their text. -/
def sharing : Bytes :=
  [0, 0, 0, 1, 0, 0, 0, 1, 97, 0, 0, 0, 5] ++ [0, 0, 0, 2] ++ [0, 0, 0, 0, 0, 0, 0, 0, 0] ++
    [0, 0, 0, 7] ++ [0, 0, 0, 3, 226, 130, 172]

theorem sizes_le_of_ofBytes_sharing :
    ∃ p, ofBytes sharing = .ok p ∧ p.rowCount = 2 ∧ p.rowCount ≤ sharing.length ∧
      p.row 1 = .ok [.string "€"] ∧ (Cell.string "€").sizes = [3] ∧
      ∀ c ∈ [Cell.string "€"], ∀ n ∈ c.sizes, n ≤ sharing.length := by
  have hp : ofBytes sharing = .ok ⟨sharing, .ofColumns [("a", .one .string)], 2,
      [⟨[0], [0, 0, 0, 0, 0, 0, 0, 0]⟩], [0, 0, 0, 3, 226, 130, 172]⟩ := by rfl
  obtain ⟨hcount, hrows, -, -⟩ := sizes_le_of_ofBytes hp
  exact ⟨_, hp, rfl, hcount (by decide), by rfl, by rfl, (hrows 1 [.string "€"] (by rfl)).2⟩

/-- Thirteen rows of no columns: the number of columns, the number of rows and an empty pool. -/
def hollow : Bytes := [0, 0, 0, 0] ++ [0, 0, 0, 13] ++ [0, 0, 0, 0]

/-- Without columns there may be more rows than bytes. -/
theorem hollow_length_lt_rowCount :
    ∃ p, ofBytes hollow = .ok p ∧ p.rowCount = 13 ∧ hollow.length = 12 ∧
      ¬p.rowCount ≤ hollow.length :=
  ⟨⟨hollow, .ofColumns [], 13, [], []⟩, by rfl, rfl, rfl, by decide⟩

end Payload

end SelectMerge
