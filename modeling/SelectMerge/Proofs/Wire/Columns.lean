import Mathlib.Tactic.Ring
import SelectMerge.Proofs.Lookups
import SelectMerge.Proofs.Wire.Values

/-!
# Encoded columns

The section of a column tells which cells are null (`testBit_bitmap`) and leads to all others: each
slot is the value itself or the place in the pool that it stands at (`Cell.Leads`). The pool only
grows at its end, so a place keeps what stands at it while later columns are written
(`Leads.append`).

`Section.Holds` says that a section holds the cells of a column. Cells that fit their type can be
written so, all columns one after another (`exists_encodeSlots`, `exists_encodeAll`), and from a
section that holds cells each cell is read back (`Holds.cell_eq_ok`).
-/

namespace SelectMerge

open Decoder

/-! ## Bits -/

theorem sum_bits_lt (bit : Nat → Bool) (n : Nat) :
    ((List.range n).map fun k => if bit k then 2 ^ k else 0).sum < 2 ^ n := by
  induction n with
  | zero => simp
  | succ n ih =>
    rw [List.range_succ, List.map_append, List.sum_append, Nat.pow_succ]
    by_cases hn : bit n
    · simp only [List.map_cons, List.map_nil, List.sum_singleton, hn, if_true]
      omega
    · simp only [List.map_cons, List.map_nil, List.sum_singleton, hn]
      simp
      omega

theorem testBit_sum_bits (bit : Nat → Bool) {i n : Nat} (hi : i < n) :
    ((List.range n).map fun k => if bit k then 2 ^ k else 0).sum.testBit i = bit i := by
  induction n with
  | zero => omega
  | succ n ih =>
    have hlt := sum_bits_lt bit n
    rw [List.range_succ, List.map_append, List.sum_append, List.map_singleton, List.sum_singleton]
    by_cases hin : i = n
    · subst hin
      cases hbit : bit i with
      | false => simpa using Nat.testBit_lt_two_pow hlt
      | true =>
        simp only [if_true]
        rw [Nat.add_comm, Nat.testBit_two_pow_add_eq, Nat.testBit_lt_two_pow hlt]
        rfl
    · cases hbit : bit n with
      | false => simpa using ih (by omega)
      | true =>
        simp only [if_true]
        rw [Nat.add_comm, Nat.testBit_two_pow_add_gt (by omega)]
        exact ih (by omega)

theorem testBit_byteOfBits (bit : Nat → Bool) {i : Nat} (hi : i < 8) :
    (byteOfBits bit).toNat.testBit i = bit i := by
  have hsum : byteOfBits bit =
      UInt8.ofNat ((List.range 8).map fun k => if bit k then 2 ^ k else 0).sum := by
    simp only [byteOfBits, Nat.one_shiftLeft, List.sum_eq_foldr, List.foldr_map]
  rw [hsum, UInt8.toNat_ofNat', Nat.mod_eq_of_lt (sum_bits_lt bit 8), testBit_sum_bits bit hi]

@[simp] theorem length_bitmap (bits : List Bool) :
    (bitmap bits).length = bitmapLength bits.length := by
  rw [bitmap, List.length_map, List.length_range]

theorem div_lt_bitmapLength {row rows : Nat} (h : row < rows) : row / 8 < bitmapLength rows := by
  unfold bitmapLength
  omega

theorem testBit_bitmap {bits : List Bool} {row : Nat} (h : row < bits.length) :
    ((bitmap bits).getD (row / 8) 0).toNat.testBit (row % 8) = bits[row] := by
  have hbyte : row / 8 < bitmapLength bits.length := div_lt_bitmapLength h
  have hmap : (bitmap bits).getD (row / 8) 0 =
      byteOfBits fun k => bits.getD (8 * (row / 8) + k) false := by
    rw [bitmap, List.getD_eq_getElem?_getD, List.getElem?_map, List.getElem?_range hbyte]
    rfl
  rw [hmap, testBit_byteOfBits _ (Nat.mod_lt row (by omega)), Nat.div_add_mod,
    List.getD_eq_getElem?_getD, List.getElem?_eq_getElem h]
  rfl

/-! ## Slots -/

theorem ColumnType.slotWidth_of_width? {t : ColumnType} {width : Nat} (h : t.width? = some width) :
    t.slotWidth = width := by
  rw [slotWidth, h]
  rfl

theorem ColumnType.slotWidth_of_pooled {t : ColumnType} (h : t.width? = none) : t.slotWidth = 4 := by
  rw [slotWidth, h]
  rfl

theorem take_drop_flatten {width : Nat} {parts : List Bytes} (h : ∀ bs ∈ parts, bs.length = width)
    {i : Nat} (hi : i < parts.length) :
    (parts.flatten.drop (i * width)).take width = parts[i] := by
  induction parts generalizing i with
  | nil => exact absurd hi (Nat.not_lt_zero i)
  | cons bs parts ih =>
    have hbs := h bs (by simp)
    cases i with
    | zero => simp [← hbs]
    | succ i =>
      have hi' : i < parts.length := Nat.lt_of_succ_lt_succ hi
      have hskip : (i + 1) * width = bs.length + i * width := by rw [hbs]; ring
      rw [List.flatten_cons, hskip, ← List.drop_drop, List.drop_left,
        ih (fun bs' hbs' => h bs' (by simp [hbs'])) hi', List.getElem_cons_succ]

theorem length_flatten_of_forall {width : Nat} {parts : List Bytes}
    (h : ∀ bs ∈ parts, bs.length = width) : parts.flatten.length = parts.length * width := by
  induction parts with
  | nil => simp
  | cons bs parts ih =>
    rw [List.flatten_cons, List.length_append, h bs (by simp),
      ih fun bs' hbs' => h bs' (by simp [hbs']), List.length_cons]
    ring

namespace Cell

/-- The number of bytes that a cell adds to the pool. -/
def pooledSize (t : ColumnType) (c : Cell) : Nat := if t.width?.isSome then 0 else c.size

/-- Whether a slot leads to a cell: as a word it is the value, and else the place in the pool that
the value stands at. -/
structure Leads (t : ColumnType) (pool : Bytes) (c : Cell) (slot : Bytes) : Prop where
  length : slot.length = t.slotWidth
  word : c.isNull = false → t.width?.isSome → (Payload.decodeCell t).Reads slot c
  pooled : c.isNull = false → t.width? = none → ∃ place value rest,
    slot = Bytes.ofNat 4 place ∧ place ≤ wireLimit ∧ pool.drop place = value ++ rest ∧
      0 < value.length ∧ (Payload.decodeCell t).Reads value c

variable {c : Cell} {t : ColumnType} {pool slot : Bytes}

theorem Leads.append (h : Leads t pool c slot) (more : Bytes) : Leads t (pool ++ more) c slot := by
  refine ⟨h.length, h.word, ?_⟩
  intro hnull hwidth
  obtain ⟨place, value, rest, hslot, hplace, hdrop, hpos, hread⟩ := h.pooled hnull hwidth
  refine ⟨place, value, rest ++ more, hslot, hplace, ?_, hpos, hread⟩
  have hlen : place ≤ pool.length := by
    have := congrArg List.length hdrop
    rw [List.length_drop, List.length_append] at this
    omega
  rw [List.drop_append_of_le_length hlen, hdrop, List.append_assoc]

theorem length_of_forall₂_leads {cells : List Cell} {parts : List Bytes}
    (h : List.Forall₂ (Leads t pool) cells parts) : ∀ bs ∈ parts, bs.length = t.slotWidth := by
  induction h with
  | nil => simp
  | cons hlead _ ih => exact List.forall_mem_cons.mpr ⟨hlead.length, ih⟩

theorem exists_encodeSlot (pool : Bytes) (hfit : c.fits t) (hc : c.Survives)
    (hsize : pool.length + c.pooledSize t ≤ wireLimit) :
    ∃ slot added, c.encodeSlot t pool = .ok (slot, pool ++ added) ∧
      added.length = c.pooledSize t ∧ Leads t (pool ++ added) c slot := by
  cases hwidth : t.width? with
  | some width =>
    obtain ⟨slot, hslot, hlen⟩ := exists_encodeWord hfit hwidth
    refine ⟨slot, [], ?_, by simp [pooledSize, hwidth], ?_, ?_, ?_⟩
    · rw [encodeSlot, hwidth, hslot, List.append_nil]
      rfl
    · exact hlen.trans (ColumnType.slotWidth_of_width? hwidth).symm
    · exact fun hnull _ => reads_encodeWord hfit hnull hc hwidth hslot
    · intro _ hnone
      rw [hwidth] at hnone
      cases hnone
  | none =>
    have hslotWidth := ColumnType.slotWidth_of_pooled hwidth
    have hpooled : c.pooledSize t = c.size := by rw [pooledSize, hwidth]; rfl
    cases hnull : c.isNull with
    | true =>
      refine ⟨Bytes.ofNat 4 0, [], ?_, ?_, ?_, ?_, ?_⟩
      · rw [encodeSlot, hwidth, hnull, List.append_nil]
        rfl
      · cases c with
        | null => exact hpooled.symm
        | one | many => cases hnull
      · rw [hslotWidth, Bytes.length_ofNat]
      · intro h
        cases hnull.symm.trans h
      · intro h
        cases hnull.symm.trans h
    | false =>
      obtain ⟨value, hvalue, hlen⟩ := exists_encodePooled hfit hnull hwidth (by omega)
      refine ⟨Bytes.ofNat 4 pool.length, value, ?_, hlen.trans hpooled.symm, ?_, ?_, ?_⟩
      · rw [encodeSlot, hwidth, hnull, Bytes.ofLength_eq_ok (by omega), hvalue]
        rfl
      · rw [hslotWidth, Bytes.length_ofNat]
      · intro _ hsome
        rw [hwidth] at hsome
        cases hsome
      · intro _ _
        have hpos := four_le_size hfit hnull
        refine ⟨pool.length, value, [], rfl, by omega, ?_, by omega, ?_⟩
        · rw [List.drop_left, List.append_nil]
        · exact reads_encodePooled hfit hnull hc hwidth (by omega) hvalue

end Cell

/-! ## Sections -/

namespace Section

variable {t : ColumnType} {pool : Bytes} {cells : List Cell} {s : Section}

/-- Whether a section holds the cells of a column: its bits mark the nulls and its slots lead to the
other cells. -/
structure Holds (t : ColumnType) (pool : Bytes) (cells : List Cell) (s : Section) : Prop where
  nulls : s.nulls = bitmap (cells.map Cell.isNull)
  slots : ∃ parts, s.slots = parts.flatten ∧ List.Forall₂ (Cell.Leads t pool) cells parts

theorem Holds.append (h : s.Holds t pool cells) (more : Bytes) : s.Holds t (pool ++ more) cells := by
  obtain ⟨parts, hslots, hall⟩ := h.slots
  exact ⟨h.nulls, parts, hslots, hall.imp fun _ _ hlead => hlead.append more⟩

theorem Holds.isNull_eq (h : s.Holds t pool cells) {row : Nat} (hrow : row < cells.length) :
    s.isNull row = cells[row].isNull := by
  have hlen : row < (cells.map Cell.isNull).length := by rwa [List.length_map]
  rw [isNull, h.nulls, testBit_bitmap hlen, List.getElem_map]

theorem Holds.leads (h : s.Holds t pool cells) {row : Nat} (hrow : row < cells.length) :
    Cell.Leads t pool cells[row] (s.slot t.slotWidth row) := by
  obtain ⟨parts, hslots, hall⟩ := h.slots
  have hlen : row < parts.length := hall.length_eq ▸ hrow
  rw [slot, hslots, take_drop_flatten (Cell.length_of_forall₂_leads hall) hlen]
  exact (List.forall₂_iff_get.mp hall).2 row hrow hlen

theorem Holds.length_slots (h : s.Holds t pool cells) :
    s.slots.length = cells.length * t.slotWidth := by
  obtain ⟨parts, hslots, hall⟩ := h.slots
  rw [hslots, length_flatten_of_forall (Cell.length_of_forall₂_leads hall), hall.length_eq]

/-! ### Writing -/

/-- The number of bytes that a column adds to the pool. -/
def pooledSize (t : ColumnType) (cells : List Cell) : Nat := (cells.map (Cell.pooledSize t)).sum

theorem exists_encodeSlots (pool : Bytes) (hfit : ∀ c ∈ cells, c.fits t)
    (hc : ∀ c ∈ cells, c.Survives) (hsize : pool.length + pooledSize t cells ≤ wireLimit) :
    ∃ slots added, encodeSlots t pool cells = .ok (slots, pool ++ added) ∧
      added.length = pooledSize t cells ∧ ∃ parts, slots = parts.flatten ∧
        List.Forall₂ (Cell.Leads t (pool ++ added)) cells parts := by
  induction cells generalizing pool with
  | nil => exact ⟨[], [], by rw [encodeSlots, List.append_nil], rfl, [], rfl, .nil⟩
  | cons c cells ih =>
    have hsum : pooledSize t (c :: cells) = c.pooledSize t + pooledSize t cells := by
      rw [pooledSize, List.map_cons, List.sum_cons]
      rfl
    obtain ⟨slot, added, hslot, hlen, hlead⟩ :=
      Cell.exists_encodeSlot pool (hfit c (by simp)) (hc c (by simp)) (by omega)
    obtain ⟨slots, added', hslots, hlen', parts, hparts, hall⟩ :=
      ih (pool ++ added) (fun c' h => hfit c' (by simp [h])) (fun c' h => hc c' (by simp [h]))
        (by rw [List.length_append]; omega)
    refine ⟨slot ++ slots, added ++ added', ?_, ?_, slot :: parts, ?_, ?_⟩
    · rw [encodeSlots, hslot]
      show (encodeSlots t (pool ++ added) cells >>= _) = _
      rw [hslots, List.append_assoc]
      rfl
    · rw [List.length_append, hlen, hlen', hsum]
    · rw [hparts, List.flatten_cons]
    · rw [← List.append_assoc]
      exact .cons (hlead.append added') hall

/-- The number of bytes that the columns from `first` on add to the pool. -/
def poolSize (rows : List Row) (first : Nat) : List ColumnType → Nat
  | [] => 0
  | t :: ts => pooledSize t (rows.map fun r => r.cell first) + poolSize rows (first + 1) ts

/-- All columns can be written if every row has a cell for each of them that fits. -/
theorem exists_encodeAll {rows : List Row} {ts : List ColumnType} (first : Nat) (pool : Bytes)
    (hcolumns : ∀ r ∈ rows, first + ts.length ≤ r.length)
    (hfit : ∀ r ∈ rows, ∀ (j : Nat) t, ts[j]? = some t → (r.cell (first + j)).fits t)
    (hc : ∀ r ∈ rows, ∀ j, (r.cell j).Survives)
    (hsize : pool.length + poolSize rows first ts ≤ wireLimit) :
    ∃ sections added, encodeAll rows first pool ts = .ok (sections, pool ++ added) ∧
      added.length = poolSize rows first ts ∧ sections.length = ts.length ∧
      ∀ (j : Nat) t s, ts[j]? = some t → sections[j]? = some s →
        s.Holds t (pool ++ added) (rows.map fun r => r.cell (first + j)) := by
  induction ts generalizing first pool with
  | nil => exact ⟨[], [], by rw [encodeAll, List.append_nil], rfl, rfl, by simp⟩
  | cons t ts ih =>
    rw [poolSize] at hsize
    obtain ⟨hfirst, hrest⟩ := columns_cons hcolumns
    have hcells : ∀ c ∈ rows.map fun r => r.cell first, c.fits t :=
      List.forall_mem_map.mpr fun r hr => hfit r hr 0 t rfl
    have hdocuments : ∀ c ∈ rows.map fun r => r.cell first, c.Survives :=
      List.forall_mem_map.mpr fun r hr => hc r hr first
    obtain ⟨slots, added, hslots, hlen, parts, hparts, hall⟩ :=
      exists_encodeSlots pool hcells hdocuments (by omega)
    have hfit' : ∀ r ∈ rows, ∀ (j : Nat) t, ts[j]? = some t →
        (r.cell (first + 1 + j)).fits t := by
      intro r hr j t' ht'
      rw [Nat.add_assoc, Nat.add_comm 1 j]
      exact hfit r hr (j + 1) t' ht'
    obtain ⟨sections, added', hsections, hlen', hcount, hholds⟩ :=
      ih (first + 1) (pool ++ added) hrest hfit' (by rw [List.length_append]; omega)
    refine ⟨⟨bitmap ((rows.map fun r => r.cell first).map Cell.isNull), slots⟩ :: sections,
      added ++ added', ?_, ?_, ?_, ?_⟩
    · rw [encodeAll, Row.mapM_item_column hfirst]
      show (Abort.ofExcept (encodeSlots t pool _) >>= _) = _
      rw [hslots]
      show (encodeAll rows (first + 1) (pool ++ added) ts >>= _) = _
      rw [hsections, List.append_assoc]
      rfl
    · rw [List.length_append, hlen, hlen', poolSize]
    · rw [List.length_cons, List.length_cons, hcount]
    · intro j t' s' ht' hs'
      rw [← List.append_assoc]
      cases j with
      | zero =>
        obtain rfl := Option.some.inj ht'
        obtain rfl := Option.some.inj hs'
        have hheld : Holds t (pool ++ added) (rows.map fun r => r.cell first)
            ⟨bitmap ((rows.map fun r => r.cell first).map Cell.isNull), slots⟩ :=
          ⟨rfl, parts, hparts, hall⟩
        exact hheld.append added'
      | succ j =>
        have hheld := hholds j t' s' ht' hs'
        rwa [Nat.add_assoc, Nat.add_comm 1 j] at hheld

/-! ### Reading -/

theorem Holds.exists_place (h : s.Holds t pool cells) {row : Nat} (hrow : row < cells.length)
    (hnull : cells[row].isNull = false) (hwidth : t.width? = none) :
    ∃ place value rest, Payload.place pool s row = .ok place ∧
      pool.drop place = value ++ rest ∧ (Payload.decodeCell t).Reads value cells[row] := by
  have hlead := h.leads hrow
  have hslotWidth := ColumnType.slotWidth_of_pooled hwidth
  obtain ⟨place, value, rest, hslot, hplace, hdrop, hpos, hread⟩ := hlead.pooled hnull hwidth
  refine ⟨place, value, rest, ?_, hdrop, hread⟩
  have hlt : place < pool.length := by
    have := congrArg List.length hdrop
    rw [List.length_drop, List.length_append] at this
    omega
  rw [hslotWidth] at hslot
  have hsign : ¬ (place : Int) < 0 := by omega
  rw [Payload.place, hslot, Bytes.toInt_toInt32_ofNat hplace]
  simp only [hsign, if_false, Int.toNat_natCast, hlt, if_true]

theorem Holds.cell_eq_ok {p : Payload} (h : s.Holds t p.pool cells) {row : Nat}
    (hrow : row < cells.length) : p.cell t s row = .ok cells[row] := by
  rw [Payload.cell, h.isNull_eq hrow]
  cases hnull : cells[row].isNull with
  | true =>
    cases hcell : cells[row] with
    | null => rfl
    | one | many =>
      rw [hcell] at hnull
      cases hnull
  | false =>
    simp only [Bool.false_eq_true, if_false]
    cases hwidth : t.width? with
    | some width =>
      have hslotWidth := ColumnType.slotWidth_of_width? hwidth
      have hread := ((h.leads hrow).word hnull (by rw [hwidth]; rfl)).run'_eq 0 []
      rwa [hslotWidth, List.append_nil] at hread
    | none =>
      obtain ⟨place, value, rest, hplace, hdrop, hread⟩ := h.exists_place hrow hnull hwidth
      have hvalue := hread.run'_eq place rest
      rw [← hdrop] at hvalue
      exact bind_eq_ok_iff.mpr ⟨place, hplace, hvalue⟩

theorem Holds.checkPlaces_eq_ok (h : s.Holds t pool cells) (hwidth : t.width? = none) :
    Payload.checkPlaces cells.length pool s = .ok () := by
  rw [Payload.checkPlaces, forM_eq_ok_iff]
  intro row hrow
  have hrow : row < cells.length := List.mem_range.mp hrow
  rw [h.isNull_eq hrow]
  cases hnull : cells[row].isNull with
  | true => rfl
  | false =>
    obtain ⟨place, -, -, hplace, -⟩ := h.exists_place hrow hnull hwidth
    rw [hplace]
    rfl

theorem Holds.reads_section (h : s.Holds t pool cells) :
    (Payload.decodeSection cells.length t).Reads (s.nulls ++ s.slots) s := by
  have hnulls : s.nulls.length = bitmapLength cells.length := by
    rw [h.nulls, length_bitmap, List.length_map]
  have hslots := (reads_take h.length_slots).map fun slots => (⟨s.nulls, slots⟩ : Section)
  exact (reads_take hnulls).bind hslots

end Section

end SelectMerge
