import SelectMerge.Proofs.Lookups
import SelectMerge.Proofs.Wire.Simulation

/-!
# Safety of reading in place

The checks made when a table is taken from its bytes place every section and every slot inside the
buffer (`Payload.Placed`), and what is read later stays where they have looked: a table read in
place has the rows and the errors of the payload, and comes to no fault (`ofBytes_safe`).

A table `Views` a payload if its positions are those of the payload's parts. Then bits and slots are
inside the buffer (`Views.isNull_eq`, `Views.exists_slot`), a cell in place is the payload's
(`Views.cell_eq`), and so are rows (`Views.exists_row_eq`) and checks (`Views.checks_eq`).
`Table.Safe` has the promises that follow, one field each.
-/

namespace SelectMerge

open Decoder

/-! ## Values of a type -/

theorem Scalar.exists_decode_eq {s : Scalar} {width : Nat} (h : s.width? = some width)
    (what : String) : ∃ f : Bytes → s.Carrier, s.decode what = f <$> Decoder.take width := by
  cases s with
  | int =>
    obtain rfl := Option.some.inj h
    exact ⟨Bytes.toInt32, rfl⟩
  | long | timestamp =>
    obtain rfl := Option.some.inj h
    exact ⟨Bytes.toInt64, rfl⟩
  | float =>
    obtain rfl := Option.some.inj h
    exact ⟨fun bs => (⟨UInt32.ofNat bs.toNat⟩ : Binary32), bind_pure_comp _ _⟩
  | double =>
    obtain rfl := Option.some.inj h
    exact ⟨fun bs => (⟨UInt64.ofNat bs.toNat⟩ : Binary64), bind_pure_comp _ _⟩
  | boolean =>
    obtain rfl := Option.some.inj h
    have hmap : (fun x : Int32 => x != 0) <$> (Bytes.toInt32 <$> Decoder.take 4) =
        (fun bs => Bytes.toInt32 bs != 0) <$> Decoder.take 4 := Functor.map_map _ _ _
    exact ⟨fun bs => Bytes.toInt32 bs != 0, (bind_pure_comp _ _).trans hmap⟩
  | string | bytes | object => cases h

namespace Payload

variable {t : ColumnType} {c : Cell} {width : Nat}

theorem type?_of_decodeCell {cursor : Cursor} (h : (decodeCell t).run' cursor = .ok c) :
    c.type? = some t := by
  cases t with
  | one s =>
    obtain ⟨⟨c', cursor'⟩, hrun, rfl⟩ := map_eq_ok_iff.mp h
    obtain ⟨⟨x, cursor''⟩, -, hx⟩ := bind_eq_ok_iff.mp hrun
    cases hx
    rfl
  | many s =>
    obtain ⟨⟨c', cursor'⟩, hrun, rfl⟩ := map_eq_ok_iff.mp h
    obtain ⟨⟨x, cursor''⟩, -, hx⟩ := bind_eq_ok_iff.mp hrun
    cases hx
    rfl

theorem exists_decodeCell_eq (h : t.width? = some width) :
    ∃ f : Bytes → Cell, decodeCell t = f <$> Decoder.take width := by
  cases t with
  | one s =>
    obtain ⟨f, hf⟩ := Scalar.exists_decode_eq h "string value"
    exact ⟨fun bs => Cell.one s (f bs), by rw [decodeCell, hf, Functor.map_map]⟩
  | many s => cases h

/-! ## Places -/

variable {pool : Bytes} {s : Section} {i place : Nat}

theorem lt_of_place (h : Payload.place pool s i = .ok place) : place < pool.length := by
  unfold Payload.place at h
  by_cases hsign : (Bytes.toInt32 (s.slot 4 i)).toInt < 0
  · simp only [hsign, if_true] at h
    cases h
  · simp only [hsign, if_false] at h
    by_cases hlt : (Bytes.toInt32 (s.slot 4 i)).toInt.toNat < pool.length
    · rw [if_pos hlt] at h
      exact Except.ok.inj h ▸ hlt
    · rw [if_neg hlt] at h
      cases h

/-- Whether the slots of all cells that are not words or nulls name places in the pool. -/
def Placed (p : Payload) : Prop :=
  ∀ (j : Nat) t s, p.schema.types[j]? = some t → p.sections[j]? = some s → t.width? = none →
    ∀ i < p.rowCount, s.isNull i = false → ∃ place, Payload.place p.pool s i = .ok place

theorem placed_of_forM {p : Payload}
    (h : ((p.schema.types.zip p.sections).forM fun (t, s) =>
      if t.width?.isSome then Except.ok () else checkPlaces p.rowCount p.pool s) = .ok ()) :
    p.Placed := by
  intro j t s ht hs hwidth i hi hnull
  have hmem : (t, s) ∈ p.schema.types.zip p.sections :=
    List.mem_of_getElem? (List.getElem?_zip_eq_some.mpr ⟨ht, hs⟩)
  have hcolumn := forM_eq_ok_iff.mp h (t, s) hmem
  simp only [hwidth, Option.isSome_none, Bool.false_eq_true, if_false] at hcolumn
  have hrow := forM_eq_ok_iff.mp hcolumn i (List.mem_range.mpr hi)
  rw [hnull] at hrow
  obtain ⟨place, hplace, -⟩ := map_eq_ok_iff.mp hrow
  exact ⟨place, hplace⟩

/-! ## Cells of rows -/

theorem type?_of_cell {p : Payload} (h : p.cell t s i = .ok c) :
    c.type? = if s.isNull i then none else some t := by
  rw [Payload.cell] at h
  cases hnull : s.isNull i with
  | true =>
    simp only [hnull, if_true] at h
    cases h
    rfl
  | false =>
    simp only [hnull, Bool.false_eq_true, if_false] at h ⊢
    cases hwidth : t.width? with
    | some width =>
      rw [hwidth] at h
      exact type?_of_decodeCell h
    | none =>
      rw [hwidth] at h
      obtain ⟨place, -, hread⟩ := bind_eq_ok_iff.mp h
      exact type?_of_decodeCell hread

/-! ## Buffers -/

theorem ofBytes_eq {bytes : Bytes} {schema : Schema} {rowCount : Nat}
    {sections : List Section} {c : Cursor}
    (h : decodeParts.run ⟨0, bytes⟩ = .ok ((schema, rowCount, sections, pool), c)) :
    ofBytes bytes =
      if c.rest.length = 0 then
        ((schema.types.zip sections).forM fun (t, s) =>
          if t.width?.isSome then Except.ok () else checkPlaces rowCount pool s).map
            fun _ => ⟨bytes, schema, rowCount, sections, pool⟩
      else .error (.trailingBytes c.rest.length) := by
  rw [ofBytes, runAll, h]
  by_cases hrest : c.rest.length = 0
  · show ((if c.rest.length = 0 then _ else _) >>= _) = _
    rw [if_pos hrest, if_pos hrest]
    rfl
  · show ((if c.rest.length = 0 then _ else _) >>= _) = _
    rw [if_neg hrest, if_neg hrest]
    rfl

end Payload

namespace Addressed

variable {α β : Type} {buffer : Bytes}

/-! ## Steps without faults -/

theorem ofExcept_ok (x : α) : ofExcept (.ok x) = pure x := rfl

theorem ofExcept_bind (x : Except DecodeError α) (f : α → Except DecodeError β) :
    ofExcept (x >>= f) = ofExcept x >>= fun a => ofExcept (f a) := by
  cases x with
  | error e => rfl
  | ok a => rfl

theorem ofExcept_mapM (f : α → Except DecodeError β) (l : List α) :
    ofExcept (l.mapM f) = l.mapM fun a => ofExcept (f a) := by
  induction l with
  | nil => rfl
  | cons a l ih =>
    rw [List.mapM_cons, List.mapM_cons, ofExcept_bind]
    congr 1
    funext b
    rw [ofExcept_bind, ih]
    rfl

theorem ofExcept_forM (f : α → Except DecodeError Unit) (l : List α) :
    ofExcept (l.forM f) = l.forM fun a => ofExcept (f a) := by
  induction l with
  | nil => rfl
  | cons a l ih =>
    show ofExcept (f a >>= fun _ => l.forM f) = _
    rw [ofExcept_bind, ih]
    rfl

theorem Agrees.readAt_eq {d : Reader α} {e : Decoder α} (h : Agrees buffer d e) {position : Nat}
    (hposition : position ≤ buffer.length) :
    d.readAt buffer position = ofExcept (e.run' ⟨position, buffer.drop position⟩) := by
  show Prod.fst <$> (d.run buffer).run position =
    ofExcept (Prod.fst <$> e.run ⟨position, buffer.drop position⟩)
  rcases h.cases hposition with
    ⟨x, _, position', rfl, -, hreader, hdecoder⟩ | ⟨err, hreader, hdecoder⟩
  · rw [hreader, hdecoder]
    rfl
  · rw [hreader, hdecoder]
    rfl

/-! ## Columns -/

namespace Table.Views

variable {T : Table} {p : Payload} {t : ColumnType} {s : Section} {i j width : Nat}

theorem length_columns (h : T.Views p) :
    (p.schema.types.zip p.sections).length = p.schema.types.length := by
  rw [List.length_zip, h.sections, Nat.min_self]

theorem exists_section (h : T.Views p) (ht : p.schema.types[j]? = some t) :
    ∃ s, p.sections[j]? = some s := by
  have hj : j < p.sections.length := by
    rw [h.sections]
    exact (List.getElem?_eq_some_iff.mp ht).1
  exact ⟨_, List.getElem?_eq_getElem hj⟩

theorem exists_start (h : T.Views p) (ht : p.schema.types[j]? = some t)
    (hs : p.sections[j]? = some s) :
    ∃ start, T.columnStarts[j]? = some start ∧ StartsAt T.bytes p.rowCount t start s := by
  have hj : j < T.columnStarts.length := by
    rw [h.starts]
    exact (List.getElem?_eq_some_iff.mp ht).1
  have hstart := List.getElem?_eq_getElem hj
  exact ⟨_, hstart, h.columns j t _ s ht hstart hs⟩

theorem exists_byte {start : Nat} (h : StartsAt buffer p.rowCount t start s)
    (hi : i < p.rowCount) :
    ∃ byte, buffer[start + i / 8]? = some byte ∧ s.isNull i = byte.toNat.testBit (i % 8) := by
  have hplace : i / 8 < bitmapLength p.rowCount := div_lt_bitmapLength hi
  have hinside := h.inside
  have hlt : start + i / 8 < buffer.length := by omega
  refine ⟨_, List.getElem?_eq_getElem hlt, ?_⟩
  rw [Section.isNull, h.nulls, List.getD_eq_getElem?_getD, List.getElem?_take_of_lt hplace,
    List.getElem?_drop, List.getElem?_eq_getElem hlt]
  rfl

theorem isNull_eq (h : T.Views p) (ht : p.schema.types[j]? = some t)
    (hs : p.sections[j]? = some s) (hi : i < p.rowCount) : T.isNull j i = pure (s.isNull i) := by
  obtain ⟨start, hstart, hcolumn⟩ := h.exists_start ht hs
  obtain ⟨byte, hbyte, hbit⟩ := exists_byte hcolumn hi
  have hlt := (List.getElem?_eq_some_iff.mp hbyte).1
  have hsmall := h.small
  rw [Table.isNull, item_eq hstart, pure_bind, word_eq (by omega), pure_bind, item_eq hbyte,
    pure_bind, hbit]

theorem exists_slot (h : T.Views p) (ht : p.schema.types[j]? = some t)
    (hs : p.sections[j]? = some s) (hi : i < p.rowCount) (hwidth : t.slotWidth = width) :
    ∃ position, T.slot j i width = pure position ∧ position + width ≤ T.bytes.length ∧
      s.slot width i = (T.bytes.drop position).take width := by
  obtain ⟨start, hstart, hcolumn⟩ := h.exists_start ht hs
  have hsmall := h.small
  have hinside := hcolumn.inside
  have hroom : i * width + width ≤ p.rowCount * width := by
    rw [← Nat.succ_mul]
    exact Nat.mul_le_mul_right width hi
  rw [hwidth] at hinside
  refine ⟨start + bitmapLength p.rowCount + i * width, ?_, by omega, ?_⟩
  · rw [Table.slot, item_eq hstart, pure_bind, h.rowCount, word_eq (by omega), pure_bind,
      word_eq (by omega), pure_bind, word_eq (by omega)]
  · rw [Section.slot, hcolumn.slots, hwidth, List.drop_take, List.drop_drop, List.take_take,
      Nat.min_eq_left (by omega)]

/-! ### Cells -/

theorem readAt_word {position : Nat} (hbuffer : buffer.length < wordLimit)
    (hwidth : t.width? = some width) (hinside : position + width ≤ buffer.length) (offset : Nat) :
    ∃ c, (Reader.cell t).readAt buffer position = pure c ∧
      (Payload.decodeCell t).run' ⟨offset, (buffer.drop position).take width⟩ = .ok c := by
  obtain ⟨f, hf⟩ := Payload.exists_decodeCell_eq hwidth
  have hrest : width ≤ (buffer.drop position).length := by
    rw [List.length_drop]
    omega
  refine ⟨f ((buffer.drop position).take width), ?_, ?_⟩
  · rw [(agrees_cell hbuffer t).readAt_eq (by omega), hf]
    show ofExcept (Prod.fst <$> (f <$> Decoder.take width).run _) = _
    rw [StateT.run_map, run_take hrest]
    rfl
  · rw [hf]
    show Prod.fst <$> (f <$> Decoder.take width).run _ = _
    rw [StateT.run_map, run_take (by rw [List.length_take]; omega), List.take_take, Nat.min_self]
    rfl

theorem place_eq (h : T.Views p) (ht : p.schema.types[j]? = some t)
    (hs : p.sections[j]? = some s) (hi : i < p.rowCount) (hwidth : t.width? = none) :
    T.place j i = ofExcept (Payload.place p.pool s i) := by
  have hslotWidth := ColumnType.slotWidth_of_pooled hwidth
  obtain ⟨position, hslot, hinside, hbytes⟩ := h.exists_slot ht hs hi hslotWidth
  have hrest : 4 ≤ (T.bytes.drop position).length := by
    rw [List.length_drop]
    omega
  have hword : Reader.int32.readAt T.bytes position = pure (Bytes.toInt32 (s.slot 4 i)) := by
    rw [(agrees_int32 h.small).readAt_eq (by omega), hbytes]
    show ofExcept (Prod.fst <$> (Bytes.toInt32 <$> Decoder.take 4).run _) = _
    rw [StateT.run_map, run_take hrest]
    rfl
  rw [Table.place, hslot, pure_bind, hword, pure_bind, Payload.place, h.poolLength]
  by_cases hsign : (Bytes.toInt32 (s.slot 4 i)).toInt < 0
  · simp only [hsign, if_true]
    rfl
  · simp only [hsign, if_false]
    by_cases hlt : (Bytes.toInt32 (s.slot 4 i)).toInt.toNat < p.pool.length
    · rw [if_pos hlt, if_pos hlt]
      rfl
    · rw [if_neg hlt, if_neg hlt]
      rfl

theorem slice_pool (h : T.Views p) :
    slice T.bytes T.poolStart (T.poolStart + T.poolLength) = pure p.pool := by
  rw [slice_eq h.poolEnd, h.pool]

theorem cell_eq_readAt (h : T.Views p) (ht : p.schema.types[j]? = some t)
    (hs : p.sections[j]? = some s) (hi : i < p.rowCount) (hnull : s.isNull i = false)
    (hwidth : t.width? = none) : T.cell j i =
      ofExcept (Payload.place p.pool s i) >>= fun place => (Reader.cell t).readAt p.pool place := by
  have htype : T.schema.types[j]? = some t := h.schema ▸ ht
  have hend := h.poolEnd
  have hsmall := h.small
  rw [Table.cell, h.isNull_eq ht hs hi, pure_bind, hnull]
  simp only [Bool.false_eq_true, if_false]
  rw [item_eq htype, pure_bind, hwidth]
  show (T.place j i >>= fun place => word (T.poolStart + T.poolLength) >>= fun stop =>
    slice T.bytes T.poolStart stop >>= fun pool => (Reader.cell t).readAt pool place) = _
  rw [h.place_eq ht hs hi hwidth, word_eq (by omega)]
  simp only [pure_bind, h.slice_pool]

theorem cell_eq (h : T.Views p) (ht : p.schema.types[j]? = some t)
    (hs : p.sections[j]? = some s) (hi : i < p.rowCount) :
    T.cell j i = ofExcept (p.cell t s i) := by
  have htype : T.schema.types[j]? = some t := h.schema ▸ ht
  cases hnull : s.isNull i with
  | true =>
    rw [Table.cell, h.isNull_eq ht hs hi, pure_bind, Payload.cell, hnull]
    rfl
  | false =>
    rw [Payload.cell, hnull]
    simp only [Bool.false_eq_true, if_false]
    cases hwidth : t.width? with
    | some width =>
      have hslotWidth := ColumnType.slotWidth_of_width? hwidth
      obtain ⟨position, hslot, hinside, hbytes⟩ := h.exists_slot ht hs hi hslotWidth
      obtain ⟨c, hread, hdecode⟩ := readAt_word h.small hwidth hinside 0
      rw [Table.cell, h.isNull_eq ht hs hi, pure_bind, hnull]
      simp only [Bool.false_eq_true, if_false]
      rw [item_eq htype, pure_bind, hwidth]
      show (T.slot j i width >>= fun position => (Reader.cell t).readAt T.bytes position) =
        ofExcept ((Payload.decodeCell t).run' ⟨0, s.slot width i⟩)
      rw [hslot, pure_bind, hread, hbytes, hdecode]
      rfl
    | none =>
      rw [h.cell_eq_readAt ht hs hi hnull hwidth]
      show _ = ofExcept (Payload.place p.pool s i >>= fun place =>
        (Payload.decodeCell t).run' ⟨place, p.pool.drop place⟩)
      rw [ofExcept_bind]
      cases hplace : Payload.place p.pool s i with
      | error e => rfl
      | ok place =>
        have hlt := Payload.lt_of_place hplace
        have hlength := h.poolLength
        have hend := h.poolEnd
        have hsmall := h.small
        exact (agrees_cell (by omega) t).readAt_eq (by omega)

theorem row_eq (h : T.Views p) (hi : i < p.rowCount) : T.row i =
    ofExcept ((p.schema.types.zip p.sections).mapM fun (t, s) => p.cell t s i) := by
  have hrows := h.rowCount
  have hlen : T.schema.length = (p.schema.types.zip p.sections).length := by
    rw [h.length_columns, h.schema]
    exact h.aligned
  rw [Table.row, if_neg (by omega), ofExcept_mapM, hlen]
  apply mapM_range_eq
  rintro j ⟨t, s⟩ hj
  obtain ⟨ht, hs⟩ := List.getElem?_zip_eq_some.mp hj
  exact h.cell_eq ht hs hi

theorem exists_row_eq (h : T.Views p) (i : Nat) :
    ∃ x, p.row i = Abort.ofExcept x ∧ T.row i = ofExcept x := by
  by_cases hi : i < p.rowCount
  · exact ⟨_, Payload.row_eq h.aligned h.sections hi, h.row_eq hi⟩
  · have hrows := h.rowCount
    refine ⟨.error (.offsetOutOfRange i p.rowCount), ?_, ?_⟩
    · rw [Payload.row, if_neg hi]
      rfl
    · rw [Table.row, if_pos (by omega), hrows]
      rfl

/-! ### Checks -/

theorem checkColumn_eq (h : T.Views p) (ht : p.schema.types[j]? = some t)
    (hs : p.sections[j]? = some s) :
    T.checkColumn j = ofExcept
      (if t.width?.isSome then .ok () else Payload.checkPlaces p.rowCount p.pool s) := by
  have htype : T.schema.types[j]? = some t := h.schema ▸ ht
  rw [Table.checkColumn, item_eq htype, pure_bind]
  cases hwidth : t.width? with
  | some width => rfl
  | none =>
    simp only [Option.isSome_none, Bool.false_eq_true, if_false]
    have hlen : T.rowCount = (List.range p.rowCount).length := by rw [List.length_range, h.rowCount]
    rw [Payload.checkPlaces, ofExcept_forM, hlen]
    apply forM_range_eq
    intro i i' hi
    obtain ⟨hlt, rfl⟩ := List.getElem?_eq_some_iff.mp hi
    rw [List.length_range] at hlt
    rw [List.getElem_range, h.isNull_eq ht hs hlt, pure_bind]
    cases hnull : s.isNull i with
    | true => rfl
    | false =>
      simp only [Bool.false_eq_true, if_false]
      rw [h.place_eq ht hs hlt hwidth]
      cases Payload.place p.pool s i with
      | error e => rfl
      | ok place => rfl

theorem checks_eq (h : T.Views p) : (List.range T.columnStarts.length).forM T.checkColumn =
    ofExcept ((p.schema.types.zip p.sections).forM fun (t, s) =>
      if t.width?.isSome then Except.ok () else Payload.checkPlaces p.rowCount p.pool s) := by
  have hlen : T.columnStarts.length = (p.schema.types.zip p.sections).length := by
    rw [h.length_columns, h.starts]
  rw [ofExcept_forM, hlen]
  apply forM_range_eq
  rintro j ⟨t, s⟩ hj
  obtain ⟨ht, hs⟩ := List.getElem?_zip_eq_some.mp hj
  exact h.checkColumn_eq ht hs

end Table.Views

/-! ## Tables -/

namespace Table

variable {bytes : Bytes}

/-- A buffer is taken as a table in place exactly if it is one, and with the same error if not. -/
theorem ofBytes_cases (hbytes : bytes.length < wordLimit) :
    (∃ e, Payload.ofBytes bytes = .error e ∧ ofBytes bytes = throw e) ∨
      ∃ p T, Payload.ofBytes bytes = .ok p ∧ ofBytes bytes = pure T ∧ T.bytes = bytes ∧
        T.Views p ∧ p.Placed := by
  rcases (simulates_parts hbytes).cases (Nat.zero_le _) with
    ⟨⟨schema, rowCount, starts, poolStart, poolLength⟩, ⟨schema', rowCount', sections, pool⟩,
      position, hviews, -, hreader, hdecoder⟩ | ⟨e, hreader, hdecoder⟩
  · have hleft : (bytes.drop position).length = bytes.length - position := List.length_drop
    rw [List.drop_zero] at hdecoder
    rw [ofBytes, hreader, pure_bind, Payload.ofBytes_eq hdecoder, hleft]
    by_cases htrailing : bytes.length - position = 0
    · have hchecks := Table.Views.checks_eq hviews
      simp only [htrailing, if_true] at hchecks ⊢
      rw [hchecks]
      cases hall : (schema'.types.zip sections).forM fun (t, s) =>
          if t.width?.isSome then Except.ok () else Payload.checkPlaces rowCount' pool s with
      | error e => exact .inl ⟨e, rfl, rfl⟩
      | ok u => exact .inr ⟨_, _, rfl, rfl, rfl, hviews, Payload.placed_of_forM hall⟩
    · simp only [htrailing, if_false]
      exact .inl ⟨_, rfl, rfl⟩
  · left
    refine ⟨e, ?_, ?_⟩
    · rw [List.drop_zero] at hdecoder
      rw [Payload.ofBytes, runAll, hdecoder]
      rfl
    · rw [ofBytes, hreader]
      rfl

/-! ### Promises -/

/-- Whether a row shows what the bits in the columns say: null where the bit of the row is set, and
else a value of the column's type. -/
def Shows (T : Table) (i : Nat) (r : Row) : Prop :=
  r.length = T.schema.length ∧
    ∀ (j : Nat) c t, r[j]? = some c → T.schema.types[j]? = some t →
      ∃ start byte, T.columnStarts[j]? = some start ∧ T.bytes[start + i / 8]? = some byte ∧
        c.type? = if byte.toNat.testBit (i % 8) then none else some t

/-- What a table promises about reading it in place. A row that is not read ends with an error, and
the values that are not words are read in the pool, from a place inside it on. -/
structure Safe (T : Table) : Prop where
  aligned : T.schema.Aligned
  pool : T.poolStart + T.poolLength ≤ T.bytes.length
  pooled : ∀ (j : Nat) t, T.schema.types[j]? = some t → t.width? = none →
    ∀ i < T.rowCount, T.isNull j i = pure true ∨ T.isNull j i = pure false ∧
      ∃ place < T.poolLength, T.place j i = pure place ∧ T.cell j i =
        (Reader.cell t).readAt ((T.bytes.drop T.poolStart).take T.poolLength) place
  row : ∀ i < T.rowCount, (∃ r, T.row i = pure r ∧ T.Shows i r) ∨ ∃ e, T.row i = throw e
  words : (∀ t ∈ T.schema.types, t.width?.isSome) → ∀ i < T.rowCount, ∃ r, T.row i = pure r
  beyond : ∀ i, T.rowCount ≤ i → T.row i = throw (.offsetOutOfRange i T.rowCount)

namespace Views

variable {T : Table} {p : Payload} {i : Nat}

theorem shows (h : T.Views p) (hi : i < p.rowCount) {r : Row} (hr : p.row i = .ok r) :
    T.Shows i r := by
  rw [Payload.row_eq h.aligned h.sections hi, Abort.ofExcept_eq_ok_iff, mapM_eq_ok_iff,
    List.forall₂_iff_get] at hr
  obtain ⟨hlen, hcells⟩ := hr
  have hcolumns : (p.schema.types.zip p.sections).length = T.schema.length := by
    rw [h.length_columns, h.schema]
    exact h.aligned.symm
  refine ⟨hlen.symm.trans hcolumns, ?_⟩
  intro j c t hc ht
  rw [h.schema] at ht
  obtain ⟨hjr, rfl⟩ := List.getElem?_eq_some_iff.mp hc
  obtain ⟨hjt, rfl⟩ := List.getElem?_eq_some_iff.mp ht
  have hs := List.getElem?_eq_getElem (h.sections ▸ hjt : j < p.sections.length)
  obtain ⟨start, hstart, hcolumn⟩ := h.exists_start ht hs
  obtain ⟨byte, hbyte, hbit⟩ := exists_byte hcolumn hi
  refine ⟨start, byte, hstart, hbyte, ?_⟩
  have hcell := hcells j (hlen ▸ hjr) hjr
  rw [List.get_eq_getElem, List.getElem_zip] at hcell
  rw [← hbit]
  exact Payload.type?_of_cell hcell

theorem exists_row (h : T.Views p) (hwords : ∀ t ∈ p.schema.types, t.width?.isSome)
    (hi : i < p.rowCount) : ∃ r, T.row i = pure r := by
  suffices hcells : ∃ r,
      ((p.schema.types.zip p.sections).mapM fun (t, s) => p.cell t s i) = .ok r by
    obtain ⟨r, hr⟩ := hcells
    exact ⟨r, by rw [h.row_eq hi, hr, ofExcept_ok]⟩
  apply exists_mapM_eq_ok
  rintro ⟨t, s⟩ hmem
  obtain ⟨j, hj⟩ := List.mem_iff_getElem?.mp hmem
  obtain ⟨ht, hs⟩ := List.getElem?_zip_eq_some.mp hj
  obtain ⟨width, hwidth⟩ := Option.isSome_iff_exists.mp (hwords t (List.mem_of_getElem? ht))
  show ∃ c, p.cell t s i = .ok c
  rw [Payload.cell]
  by_cases hnull : s.isNull i
  · exact ⟨.null, if_pos hnull⟩
  · have hslotWidth := ColumnType.slotWidth_of_width? hwidth
    obtain ⟨position, -, hinside, hbytes⟩ := h.exists_slot ht hs hi hslotWidth
    obtain ⟨c, -, hdecode⟩ := readAt_word h.small hwidth hinside 0
    refine ⟨c, ?_⟩
    rw [if_neg hnull, hwidth, ← hdecode, ← hbytes]

theorem safe (h : T.Views p) (hplaced : p.Placed) : T.Safe where
  aligned := h.schema ▸ h.aligned
  pool := h.poolEnd
  pooled := by
    intro j t ht hwidth i hi
    rw [h.schema] at ht
    rw [h.rowCount] at hi
    obtain ⟨s, hs⟩ := h.exists_section ht
    rw [h.isNull_eq ht hs hi, h.place_eq ht hs hi hwidth, ← h.pool]
    cases hnull : s.isNull i with
    | true => exact .inl rfl
    | false =>
      obtain ⟨place, hplace⟩ := hplaced j t s ht hs hwidth i hi hnull
      refine .inr ⟨rfl, place, h.poolLength ▸ Payload.lt_of_place hplace, ?_, ?_⟩
      · rw [hplace, ofExcept_ok]
      · rw [h.cell_eq_readAt ht hs hi hnull hwidth, hplace, ofExcept_ok, pure_bind]
  row := by
    intro i hi
    obtain ⟨x, hp, hT⟩ := h.exists_row_eq i
    cases x with
    | ok r => exact .inl ⟨r, hT, h.shows (h.rowCount ▸ hi) hp⟩
    | error e => exact .inr ⟨e, hT⟩
  words := fun hwords i hi => h.exists_row (h.schema ▸ hwords) (h.rowCount ▸ hi)
  beyond := fun i hi => if_pos hi

end Views

/-- Whatever a buffer in memory holds, taking it as a table comes to no fault: it is taken exactly
if it is a payload, and with the same error if not. Reading the rows of the table in place then has
the same outcome as reading those of the payload, without faults, and keeps all promises. -/
theorem ofBytes_safe (hbytes : bytes.length < wordLimit) :
    (∃ e, Payload.ofBytes bytes = .error e ∧ ofBytes bytes = throw e) ∨
      ∃ p T, Payload.ofBytes bytes = .ok p ∧ ofBytes bytes = pure T ∧
        T.bytes = bytes ∧ T.schema = p.schema ∧ T.rowCount = p.rowCount ∧
        (∀ i, ∃ x, p.row i = Abort.ofExcept x ∧ T.row i = ofExcept x) ∧ T.Safe := by
  rcases ofBytes_cases hbytes with ⟨e, hpayload, htable⟩ |
    ⟨p, T, hpayload, htable, hsame, hviews, hplaced⟩
  · exact .inl ⟨e, hpayload, htable⟩
  · right
    exact ⟨p, T, hpayload, htable, hsame, hviews.schema, hviews.rowCount, hviews.exists_row_eq,
      hviews.safe hplaced⟩

/-- A table of two rows whose texts are said to stand at places 0 and 3 of a pool of six bytes. -/
def overlapping : Bytes :=
  [0, 0, 0, 2, 0, 0, 0, 1, 107, 0, 0, 0, 0, 0, 0, 0, 1, 118, 0, 0, 0, 5] ++ [0, 0, 0, 2] ++
    [2, 0, 0, 0, 7, 0, 0, 0, 0] ++ [0, 0, 0, 0, 0, 0, 0, 0, 3] ++
    [0, 0, 0, 6, 0, 0, 0, 2, 97, 98]

theorem ofBytes_safe_overlapping : overlapping.length < wordLimit ∧
    ∃ T, ofBytes overlapping = pure T ∧ T.Safe ∧
      T.row 0 = pure [.int 7, .string "ab"] ∧ T.row 1 = throw (.truncated 3 4 3) ∧
      T.row 2 = throw (.offsetOutOfRange 2 2) := by
  have hlength : overlapping.length < wordLimit := by decide
  have haccepted : Payload.ofBytes overlapping = .ok ⟨overlapping,
      .ofColumns [("k", .one .int), ("v", .one .string)], 2,
      [⟨[2], [0, 0, 0, 7, 0, 0, 0, 0]⟩, ⟨[0], [0, 0, 0, 0, 0, 0, 0, 3]⟩],
      [0, 0, 0, 2, 97, 98]⟩ := by rfl
  refine ⟨hlength, ?_⟩
  rcases ofBytes_safe hlength with ⟨e, hrefused, -⟩ | ⟨p, T, hp, hT, -, -, -, hrow, hsafe⟩
  · rw [haccepted] at hrefused
    cases hrefused
  · have hrow' : ∀ i x, p.row i = Abort.ofExcept x → T.row i = ofExcept x := by
      intro i x hx
      obtain ⟨y, hy, hT⟩ := hrow i
      rwa [Abort.ofExcept_injective (hx.symm.trans hy)]
    obtain rfl := Except.ok.inj (haccepted.symm.trans hp)
    exact ⟨T, hT, hsafe, hrow' 0 (.ok [.int 7, .string "ab"]) rfl,
      hrow' 1 (.error (.truncated 3 4 3)) rfl, hrow' 2 (.error (.offsetOutOfRange 2 2)) rfl⟩

end Table

end Addressed

end SelectMerge
