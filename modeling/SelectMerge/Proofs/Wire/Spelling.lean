import SelectMerge.Proofs.Wire.Values

/-!
# One spelling

What a reader has taken is the encoding of what it returned, whatever else is in the buffer
(`Spells`). Written lengths are never negative (`spells_length`), texts have one encoding
(`spells_text`), every type has one number and nothing may follow, so no two buffers are read as the
same schema. `ofBytes_inverts_encode` adds the other direction: a schema that is `Encodable` is read
from its bytes.
-/

namespace SelectMerge

namespace Decoder

variable {α β : Type} {d : Decoder α} {f : α → Decoder β} {enc : α → Except MergeError Bytes}
  {bs : Bytes} {x : α} {y : β} {c c' : Cursor}

/-- Whether the reader takes nothing for a value but the encoding of that value. -/
def Spells (d : Decoder α) (enc : α → Except MergeError Bytes) : Prop :=
  ∀ c x c', d.run c = .ok (x, c') → ∃ bs, enc x = .ok bs ∧ c.rest = bs ++ c'.rest

theorem run_bind_eq_ok_iff : (d >>= f).run c = .ok (y, c') ↔
    ∃ x c₁, d.run c = .ok (x, c₁) ∧ (f x).run c₁ = .ok (y, c') := by
  rw [StateT.run_bind, bind_eq_ok_iff]
  exact Prod.exists

theorem run_map_eq_ok_iff {g : α → β} : (g <$> d).run c = .ok (y, c') ↔
    ∃ x, d.run c = .ok (x, c') ∧ g x = y := by
  rw [map_eq_pure_bind, run_bind_eq_ok_iff]
  constructor
  · rintro ⟨x, c₁, hx, hy⟩
    cases hy
    exact ⟨x, hx, rfl⟩
  · rintro ⟨x, hx, rfl⟩
    exact ⟨x, c', hx, rfl⟩

theorem runAll_eq_ok_iff : d.runAll bs = .ok x ↔ ∃ offset, d.run ⟨0, bs⟩ = .ok (x, ⟨offset, []⟩) := by
  rw [runAll, bind_eq_ok_iff]
  constructor
  · rintro ⟨⟨x, offset, rest⟩, hrun, h⟩
    cases rest with
    | nil =>
      cases h
      exact ⟨offset, hrun⟩
    | cons b rest => cases h
  · rintro ⟨offset, hrun⟩
    exact ⟨_, hrun, rfl⟩

theorem Spells.encode_of_runAll (hd : d.Spells enc) (h : d.runAll bs = .ok x) :
    enc x = .ok bs := by
  obtain ⟨offset, hrun⟩ := runAll_eq_ok_iff.mp h
  obtain ⟨bs', henc, hrest⟩ := hd _ x _ hrun
  rw [henc, ← List.append_nil bs', ← hrest]

/-! ## Bytes -/

theorem run_take_eq_ok {n : Nat} (h : (take n).run c = .ok (bs, c')) :
    bs.length = n ∧ c.rest = bs ++ c'.rest := by
  by_cases hn : n ≤ c.rest.length
  · rw [run_take hn] at h
    cases h
    exact ⟨List.length_take_of_le hn, (List.take_append_drop n c.rest).symm⟩
  · have hfail : (take n).run c = .error (.truncated c.offset n c.rest.length) := if_neg hn
    rw [hfail] at h
    cases h

theorem run_int32_eq_ok {n : Int32} (h : int32.run c = .ok (n, c')) :
    c.rest = Bytes.ofInt32 n ++ c'.rest := by
  obtain ⟨bs, htake, rfl⟩ := run_map_eq_ok_iff.mp h
  obtain ⟨hlen, hrest⟩ := run_take_eq_ok htake
  rw [Bytes.ofInt32_toInt32 hlen, hrest]

theorem spells_length (itemSize : Nat) : (length itemSize).Spells Bytes.ofLength := by
  intro c n c' h
  obtain ⟨x, c₁, hword, h⟩ := run_bind_eq_ok_iff.mp h
  have hrest := run_int32_eq_ok hword
  -- what has the sign bit set is refused, so a length has no second spelling as a negative number
  by_cases hsign : x.toInt < 0
  · rw [if_pos hsign] at h
    cases h
  · obtain ⟨hlength, hfits⟩ := Bytes.ofInt32_eq_ofNat (Int.not_lt.mp hsign)
    rw [if_neg hsign] at h
    obtain ⟨c₂, _, hget, h⟩ := run_bind_eq_ok_iff.mp h
    cases hget
    dsimp only at h
    split at h
    · cases h
      exact ⟨_, Bytes.ofLength_eq_ok hfits, hlength ▸ hrest⟩
    · cases h

theorem spells_blob : blob.Spells Bytes.blob := by
  intro c bs c' h
  obtain ⟨n, c₁, hlength, h⟩ := run_bind_eq_ok_iff.mp h
  obtain ⟨count, hcount, hrest⟩ := spells_length 1 c n c₁ hlength
  obtain ⟨rfl, hrest₁⟩ := run_take_eq_ok h
  refine ⟨count ++ bs, bind_eq_ok_iff.mpr ⟨count, hcount, rfl⟩, ?_⟩
  rw [hrest, hrest₁, List.append_assoc]

theorem spells_text (what : String) :
    (text what).Spells fun s => Bytes.blob (Bytes.ofText s) := by
  intro c s c' h
  obtain ⟨bs, c₁, hblob, h⟩ := run_bind_eq_ok_iff.mp h
  split at h
  · rename_i s' htext
    cases h
    dsimp only
    rw [Bytes.ofText_of_text? htext]
    exact spells_blob c bs c' hblob
  · cases h

theorem spells_times (hd : d.Spells enc) (n : Nat) :
    ∀ c xs c', (times d n).run c = .ok (xs, c') →
      xs.length = n ∧ ∃ parts, xs.mapM enc = .ok parts ∧ c.rest = parts.flatten ++ c'.rest := by
  induction n with
  | zero =>
    intro c xs c' h
    cases h
    exact ⟨rfl, [], rfl, rfl⟩
  | succ n ih =>
    intro c xs c' h
    obtain ⟨x, c₁, hx, h⟩ := run_bind_eq_ok_iff.mp h
    obtain ⟨tail, c₂, htail, h⟩ := run_bind_eq_ok_iff.mp h
    cases h
    obtain ⟨bs, henc, hrest⟩ := hd c x c₁ hx
    obtain ⟨hlen, parts, hparts, hrest₁⟩ := ih c₁ tail c' htail
    refine ⟨congrArg Nat.succ hlen, bs :: parts, ?_, ?_⟩
    · rw [List.mapM_cons, henc, hparts]
      rfl
    · rw [hrest, hrest₁, List.flatten_cons, List.append_assoc]

end Decoder

/-! ## Schemas -/

namespace Schema

open Decoder

variable {s : Schema} {bs : Bytes}

/-- Whether every name has a type and lengths on the wire can tell the number of columns and the
sizes of the names. -/
structure Encodable (s : Schema) : Prop where
  aligned : s.Aligned
  columns : s.length ≤ wireLimit
  names : ∀ name ∈ s.names, (Bytes.ofText name).length ≤ wireLimit

theorem ordinal_of_ofOrdinal? {n : Int} {t : ColumnType} (h : ColumnType.ofOrdinal? n = some t) :
    (t.ordinal : Int) = n := by
  -- the types stand in wire order, each at its own number
  have hall : ColumnType.all.map ColumnType.ordinal = List.range 18 := rfl
  rw [ColumnType.ofOrdinal?] at h
  split at h
  · rename_i hn
    have hordinal : (List.range 18)[n.toNat]? = some t.ordinal := by
      rw [← hall, List.getElem?_map, h]
      rfl
    obtain ⟨hlt, hget⟩ := List.getElem?_eq_some_iff.mp hordinal
    rw [List.getElem_range] at hget
    omega
  · cases h

theorem spells_column : decodeColumn.Spells fun column => encodeColumn column.1 column.2 := by
  intro c column c' h
  obtain ⟨name, c₁, hname, h⟩ := run_bind_eq_ok_iff.mp h
  obtain ⟨ordinal, c₂, hordinal, h⟩ := run_bind_eq_ok_iff.mp h
  obtain ⟨blob, hblob, hrest⟩ := spells_text _ c name c₁ hname
  have hrest₁ := run_int32_eq_ok hordinal
  dsimp only at h
  split at h
  · rename_i type htype
    cases h
    have hnumber := ordinal_of_ofOrdinal? htype
    have hsign : 0 ≤ ordinal.toInt := by omega
    obtain ⟨hword, -⟩ := Bytes.ofInt32_eq_ofNat hsign
    rw [← hnumber, Int.toNat_natCast] at hword
    refine ⟨blob ++ Bytes.ofNat 4 type.ordinal, bind_eq_ok_iff.mpr ⟨blob, hblob, rfl⟩, ?_⟩
    rw [hrest, hrest₁, hword, List.append_assoc]
  · cases h

theorem aligned_ofColumns (columns : List (String × ColumnType)) : (ofColumns columns).Aligned := by
  simp [Aligned, ofColumns]

theorem columns_ofColumns (columns : List (String × ColumnType)) :
    (ofColumns columns).columns = columns :=
  (List.zip_of_prod rfl rfl).symm

theorem length_ofColumns (columns : List (String × ColumnType)) :
    (ofColumns columns).length = columns.length :=
  List.length_map _

theorem spells_schema : decode.Spells encode := by
  intro c s c' h
  obtain ⟨n, c₁, hcount, h⟩ := run_bind_eq_ok_iff.mp h
  obtain ⟨columns, c₂, hcolumns, h⟩ := run_bind_eq_ok_iff.mp h
  cases h
  obtain ⟨count, hcount, hrest⟩ := spells_length 8 c n c₁ hcount
  obtain ⟨rfl, parts, hparts, hrest₁⟩ := spells_times spells_column n c₁ columns c' hcolumns
  refine ⟨count ++ parts.flatten, ?_, by rw [hrest, hrest₁, List.append_assoc]⟩
  rw [encode, length_ofColumns, hcount, columns_ofColumns]
  exact bind_eq_ok_iff.mpr ⟨count, rfl, bind_eq_ok_iff.mpr ⟨parts, hparts, rfl⟩⟩

theorem aligned_of_decode {c c' : Cursor} (h : decode.run c = .ok (s, c')) : s.Aligned := by
  obtain ⟨n, c₁, -, hrun⟩ := run_bind_eq_ok_iff.mp h
  obtain ⟨columns, c₂, -, hrun⟩ := run_bind_eq_ok_iff.mp hrun
  cases hrun
  exact aligned_ofColumns columns

theorem aligned_of_ofBytes (h : ofBytes bs = .ok s) : s.Aligned :=
  have ⟨_, hrun⟩ := runAll_eq_ok_iff.mp h
  aligned_of_decode hrun

theorem encodable_of_encode (hs : s.Aligned) (h : s.encode = .ok bs) : s.Encodable := by
  obtain ⟨count, hcount, h⟩ := bind_eq_ok_iff.mp h
  obtain ⟨parts, hparts, -⟩ := bind_eq_ok_iff.mp h
  refine ⟨hs, ?_, ?_⟩
  · by_contra hlen
    rw [Bytes.ofLength, if_neg hlen] at hcount
    cases hcount
  · intro name hname
    rw [← List.map_fst_zip hs.le] at hname
    obtain ⟨column, hcolumn, rfl⟩ := List.mem_map.mp hname
    obtain ⟨part, -, hpart⟩ := (exists_of_mapM_eq_ok hparts).1 column hcolumn
    obtain ⟨blob, hblob, -⟩ := bind_eq_ok_iff.mp hpart
    exact (Bytes.blob_eq_ok_iff.mp hblob).1

theorem encode_of_ofBytes (h : ofBytes bs = .ok s) : s.encode = .ok bs :=
  spells_schema.encode_of_runAll h

/-- A schema that can be written is read from its bytes and from no others, and only such schemas
are read at all. -/
theorem ofBytes_inverts_encode (s : Schema) :
    (s.Encodable → ∃ bs, s.encode = .ok bs ∧ ∀ bs', ofBytes bs' = .ok s ↔ bs' = bs) ∧
      ∀ bs, ofBytes bs = .ok s → s.Encodable ∧ s.encode = .ok bs := by
  constructor
  · intro hs
    obtain ⟨bs, hbs, hreads⟩ := exists_encode hs.aligned hs.columns hs.names
    refine ⟨bs, hbs, fun bs' => ⟨?_, ?_⟩⟩
    · intro h
      exact Except.ok.inj ((encode_of_ofBytes h).symm.trans hbs)
    · rintro rfl
      exact hreads.runAll_eq
  · intro bs h
    have hbs := encode_of_ofBytes h
    exact ⟨encodable_of_encode (aligned_of_ofBytes h) hbs, hbs⟩

/-! ### Names -/

/-- A name twice, no name and names beyond one byte a letter. -/
def polyglot : Schema := .ofColumns [("größe", .one .long), ("größe", .many .string),
  ("", .one .object), ("数量", .one .double), ("🦀\u0000", .one .bytes)]

theorem ofBytes_inverts_encode_polyglot : ∃ bs, polyglot.encode = .ok bs ∧
    ofBytes bs = .ok polyglot ∧ ∀ bs', ofBytes bs' = .ok polyglot → bs' = bs := by
  have hencodable : polyglot.Encodable :=
    ⟨by decide, by decide, by decide +kernel⟩
  obtain ⟨bs, hbs, hiff⟩ := (ofBytes_inverts_encode polyglot).1 hencodable
  exact ⟨bs, hbs, (hiff bs).mpr rfl, fun bs' => (hiff bs').mp⟩

end Schema

end SelectMerge
