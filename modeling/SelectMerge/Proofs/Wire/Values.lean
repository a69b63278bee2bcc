import Mathlib.Algebra.Order.BigOperators.Group.List
import SelectMerge.Proofs.Outcome
import SelectMerge.Proofs.Schema.Projection
import SelectMerge.Proofs.Wire.Reading
import SelectMerge.Wire.Payload

/-!
# Encoded values

Every value of a kind is written in as many bytes as its size says and read back from them
(`Scalar.reads_encode`), and so is every array (`Scalar.reads_array`), as long as the sizes fit the
wire and documents survive their own text (`Survives`). Schemas are read back as well
(`Schema.exists_encode`): the room that a length asks for is what the items behind it take at least.
-/

namespace SelectMerge

open Decoder

/-! ## Scalars -/

namespace Scalar

/-- The number of bytes that a value takes; texts, bytes and documents come with their length. -/
def size : (s : Scalar) → s.Carrier → Nat
  | string => fun (s : String) => 4 + (Bytes.ofText s).length
  | bytes => fun (bs : Bytes) => 4 + bs.length
  | object => fun (j : Json) => 4 + (Bytes.ofText j.print).length
  | s => fun _ => s.leastSize

/-- Whether reading the text of a value, where it is a document, gives the value back. -/
def Survives : (s : Scalar) → s.Carrier → Prop
  | object => fun (j : Json) => Json.read? j.print.toList = some j
  | _ => fun _ => True

variable {s : Scalar} {x : s.Carrier} {bs : Bytes}

theorem leastSize_le_size (s : Scalar) (x : s.Carrier) : s.leastSize ≤ s.size x := by
  cases s with
  | string | bytes | object => exact Nat.le_add_right 4 _
  | int | long | float | double | boolean | timestamp => exact Nat.le_refl _

theorem size_of_width? {width : Nat} (h : s.width? = some width) : s.size x = width := by
  cases s with
  | string | bytes | object => cases h
  | int | long | float | double | boolean | timestamp => exact Option.some.inj h

theorem exists_encode (h : s.size x ≤ wireLimit) : ∃ bs, s.encode x = .ok bs := by
  -- what follows a length is no longer than the whole
  have hblob : ∀ bs : Bytes, 4 + bs.length ≤ wireLimit → ∃ out, Bytes.blob bs = .ok out :=
    fun bs h => ⟨_, Bytes.blob_eq_ok_iff.mpr ⟨by omega, rfl⟩⟩
  cases s with
  | string | bytes | object => exact hblob _ h
  | int | long | float | double | boolean | timestamp => exact ⟨_, rfl⟩

theorem length_encode (h : s.encode x = .ok bs) : bs.length = s.size x := by
  have hblob : ∀ {bs out : Bytes}, Bytes.blob bs = .ok out → out.length = 4 + bs.length := by
    intro bs out h
    obtain ⟨-, rfl⟩ := Bytes.blob_eq_ok_iff.mp h
    rw [List.length_append, Bytes.length_ofNat]
  cases s with
  | string | bytes | object => exact hblob h
  | int | long | float | double | boolean | timestamp =>
    obtain rfl := Except.ok.inj h
    exact Bytes.length_ofNat _ _

/-! ### Reading back -/

theorem reads_binary32 (x : Binary32) :
    (do return (⟨UInt32.ofNat (← take 4).toNat⟩ : Binary32) : Decoder Binary32).Reads
      (Bytes.ofNat 4 x.bits.toNat) x := by
  have hread := (reads_take (Bytes.length_ofNat 4 x.bits.toNat)).map
    fun bs => (⟨UInt32.ofNat bs.toNat⟩ : Binary32)
  have hlt : x.bits.toNat < 256 ^ 4 := x.bits.toNat_lt
  rwa [Bytes.toNat_ofNat, Nat.mod_eq_of_lt hlt, UInt32.ofNat_toNat] at hread

theorem reads_binary64 (x : Binary64) :
    (do return (⟨UInt64.ofNat (← take 8).toNat⟩ : Binary64) : Decoder Binary64).Reads
      (Bytes.ofNat 8 x.bits.toNat) x := by
  have hread := (reads_take (Bytes.length_ofNat 8 x.bits.toNat)).map
    fun bs => (⟨UInt64.ofNat bs.toNat⟩ : Binary64)
  have hlt : x.bits.toNat < 256 ^ 8 := x.bits.toNat_lt
  rwa [Bytes.toNat_ofNat, Nat.mod_eq_of_lt hlt, UInt64.ofNat_toNat] at hread

theorem reads_boolean (b : Bool) :
    (do return (← int32) != 0 : Decoder Bool).Reads (Bytes.ofNat 4 b.toNat) b := by
  cases b with
  | false => exact (reads_int32 0).map fun x => x != 0
  | true => exact (reads_int32 1).map fun x => x != 0

theorem reads_document {j : Json} (h : (Bytes.ofText j.print).length ≤ wireLimit)
    (hj : Json.read? j.print.toList = some j) (what : String) :
    (decode what object).Reads
      (Bytes.ofNat 4 (Bytes.ofText j.print).length ++ Bytes.ofText j.print) j := by
  intro offset rest
  have hdoc : document? (Bytes.ofText j.print) = some j := by
    rw [document?, Bytes.text?_ofText]
    exact hj
  rw [decode, run_bind_ok (reads_blob h offset rest), hdoc]
  rfl

/-- A value is read back from its bytes. -/
theorem reads_encode (what : String) (hx : s.Survives x) (h : s.encode x = .ok bs) :
    (s.decode what).Reads bs x := by
  cases s with
  | int =>
    obtain rfl := Except.ok.inj h
    exact reads_int32 x
  | long | timestamp =>
    obtain rfl := Except.ok.inj h
    exact reads_int64 x
  | float =>
    obtain rfl := Except.ok.inj h
    exact reads_binary32 x
  | double =>
    obtain rfl := Except.ok.inj h
    exact reads_binary64 x
  | boolean =>
    obtain rfl := Except.ok.inj h
    exact reads_boolean x
  | string =>
    obtain ⟨hlen, rfl⟩ := Bytes.blob_eq_ok_iff.mp h
    exact reads_text hlen what
  | bytes =>
    obtain ⟨hlen, rfl⟩ := Bytes.blob_eq_ok_iff.mp h
    exact reads_blob hlen
  | object =>
    obtain ⟨hlen, rfl⟩ := Bytes.blob_eq_ok_iff.mp h
    exact reads_document hlen hx what

end Scalar

/-! ## Arrays -/

namespace Scalar

variable {s : Scalar} {xs : List s.Carrier} {parts : List Bytes}

theorem exists_mapM_encode (h : (xs.map s.size).sum ≤ wireLimit) :
    ∃ parts, xs.mapM s.encode = .ok parts := by
  apply exists_mapM_eq_ok
  intro x hx
  have hle : s.size x ≤ (xs.map s.size).sum := List.le_sum_of_mem (List.mem_map_of_mem hx)
  exact exists_encode (hle.trans h)

theorem length_flatten_of_mapM (h : xs.mapM s.encode = .ok parts) :
    parts.flatten.length = (xs.map s.size).sum := by
  have hall := mapM_eq_ok_iff.mp h
  clear h
  induction hall with
  | nil => rfl
  | cons hx _ ih => simp [ih, length_encode hx]

theorem length_mul_leastSize_le (xs : List s.Carrier) :
    xs.length * s.leastSize ≤ (xs.map s.size).sum := by
  induction xs with
  | nil => simp
  | cons x xs ih =>
    have hx := s.leastSize_le_size x
    rw [List.length_cons, List.map_cons, List.sum_cons, Nat.add_mul]
    omega

theorem length_le_sum_size (xs : List s.Carrier) : xs.length ≤ (xs.map s.size).sum := by
  have hpos : 1 ≤ s.leastSize := by cases s <;> decide
  calc xs.length = xs.length * 1 := (Nat.mul_one _).symm
    _ ≤ xs.length * s.leastSize := Nat.mul_le_mul_left _ hpos
    _ ≤ (xs.map s.size).sum := length_mul_leastSize_le xs

theorem reads_array (hxs : ∀ x ∈ xs, s.Survives x) (hsize : (xs.map s.size).sum ≤ wireLimit)
    (h : xs.mapM s.encode = .ok parts) :
    (Payload.decodeArray s).Reads (Bytes.ofNat 4 xs.length ++ parts.flatten) xs := by
  have hroom : xs.length * s.leastSize ≤ parts.flatten.length :=
    length_flatten_of_mapM h ▸ length_mul_leastSize_le xs
  apply Reads.length_bind ((length_le_sum_size xs).trans hsize) hroom
  apply reads_times
  have hall := mapM_eq_ok_iff.mp h
  clear h hroom hsize
  induction hall with
  | nil => exact .nil
  | cons hx _ ih =>
    obtain ⟨hsurvives, hrest⟩ := List.forall_mem_cons.mp hxs
    exact .cons (reads_encode _ hsurvives hx) (ih hrest)

end Scalar

/-! ## Cells -/

namespace Cell

/-- The number of bytes that a value takes, in its slot or in the pool; null takes none there. -/
def size : Cell → Nat
  | null => 0
  | one s x => s.size x
  | many s xs => 4 + (xs.map s.size).sum

/-- Whether reading the texts of the documents in a cell gives them back. -/
def Survives : Cell → Prop
  | null => True
  | one s x => s.Survives x
  | many s xs => ∀ x ∈ xs, s.Survives x

variable {c : Cell} {t : ColumnType} {bs : Bytes} {width : Nat}

/-! ### Words -/

theorem exists_encodeWord (hfit : c.fits t) (hwidth : t.width? = some width) :
    ∃ bs, c.encodeWord t = .ok bs ∧ bs.length = width := by
  cases c with
  | null => exact ⟨_, rfl, by simp [ColumnType.slotWidth, hwidth]⟩
  | one s x =>
    obtain rfl : ColumnType.one s = t := by simpa [fits, type?] using hfit
    have hs : s.width? = some width := hwidth
    have hsmall : s.size x ≤ wireLimit := by
      rw [Scalar.size_of_width? hs]
      cases s <;> cases hs <;> decide
    obtain ⟨bs, hbs⟩ := Scalar.exists_encode hsmall
    refine ⟨bs, ?_, ?_⟩
    · rw [encodeWord, hs]
      exact hbs
    · rw [Scalar.length_encode hbs, Scalar.size_of_width? hs]
  | many s xs =>
    obtain rfl : ColumnType.many s = t := by simpa [fits, type?] using hfit
    cases hwidth

theorem reads_encodeWord (hfit : c.fits t) (hnull : c.isNull = false) (hc : c.Survives)
    (hwidth : t.width? = some width) (h : c.encodeWord t = .ok bs) :
    (Payload.decodeCell t).Reads bs c := by
  cases c with
  | null => cases hnull
  | one s x =>
    obtain rfl : ColumnType.one s = t := by simpa [fits, type?] using hfit
    have hs : s.width? = some width := hwidth
    rw [encodeWord, hs] at h
    exact (Scalar.reads_encode _ hc h).map _
  | many s xs => cases h

/-! ### Pooled values -/

theorem exists_encodePooled (hfit : c.fits t) (hnull : c.isNull = false)
    (hwidth : t.width? = none) (hsize : c.size ≤ wireLimit) :
    ∃ bs, c.encodePooled t = .ok bs ∧ bs.length = c.size := by
  cases c with
  | null => cases hnull
  | one s x =>
    obtain rfl : ColumnType.one s = t := by simpa [fits, type?] using hfit
    have hs : s.width? = none := hwidth
    obtain ⟨bs, hbs⟩ := Scalar.exists_encode hsize
    refine ⟨bs, ?_, Scalar.length_encode hbs⟩
    rw [encodePooled, hs]
    exact hbs
  | many s xs =>
    have hsum : (xs.map s.size).sum ≤ wireLimit := le_trans (Nat.le_add_left _ 4) hsize
    obtain ⟨parts, hparts⟩ := Scalar.exists_mapM_encode hsum
    refine ⟨Bytes.ofNat 4 xs.length ++ parts.flatten, ?_, ?_⟩
    · rw [encodePooled, Bytes.ofLength_eq_ok ((Scalar.length_le_sum_size xs).trans hsum), hparts]
      rfl
    · rw [List.length_append, Bytes.length_ofNat, Scalar.length_flatten_of_mapM hparts, size]

theorem reads_encodePooled (hfit : c.fits t) (hnull : c.isNull = false) (hc : c.Survives)
    (hwidth : t.width? = none) (hsize : c.size ≤ wireLimit) (h : c.encodePooled t = .ok bs) :
    (Payload.decodeCell t).Reads bs c := by
  cases c with
  | null => cases hnull
  | one s x =>
    obtain rfl : ColumnType.one s = t := by simpa [fits, type?] using hfit
    have hs : s.width? = none := hwidth
    rw [encodePooled, hs] at h
    exact (Scalar.reads_encode _ hc h).map _
  | many s xs =>
    obtain rfl : ColumnType.many s = t := by simpa [fits, type?] using hfit
    have hsum : (xs.map s.size).sum ≤ wireLimit := le_trans (Nat.le_add_left _ 4) hsize
    obtain ⟨count, hcount, h⟩ := bind_eq_ok_iff.mp h
    obtain ⟨parts, hparts, h⟩ := bind_eq_ok_iff.mp h
    rw [Bytes.ofLength_eq_ok ((Scalar.length_le_sum_size xs).trans hsum)] at hcount
    obtain rfl := Except.ok.inj hcount
    obtain rfl := Except.ok.inj h
    exact (Scalar.reads_array hc hsum hparts).map _

theorem four_le_size (hfit : c.fits t) (hnull : c.isNull = false) : 4 ≤ c.size := by
  cases c with
  | null => cases hnull
  | one s x =>
    have hleast : 4 ≤ s.leastSize := by cases s <;> decide
    exact hleast.trans (s.leastSize_le_size x)
  | many s xs => exact Nat.le_add_right 4 _

end Cell

/-! ## Schemas -/

namespace Schema

theorem ofOrdinal?_ordinal (t : ColumnType) : ColumnType.ofOrdinal? t.ordinal = some t := by
  rcases t with s | s <;> cases s <;> rfl

/-- The bytes of a column: its name after its length, and the number of its type. -/
def columnBytes (column : String × ColumnType) : Bytes :=
  Bytes.ofNat 4 (Bytes.ofText column.1).length ++ Bytes.ofText column.1 ++
    Bytes.ofNat 4 column.2.ordinal

variable {s : Schema} {column : String × ColumnType}

theorem encodeColumn_eq_ok (h : (Bytes.ofText column.1).length ≤ wireLimit) :
    encodeColumn column.1 column.2 = .ok (columnBytes column) := by
  rw [encodeColumn, Bytes.blob_eq_ok_iff.mpr ⟨h, rfl⟩]
  rfl

theorem reads_column (h : (Bytes.ofText column.1).length ≤ wireLimit) :
    decodeColumn.Reads (columnBytes column) column := by
  obtain ⟨name, type⟩ := column
  have hordinal : type.ordinal ≤ wireLimit := by
    rcases type with s | s <;> cases s <;> decide
  have hword : int32.Reads (Bytes.ofNat 4 type.ordinal)
      (Bytes.toInt32 (Bytes.ofNat 4 type.ordinal)) :=
    (reads_take (Bytes.length_ofNat 4 type.ordinal)).map Bytes.toInt32
  apply (reads_text h "column name").bind
  intro offset rest
  rw [run_bind_ok (hword offset rest), Bytes.toInt_toInt32_ofNat hordinal]
  dsimp only
  rw [ofOrdinal?_ordinal]
  rfl

theorem length_mul_le_length_columns (columns : List (String × ColumnType)) :
    columns.length * 8 ≤ (columns.map columnBytes).flatten.length := by
  induction columns with
  | nil => simp
  | cons column columns ih =>
    have hcolumn : 8 ≤ (columnBytes column).length := by
      simp only [columnBytes, List.length_append, Bytes.length_ofNat]
      omega
    rw [List.length_cons, List.map_cons, List.flatten_cons, List.length_append]
    omega

/-- A schema is read back from its bytes. -/
theorem exists_encode (hs : s.Aligned) (hlen : s.length ≤ wireLimit)
    (hnames : ∀ name ∈ s.names, (Bytes.ofText name).length ≤ wireLimit) :
    ∃ bs, s.encode = .ok bs ∧ decode.Reads bs s := by
  have hcolumns : ∀ column ∈ s.columns, (Bytes.ofText column.1).length ≤ wireLimit :=
    fun column hcolumn => hnames column.1 (List.of_mem_zip hcolumn).1
  have hcount : s.columns.length = s.length := by
    rw [columns, List.length_zip, ← hs, Nat.min_self]
    rfl
  have hparts : s.columns.mapM (fun column => encodeColumn column.1 column.2) =
      .ok (s.columns.map columnBytes) :=
    mapM_eq_ok_map fun column hcolumn => encodeColumn_eq_ok (hcolumns column hcolumn)
  refine ⟨Bytes.ofNat 4 s.length ++ (s.columns.map columnBytes).flatten, ?_, ?_⟩
  · rw [encode, Bytes.ofLength_eq_ok hlen, hparts]
    rfl
  · have hroom : s.length * 8 ≤ (s.columns.map columnBytes).flatten.length :=
      hcount ▸ length_mul_le_length_columns s.columns
    have htimes : (times decodeColumn s.length).Reads (s.columns.map columnBytes).flatten
        s.columns := by
      rw [← hcount]
      apply reads_times
      rw [List.forall₂_map_right_iff, List.forall₂_same]
      exact fun column hcolumn => reads_column (hcolumns column hcolumn)
    have hback : ofColumns s.columns = s := by
      rw [ofColumns, columns, List.map_fst_zip hs.le, List.map_snd_zip hs.ge]
    have hread := htimes.map ofColumns
    rw [hback] at hread
    exact .length_bind hlen hroom hread

end Schema

end SelectMerge
