import SelectMerge.Proofs.Schema.Casting
import SelectMerge.Proofs.Wire.Addressed
import SelectMerge.Proofs.Wire.Columns

/-!
# Readers and decoders

Whatever the bytes, a reader of a buffer does at a position what the decoder does to the bytes from
there on (`Simulates`), so it comes to no fault. The places that it finds for the parts of a table
are those of the parts that the decoder takes (`Table.Views`).

Taking bytes is simulated because it looks before it reaches (`simulates_take`), and a length
because no product of what is in the buffer outgrows its word (`simulates_length`); sequences and
repetitions keep simulations (`Simulates.bind`, `Simulates.mapM`), up to `simulates_parts`.
-/

namespace SelectMerge.Addressed

open Decoder

variable {α β γ δ : Type} {buffer : Bytes}

/-! ## Readers and decoders -/

/-- The ends of a reader and of a decoder that belong together: related values at one position
inside the buffer, or one error. -/
inductive Ends (buffer : Bytes) (R : α → β → Prop) :
    Access (α × Nat) → Except DecodeError (β × Cursor) → Prop where
  | ok {x : α} {y : β} {position : Nat} (hR : R x y) (hposition : position ≤ buffer.length) :
      Ends buffer R (pure (x, position)) (.ok (y, ⟨position, buffer.drop position⟩))
  | error (e : DecodeError) : Ends buffer R (throw e) (.error e)

/-- Whether a reader does at every position what a decoder does to the bytes from there on. -/
def Simulates (buffer : Bytes) (R : α → β → Prop) (d : Reader α) (e : Decoder β) : Prop :=
  ∀ position ≤ buffer.length,
    Ends buffer R ((d.run buffer).run position) (e.run ⟨position, buffer.drop position⟩)

namespace Simulates

variable {R : α → β → Prop} {R' : γ → δ → Prop} {d : Reader α} {e : Decoder β}

theorem pure {x : α} {y : β} (h : R x y) : Simulates buffer R (pure x) (pure y) :=
  fun _ hposition => .ok h hposition

theorem throw (err : DecodeError) : Simulates buffer R (throw err) (throw err) :=
  fun _ _ => .error err

theorem bind {f : α → Reader γ} {g : β → Decoder δ} (hd : Simulates buffer R d e)
    (hf : ∀ x y, R x y → Simulates buffer R' (f x) (g y)) :
    Simulates buffer R' (d >>= f) (e >>= g) := by
  intro position hposition
  have hends := hd position hposition
  show Ends buffer R'
    ((d.run buffer).run position >>= fun r => ((f r.1).run buffer).run r.2)
    (e.run ⟨position, buffer.drop position⟩ >>= fun r => (g r.1).run r.2)
  generalize (d.run buffer).run position = a at hends ⊢
  generalize e.run ⟨position, buffer.drop position⟩ = b at hends ⊢
  cases hends with
  | ok hR hposition' => exact hf _ _ hR _ hposition'
  | error err => exact .error err

theorem map {f : α → γ} {g : β → δ} (hd : Simulates buffer R d e)
    (hf : ∀ x y, R x y → R' (f x) (g y)) : Simulates buffer R' (f <$> d) (g <$> e) := by
  rw [map_eq_pure_bind, map_eq_pure_bind]
  exact hd.bind fun x y hR => pure (hf x y hR)

theorem cases (h : Simulates buffer R d e) {position : Nat} (hposition : position ≤ buffer.length) :
    (∃ x y position', R x y ∧ position' ≤ buffer.length ∧
      (d.run buffer).run position = Pure.pure (x, position') ∧
      e.run ⟨position, buffer.drop position⟩ = .ok (y, ⟨position', buffer.drop position'⟩)) ∨
    ∃ err, (d.run buffer).run position = MonadExcept.throw err ∧
      e.run ⟨position, buffer.drop position⟩ = .error err := by
  have hends := h position hposition
  generalize (d.run buffer).run position = a at hends ⊢
  generalize e.run ⟨position, buffer.drop position⟩ = b at hends ⊢
  cases hends with
  | ok hR hposition' => exact .inl ⟨_, _, _, hR, hposition', rfl, rfl⟩
  | error err => exact .inr ⟨err, rfl, rfl⟩

end Simulates

/-! ### Bytes -/

theorem run_lift (x : Access α) (f : α → Reader β) (position : Nat) :
    ((liftM x >>= f : Reader β).run buffer).run position =
      x >>= fun a => ((f a).run buffer).run position := by
  rcases x with f | e | a <;> rfl

theorem run_read (f : Bytes → Reader β) (position : Nat) :
    ((read >>= f : Reader β).run buffer).run position = ((f buffer).run buffer).run position := rfl

theorem run_get (f : Nat → Reader β) (position : Nat) :
    ((get >>= f : Reader β).run buffer).run position = ((f position).run buffer).run position := rfl

theorem run_remaining (f : Nat → Reader β) (position : Nat) :
    ((Reader.remaining >>= f).run buffer).run position =
      ((f (buffer.length - position)).run buffer).run position := rfl

theorem word_eq {n : Nat} (h : n < wordLimit) : word n = pure n := if_pos h

theorem slice_eq {start n : Nat} (h : start + n ≤ buffer.length) :
    slice buffer start (start + n) = pure ((buffer.drop start).take n) := by
  rw [slice, if_pos ⟨Nat.le_add_right start n, h⟩, Nat.add_sub_cancel_left]

theorem item_eq {l : List α} {i : Nat} {x : α} (h : l[i]? = some x) : item l i = pure x := by
  rw [item, h]

theorem run_bind_pure {d : Reader α} {x : α} {position position' : Nat}
    (h : (d.run buffer).run position = pure (x, position')) (f : α → Reader β) :
    ((d >>= f).run buffer).run position = ((f x).run buffer).run position' := by
  show ((d.run buffer).run position >>= fun (x, position) => ((f x).run buffer).run position) = _
  rw [h, pure_bind]

theorem run_bind_throw {d : Reader α} {e : DecodeError} {position : Nat}
    (h : (d.run buffer).run position = throw e) (f : α → Reader β) :
    ((d >>= f).run buffer).run position = throw e := by
  show ((d.run buffer).run position >>= fun (x, position) => ((f x).run buffer).run position) = _
  rw [h]
  rfl

theorem take_cases (hbuffer : buffer.length < wordLimit) (n : Nat) {position : Nat}
    (hposition : position ≤ buffer.length) :
    (position + n ≤ buffer.length ∧
      ((Reader.take n).run buffer).run position =
        pure ((buffer.drop position).take n, position + n) ∧
      (Decoder.take n).run ⟨position, buffer.drop position⟩ =
        .ok ((buffer.drop position).take n, ⟨position + n, buffer.drop (position + n)⟩)) ∨
    ∃ e, ((Reader.take n).run buffer).run position = throw e ∧
      (Decoder.take n).run ⟨position, buffer.drop position⟩ = .error e := by
  have hleft : (buffer.drop position).length = buffer.length - position := List.length_drop
  rw [Reader.take, run_get, run_remaining]
  by_cases hn : n ≤ buffer.length - position
  · left
    rw [if_neg (by omega), run_lift, word_eq (by omega), pure_bind, run_read, run_lift,
      slice_eq (by omega), pure_bind, run_take (hleft ▸ hn), List.drop_drop]
    exact ⟨by omega, rfl, rfl⟩
  · right
    have hdecoder : (Decoder.take n).run ⟨position, buffer.drop position⟩ =
        .error (.truncated position n (buffer.length - position)) := by
      rw [← hleft]
      exact if_neg (hleft ▸ hn)
    rw [if_pos (by omega), hdecoder]
    exact ⟨_, rfl, rfl⟩

theorem simulates_take (hbuffer : buffer.length < wordLimit) (n : Nat) :
    Simulates buffer (fun x y => x = y) (Reader.take n) (Decoder.take n) := by
  intro position hposition
  rcases take_cases hbuffer n hposition with ⟨hinside, hreader, hdecoder⟩ | ⟨e, hreader, hdecoder⟩
  · rw [hreader, hdecoder]
    exact .ok rfl hinside
  · rw [hreader, hdecoder]
    exact .error e

/-- Whether a reader of the buffer finds the values that a decoder finds. -/
abbrev Agrees (buffer : Bytes) (d : Reader α) (e : Decoder α) : Prop :=
  Simulates buffer (fun x y => x = y) d e

theorem Agrees.bind {d : Reader α} {e : Decoder α} {f : α → Reader β} {g : α → Decoder β}
    (hd : Agrees buffer d e) (hf : ∀ x, Agrees buffer (f x) (g x)) :
    Agrees buffer (d >>= f) (e >>= g) :=
  Simulates.bind hd fun x _ hxy => hxy ▸ hf x

theorem Agrees.map {d : Reader α} {e : Decoder α} (hd : Agrees buffer d e) (f : α → β) :
    Agrees buffer (f <$> d) (f <$> e) := Simulates.map hd fun _ _ => congrArg f

theorem agrees_pure (x : α) : Agrees buffer (pure x : Reader α) (pure x) := Simulates.pure rfl

section Values

variable (hbuffer : buffer.length < wordLimit)

include hbuffer

theorem agrees_int32 : Agrees buffer Reader.int32 Decoder.int32 :=
  Agrees.map (simulates_take hbuffer 4) _

theorem agrees_int64 : Agrees buffer Reader.int64 Decoder.int64 :=
  Agrees.map (simulates_take hbuffer 8) _

/-- No length is too great for its word when its items are small. -/
theorem simulates_length {itemSize : Nat} (hitem : itemSize ≤ 8) :
    Simulates buffer (fun x y => x = y ∧ y ≤ wireLimit) (Reader.length itemSize)
      (Decoder.length itemSize) := by
  apply Simulates.bind (agrees_int32 hbuffer)
  rintro x _ rfl
  have hlt : x.toInt < 2 ^ 31 := x.toInt_lt
  by_cases hsign : x.toInt < 0
  · simp only [hsign, if_true]
    exact fun _ _ => .error _
  · simp only [hsign, if_false]
    intro position hposition
    have hsmall : x.toInt.toNat * itemSize ≤ 2 ^ 31 * 8 := Nat.mul_le_mul (by omega) hitem
    have hneeded : min (x.toInt.toNat * itemSize) (wordLimit - 1) = x.toInt.toNat * itemSize := by
      unfold wordLimit
      omega
    have hcursor : (get : Decoder Cursor).run ⟨position, buffer.drop position⟩ =
        .ok (⟨position, buffer.drop position⟩, ⟨position, buffer.drop position⟩) := rfl
    rw [run_get, run_remaining, hneeded, run_bind_ok hcursor, List.length_drop]
    by_cases hroom : x.toInt.toNat * itemSize ≤ buffer.length - position
    · rw [if_neg (by omega), if_pos hroom]
      refine .ok ⟨rfl, ?_⟩ hposition
      unfold wireLimit
      omega
    · rw [if_pos (by omega), if_neg hroom]
      exact .error _

theorem agrees_blob : Agrees buffer Reader.blob Decoder.blob := by
  apply Simulates.bind (simulates_length hbuffer (by omega))
  rintro n _ ⟨rfl, -⟩
  exact simulates_take hbuffer n

theorem agrees_text (what : String) : Agrees buffer (Reader.text what) (Decoder.text what) := by
  apply Agrees.bind (agrees_blob hbuffer)
  intro bs
  cases Bytes.text? bs with
  | some s => exact agrees_pure s
  | none => exact Simulates.throw _

omit hbuffer in
theorem agrees_times {d : Reader α} {e : Decoder α} (h : Agrees buffer d e) (n : Nat) :
    Agrees buffer (Reader.times d n) (Decoder.times e n) := by
  induction n with
  | zero => exact agrees_pure []
  | succ n ih =>
    apply Agrees.bind h
    intro x
    apply Agrees.bind ih
    intro xs
    exact agrees_pure (x :: xs)

/-! ### Values -/

theorem agrees_scalar (what : String) (s : Scalar) :
    Agrees buffer (Reader.scalar what s) (s.decode what) := by
  cases s with
  | int => exact agrees_int32 hbuffer
  | long | timestamp => exact agrees_int64 hbuffer
  | float => exact Agrees.bind (simulates_take hbuffer 4) fun _ => agrees_pure _
  | double => exact Agrees.bind (simulates_take hbuffer 8) fun _ => agrees_pure _
  | boolean => exact Agrees.bind (agrees_int32 hbuffer) fun _ => agrees_pure _
  | string => exact agrees_text hbuffer what
  | bytes => exact agrees_blob hbuffer
  | object =>
    apply Agrees.bind (agrees_blob hbuffer)
    intro bs
    cases Scalar.document? bs with
    | some j => exact agrees_pure j
    | none => exact Simulates.throw _

theorem agrees_array (s : Scalar) : Agrees buffer (Reader.array s) (Payload.decodeArray s) := by
  have hleast : s.leastSize ≤ 8 := by cases s <;> decide
  apply Simulates.bind (simulates_length hbuffer hleast)
  rintro n _ ⟨rfl, -⟩
  exact agrees_times (agrees_scalar hbuffer _ s) n

theorem agrees_cell (t : ColumnType) : Agrees buffer (Reader.cell t) (Payload.decodeCell t) := by
  cases t with
  | one s => exact (agrees_scalar hbuffer _ s).map _
  | many s => exact (agrees_array hbuffer s).map _

/-! ### Schemas -/

theorem agrees_column : Agrees buffer Reader.column Schema.decodeColumn := by
  apply Agrees.bind (agrees_text hbuffer _)
  intro name
  apply Agrees.bind (agrees_int32 hbuffer)
  intro x
  dsimp only
  cases ColumnType.ofOrdinal? x.toInt with
  | some type => exact agrees_pure (name, type)
  | none => exact Simulates.throw _

theorem simulates_schema :
    Simulates buffer (fun x y => x = y ∧ y.Aligned) Reader.schema Schema.decode := by
  apply Simulates.bind (simulates_length hbuffer (by omega))
  rintro n _ ⟨rfl, -⟩
  apply Simulates.map (agrees_times (agrees_column hbuffer) n)
  rintro columns _ rfl
  refine ⟨rfl, ?_⟩
  rw [Schema.Aligned, Schema.ofColumns, List.length_map, List.length_map]

end Values

/-! ## Parts -/

/-- Whether a section is what the buffer holds from `start` on. -/
structure StartsAt (buffer : Bytes) (rowCount : Nat) (t : ColumnType) (start : Nat) (s : Section) :
    Prop where
  inside : start + bitmapLength rowCount + rowCount * t.slotWidth ≤ buffer.length
  nulls : s.nulls = (buffer.drop start).take (bitmapLength rowCount)
  slots : s.slots =
    (buffer.drop (start + bitmapLength rowCount)).take (rowCount * t.slotWidth)

theorem slotWidth_le (t : ColumnType) : t.slotWidth ≤ 8 := by
  rcases t with s | s <;> cases s <;> decide

theorem mul_slotWidth_lt {rowCount : Nat} (h : rowCount ≤ wireLimit) (t : ColumnType) :
    rowCount * t.slotWidth < wordLimit := by
  have hle : rowCount * t.slotWidth ≤ wireLimit * 8 := Nat.mul_le_mul h (slotWidth_le t)
  unfold wireLimit at hle
  unfold wordLimit
  omega

theorem simulates_columnStart (hbuffer : buffer.length < wordLimit) {rowCount : Nat}
    (hcount : rowCount ≤ wireLimit) (t : ColumnType) :
    Simulates buffer (StartsAt buffer rowCount t) (Reader.columnStart rowCount t)
      (Payload.decodeSection rowCount t) := by
  intro position hposition
  rw [Reader.columnStart, run_get, if_pos (mul_slotWidth_lt hcount t), Payload.decodeSection]
  rcases take_cases hbuffer (bitmapLength rowCount) hposition with
    ⟨hnulls, hreader, hdecoder⟩ | ⟨e, hreader, hdecoder⟩
  · rw [run_bind_pure hreader, run_bind_ok hdecoder]
    rcases take_cases hbuffer (rowCount * t.slotWidth) hnulls with
      ⟨hslots, hreader', hdecoder'⟩ | ⟨e, hreader', hdecoder'⟩
    · rw [run_bind_pure hreader', run_bind_ok hdecoder']
      exact .ok ⟨hslots, rfl, rfl⟩ hslots
    · rw [run_bind_throw hreader', run_bind_error hdecoder']
      exact .error e
  · rw [run_bind_throw hreader, run_bind_error hdecoder]
    exact .error e

theorem Simulates.mapM {R : α → β → γ → Prop} {f : α → Reader β} {g : α → Decoder γ} {l : List α}
    (h : ∀ a, Simulates buffer (R a) (f a) (g a)) :
    Simulates buffer (fun xs ys => xs.length = l.length ∧ ys.length = l.length ∧
      ∀ (j : Nat) a x y, l[j]? = some a → xs[j]? = some x → ys[j]? = some y → R a x y)
      (l.mapM f) (l.mapM g) := by
  induction l with
  | nil => exact Simulates.pure ⟨rfl, rfl, by simp⟩
  | cons a l ih =>
    rw [List.mapM_cons, List.mapM_cons]
    apply (h a).bind
    intro x y hxy
    apply ih.bind
    rintro xs ys ⟨hxs, hys, hall⟩
    refine Simulates.pure ⟨by simp [hxs], by simp [hys], ?_⟩
    intro j a' x' y' ha' hx' hy'
    cases j with
    | zero =>
      obtain rfl := Option.some.inj ha'
      obtain rfl := Option.some.inj hx'
      obtain rfl := Option.some.inj hy'
      exact hxy
    | succ j => exact hall j a' x' y' ha' hx' hy'

/-- Whether the positions of a table are those of the parts of a payload in one buffer. -/
structure Table.Views (T : Table) (p : Payload) : Prop where
  small : T.bytes.length < wordLimit
  schema : T.schema = p.schema
  aligned : p.schema.Aligned
  rowCount : T.rowCount = p.rowCount
  limit : p.rowCount ≤ wireLimit
  starts : T.columnStarts.length = p.schema.types.length
  sections : p.sections.length = p.schema.types.length
  columns : ∀ (j : Nat) t start s, p.schema.types[j]? = some t → T.columnStarts[j]? = some start →
    p.sections[j]? = some s → StartsAt T.bytes p.rowCount t start s
  poolLength : T.poolLength = p.pool.length
  poolEnd : T.poolStart + T.poolLength ≤ T.bytes.length
  pool : p.pool = (T.bytes.drop T.poolStart).take T.poolLength

theorem simulates_parts (hbuffer : buffer.length < wordLimit) :
    Simulates buffer
      (fun (schema, rowCount, starts, poolStart, poolLength) (schema', rowCount', sections, pool) =>
        Table.Views ⟨buffer, schema, rowCount, starts, poolStart, poolLength⟩
          ⟨buffer, schema', rowCount', sections, pool⟩)
      Reader.parts Payload.decodeParts := by
  apply (simulates_schema hbuffer).bind
  rintro schema _ ⟨rfl, haligned⟩
  apply (simulates_length hbuffer (by omega)).bind
  rintro rowCount _ ⟨rfl, hlimit⟩
  apply (Simulates.mapM (simulates_columnStart hbuffer hlimit)).bind
  rintro starts sections ⟨hstarts, hsections, hcolumns⟩
  apply (simulates_length hbuffer (by omega)).bind
  rintro poolLength _ ⟨rfl, -⟩
  intro position hposition
  rw [run_get]
  rcases take_cases hbuffer poolLength hposition with
    ⟨hinside, hreader, hdecoder⟩ | ⟨e, hreader, hdecoder⟩
  · rw [run_bind_pure hreader, run_bind_ok hdecoder]
    have hlength : ((buffer.drop position).take poolLength).length = poolLength := by
      rw [List.length_take, List.length_drop, Nat.min_eq_left (by omega)]
    exact .ok ⟨hbuffer, rfl, haligned, rfl, hlimit, hstarts, hsections, hcolumns, hlength.symm,
      hinside, rfl⟩ hinside
  · rw [run_bind_throw hreader, run_bind_error hdecoder]
    exact .error e

end SelectMerge.Addressed
