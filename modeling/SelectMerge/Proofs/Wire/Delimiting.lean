import SelectMerge.Proofs.Wire.Spelling

/-!
# Where encodings end

A reader never looks further than it takes, except for a length, which asks for room. So more bytes
behind what it took make no difference to it, and fewer make it run short before it can find
anything else wrong. A buffer that is accepted therefore tells where its encoding ends: each strict
beginning of it is refused for want of bytes, and whatever follows it as bytes too many
(`Delimits`).

`Steady` is the property of readers behind this; it is kept by sequences and repetitions
(`Steady.bind`, `steady_times`), and lengths have it because room that is there stays there
(`steady_room`). `delimits_of_accepted` is about every buffer that is accepted, whoever wrote it.
-/

namespace SelectMerge

/-! ## Running short -/

/-- Whether the error tells that a buffer of the given size ended before what was to be taken. -/
def DecodeError.RunsShort (size : Nat) (e : DecodeError) : Prop :=
  ∃ offset needed available, e = .truncated offset needed available ∧
    offset + available = size ∧ available < needed

namespace Cursor

/-- The size of the buffer. -/
def size (c : Cursor) : Nat := c.offset + c.rest.length

/-- The same place in a buffer with more bytes at its end. -/
def extend (c : Cursor) (more : Bytes) : Cursor := ⟨c.offset, c.rest ++ more⟩

theorem length_rest_extend (c : Cursor) (more : Bytes) :
    (c.extend more).rest.length = c.rest.length + more.length := List.length_append

end Cursor

namespace Decoder

variable {α β : Type} {d : Decoder α} {f : α → Decoder β} {bs : Bytes} {x : α} {c : Cursor}

/-- Whether bytes at the end of the buffer make no difference to the reader as long as it does not
run short without them. -/
def Steady (d : Decoder α) : Prop :=
  ∀ c more,
    (∃ x c', d.run c = .ok (x, c') ∧ c'.size = c.size ∧
      d.run (c.extend more) = .ok (x, c'.extend more)) ∨
    ∃ e, d.run c = .error e ∧ (e.RunsShort c.size ∨ d.run (c.extend more) = .error e)

theorem steady_pure (x : α) : (pure x : Decoder α).Steady := fun c _ => .inl ⟨x, c, rfl, rfl, rfl⟩

theorem steady_throw (e : DecodeError) : (throw e : Decoder α).Steady :=
  fun _ _ => .inr ⟨e, rfl, .inr rfl⟩

theorem Steady.bind (hd : d.Steady) (hf : ∀ x, (f x).Steady) : (d >>= f).Steady := by
  intro c more
  rcases hd c more with ⟨x, c', hrun, hsize, hmore⟩ | ⟨e, hrun, herror⟩
  · rw [run_bind_ok hrun, run_bind_ok hmore, ← hsize]
    exact hf x c' more
  · exact .inr ⟨e, run_bind_error hrun f, herror.imp_right fun h => run_bind_error h f⟩

theorem Steady.map (hd : d.Steady) (g : α → β) : (g <$> d).Steady := by
  rw [map_eq_pure_bind]
  exact hd.bind fun x => steady_pure (g x)

/-! ## Readers -/

theorem run_take_of_lt {n : Nat} (h : c.rest.length < n) :
    (take n).run c = .error (.truncated c.offset n c.rest.length) := if_neg (Nat.not_le.mpr h)

theorem steady_take (n : Nat) : (take n).Steady := by
  intro c more
  by_cases hn : n ≤ c.rest.length
  · have hmore : n ≤ (c.rest ++ more).length := by
      rw [List.length_append]
      omega
    refine .inl ⟨_, _, run_take hn, ?_, ?_⟩
    · show c.offset + n + (c.rest.drop n).length = c.offset + c.rest.length
      rw [List.length_drop]
      omega
    · rw [Cursor.extend, run_take hmore, List.take_append_of_le_length hn,
        List.drop_append_of_le_length hn]
      rfl
  · exact .inr ⟨_, run_take_of_lt (Nat.not_le.mp hn),
      .inl ⟨_, _, _, rfl, rfl, Nat.not_le.mp hn⟩⟩

theorem steady_int32 : int32.Steady := (steady_take 4).map _

/-- What a length does once its word is read: it looks for room and takes nothing. -/
theorem steady_room (x needed : Nat) : (do
    let c ← get
    if needed ≤ c.rest.length then return x
    else throw (.truncated c.offset needed c.rest.length) : Decoder Nat).Steady := by
  intro c more
  have hget : ∀ c : Cursor, (get : Decoder Cursor).run c = .ok (c, c) := fun _ => rfl
  rw [run_bind_ok (hget c), run_bind_ok (hget (c.extend more)), c.length_rest_extend]
  by_cases hroom : needed ≤ c.rest.length
  · rw [if_pos hroom, if_pos (by omega)]
    exact .inl ⟨x, c, rfl, rfl, rfl⟩
  · rw [if_neg hroom]
    exact .inr ⟨_, rfl, .inl ⟨_, _, _, rfl, rfl, Nat.not_le.mp hroom⟩⟩

theorem steady_length (itemSize : Nat) : (length itemSize).Steady := by
  refine steady_int32.bind fun x => ?_
  by_cases hsign : x.toInt < 0
  · intro c more
    exact .inr ⟨.negativeLength x.toInt, by rw [if_pos hsign]; rfl, .inr (by rw [if_pos hsign]; rfl)⟩
  · simp only [hsign, if_false]
    exact steady_room _ _

theorem steady_blob : blob.Steady := (steady_length 1).bind steady_take

theorem steady_text (what : String) : (text what).Steady := by
  refine steady_blob.bind fun bs => ?_
  cases Bytes.text? bs with
  | none => exact steady_throw _
  | some s => exact steady_pure s

theorem steady_times (hd : d.Steady) (n : Nat) : (times d n).Steady := by
  induction n with
  | zero => exact steady_pure []
  | succ n ih => exact hd.bind fun x => ih.bind fun xs => steady_pure (x :: xs)

theorem steady_mapM {l : List α} (h : ∀ a ∈ l, (f a).Steady) : (l.mapM f).Steady := by
  induction l with
  | nil => exact steady_pure []
  | cons a l ih =>
    rw [List.mapM_cons]
    exact (h a (by simp)).bind fun b =>
      (ih fun a' ha' => h a' (by simp [ha'])).bind fun bs => steady_pure (b :: bs)

/-! ## Whole buffers -/

/-- Whether a buffer tells a reader where its encoding ends: every strict beginning of it is refused
as too short, and every longer buffer that begins with it as too long. -/
structure Delimits (read : Bytes → Except DecodeError α) (bs : Bytes) : Prop where
  short : ∀ part, part <+: bs → part ≠ bs → ∃ e, read part = .error e ∧ e.RunsShort part.length
  long : ∀ more, more ≠ [] → read (bs ++ more) = .error (.trailingBytes more.length)

theorem Delimits.short_take {read : Bytes → Except DecodeError α} (h : Delimits read bs) {n : Nat}
    (hn : n < bs.length) : ∃ e, read (bs.take n) = .error e ∧ e.RunsShort n := by
  have hlength : (bs.take n).length = n := List.length_take_of_le hn.le
  have hne : bs.take n ≠ bs := by
    intro heq
    rw [heq] at hlength
    omega
  simpa only [hlength] using h.short _ (List.take_prefix n bs) hne

theorem runAll_eq_of_run {c' : Cursor} (h : d.run ⟨0, bs⟩ = .ok (x, c')) :
    d.runAll bs = if c'.rest.length = 0 then .ok x else .error (.trailingBytes c'.rest.length) := by
  rw [runAll, h]
  show (if c'.rest.length = 0 then pure x else throw _) = _
  rfl

theorem Steady.delimits (hd : d.Steady) (h : d.runAll bs = .ok x) : Delimits d.runAll bs where
  short := by
    rintro part ⟨more, rfl⟩ hne
    obtain ⟨offset, hall⟩ := runAll_eq_ok_iff.mp h
    rcases hd ⟨0, part⟩ more with ⟨y, c', -, -, hmore⟩ | ⟨e, hpart, hshort | hmore⟩
    · -- what is taken of the beginning leaves at least the rest, and nothing is left of it all
      obtain ⟨-, hc⟩ := Prod.mk.inj (Except.ok.inj (hmore.symm.trans hall))
      have hrest : c'.rest ++ more = [] := congrArg Cursor.rest hc
      obtain ⟨-, rfl⟩ := List.append_eq_nil_iff.mp hrest
      exact absurd (List.append_nil part).symm hne
    · refine ⟨e, ?_, by simpa [Cursor.size] using hshort⟩
      rw [runAll, hpart]
      rfl
    · cases hmore.symm.trans hall
  long := by
    intro more hne
    obtain ⟨offset, hall⟩ := runAll_eq_ok_iff.mp h
    rcases hd ⟨0, bs⟩ more with ⟨y, c', hbs, -, hmore⟩ | ⟨e, hbs, -⟩
    · obtain ⟨rfl, rfl⟩ := Prod.mk.inj (Except.ok.inj (hall.symm.trans hbs))
      have hlength : more.length ≠ 0 := mt List.length_eq_zero_iff.mp hne
      exact (runAll_eq_of_run hmore).trans (if_neg hlength)
    · cases hall.symm.trans hbs

end Decoder

/-! ## Schemas and payloads -/

open Decoder

namespace Schema

theorem steady_column : decodeColumn.Steady := by
  refine (steady_text _).bind fun name => steady_int32.bind fun ordinal => ?_
  cases h : ColumnType.ofOrdinal? ordinal.toInt with
  | none =>
    simp only [h]
    exact steady_throw _
  | some type =>
    simp only [h]
    exact steady_pure _

theorem steady_schema : decode.Steady :=
  (steady_length 8).bind fun n => (steady_times steady_column n).bind fun _ => steady_pure _

end Schema

namespace Payload

theorem steady_section (rowCount : Nat) (t : ColumnType) : (decodeSection rowCount t).Steady :=
  (steady_take _).bind fun _ => (steady_take _).bind fun _ => steady_pure _

theorem steady_parts : decodeParts.Steady :=
  Schema.steady_schema.bind fun _ => (steady_length 0).bind fun rowCount =>
    (steady_mapM fun t _ => steady_section rowCount t).bind fun _ =>
      (steady_length 1).bind fun _ => (steady_take _).bind fun _ => steady_pure _

theorem ofBytes_eq_error {bs : Bytes} {e : DecodeError} (h : decodeParts.runAll bs = .error e) :
    ofBytes bs = .error e := by
  rw [ofBytes, h]
  rfl

theorem delimits_ofBytes {bs : Bytes} {p : Payload} (h : ofBytes bs = .ok p) :
    Delimits ofBytes bs := by
  obtain ⟨parts, hparts, -⟩ := bind_eq_ok_iff.mp h
  have hdelimits := steady_parts.delimits hparts
  -- neither verdict waits for the places in the pool, which are checked after all parts are taken
  constructor
  · intro part hpart hne
    obtain ⟨e, he, hshort⟩ := hdelimits.short part hpart hne
    exact ⟨e, ofBytes_eq_error he, hshort⟩
  · intro more hne
    exact ofBytes_eq_error (hdelimits.long more hne)

end Payload

/-- Every buffer that is accepted as a payload, and every one that is accepted as a schema, tells
where it ends, whoever wrote it. -/
theorem delimits_of_accepted (bs : Bytes) :
    ((∃ p, Payload.ofBytes bs = .ok p) → Delimits Payload.ofBytes bs) ∧
      ((∃ s, Schema.ofBytes bs = .ok s) → Delimits Schema.ofBytes bs) := by
  constructor
  · rintro ⟨p, hp⟩
    exact Payload.delimits_ofBytes hp
  · rintro ⟨s, hs⟩
    exact Schema.steady_schema.delimits hs

/-! ### A column of nothing -/

/-- A schema with one column, whose name is one letter in two bytes. -/
def letterSchema : Bytes := [0, 0, 0, 1, 0, 0, 0, 2, 195, 169, 0, 0, 0, 5]

/-- A payload that no encoder writes: its only row is null, but there is a bit for a second one, a
place for the null that is not one, and two bytes in the pool that are no text. -/
def untidy : Bytes :=
  letterSchema ++ [0, 0, 0, 1] ++ [3, 255, 255, 255, 255] ++ [0, 0, 0, 2, 255, 254]

theorem delimits_of_accepted_untidy :
    (∃ p, Payload.ofBytes untidy = .ok p ∧ p.rows = .ok [[.null]]) ∧
      (∀ n < untidy.length, ∃ e, Payload.ofBytes (untidy.take n) = .error e ∧ e.RunsShort n) ∧
      Payload.ofBytes (untidy ++ untidy) = .error (.trailingBytes 29) ∧
      (∃ s, Schema.ofBytes letterSchema = .ok s) ∧
      (∀ n < letterSchema.length, ∃ e, Schema.ofBytes (letterSchema.take n) = .error e ∧
        e.RunsShort n) ∧
      Schema.ofBytes untidy = .error (.trailingBytes 15) := by
  have hpayload : Payload.ofBytes untidy = .ok ⟨untidy, .ofColumns [("é", .one .string)], 1,
      [⟨[3], [255, 255, 255, 255]⟩], [255, 254]⟩ := by rfl
  have hschema : Schema.ofBytes letterSchema = .ok (.ofColumns [("é", .one .string)]) := by rfl
  have hparts := (delimits_of_accepted untidy).1 ⟨_, hpayload⟩
  have hletter := (delimits_of_accepted letterSchema).2 ⟨_, hschema⟩
  exact ⟨⟨_, hpayload, by rfl⟩, fun n => hparts.short_take, hparts.long untidy (by decide),
    ⟨_, hschema⟩, fun n => hletter.short_take, hletter.long _ (by decide)⟩

end SelectMerge
