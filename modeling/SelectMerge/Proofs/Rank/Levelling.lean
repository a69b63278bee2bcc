import SelectMerge.Proofs.Rank.RowOrder
import SelectMerge.Proofs.Schema.Stages

/-!
# Comparing rows after they are cast

Casts along joins keep the rank of a number, and only casts to DOUBLE lose anything that is
compared: two whole numbers of one rank, which are told apart before, become one double
(`levelled`). A key that told rows apart by such numbers falls silent, and the keys after it decide.

`Cell.Becomes` relates a cell to what it is cast to, as far as a comparison looks
(`becomes_of_cast?`). Cast cells compare as before unless they are levelled
(`compareCells_becomes`), so cast rows compare as before by the keys that are left, `unlevelled`
(`compare_becomes`).
-/

namespace SelectMerge

/-! ## Quantities -/

namespace Quantity

/-- The double that a quantity is cast to. -/
def double : Quantity → Binary64
  | whole n => Binary64.ofInt n
  | real x => x

/-- What becomes of a quantity in a column of a type. -/
def under (t : ColumnType) (q : Quantity) : Quantity :=
  if t = .one .double then real q.double else q

theorem rank_under (t : ColumnType) (q : Quantity) : (q.under t).rank = q.rank := by
  unfold under
  split
  · cases q <;> rfl
  · rfl

theorem compareWhole_under (t : ColumnType) (x y : Quantity) :
    (x.under t).compareWhole (y.under t) = if t = .one .double then .eq else x.compareWhole y := by
  unfold under
  split <;> rfl

end Quantity

/-! ## Cells -/

namespace Cell

variable {c c' a b a' b' : Cell} {s t : ColumnType}

/-- Whether a cell is what another becomes in a column of a type: it has the same place in every
coarse comparison, and its quantity is that of the other under the type. -/
structure Becomes (t : ColumnType) (c c' : Cell) : Prop where
  isNull : c'.isNull = c.isNull
  grade : c'.grade = c.grade
  letters : c'.letters = c.letters
  octets : c'.octets = c.octets
  place : c'.place = c.place
  quantity : c'.quantity? = c.quantity?.map (Quantity.under t)

theorem Becomes.refl_of_not_number (t : ColumnType) (h : c.quantity? = none) : Becomes t c c :=
  ⟨rfl, rfl, rfl, rfl, rfl, by rw [h]; rfl⟩

theorem Becomes.of_number {q : Quantity} (h : c.quantity? = some q)
    (h' : c'.quantity? = some (q.under t)) : Becomes t c c' := by
  obtain ⟨hgrade, hplace, hletters, hoctets⟩ := number_eq h
  obtain ⟨hgrade', hplace', hletters', hoctets'⟩ := number_eq h'
  refine ⟨?_, hgrade'.trans hgrade.symm, hletters'.trans hletters.symm,
    hoctets'.trans hoctets.symm, ?_, by rw [h, h']; rfl⟩
  · rw [isNull_of_number h, isNull_of_number h']
  · rw [hplace, hplace', Quantity.rank_under]

theorem becomes_of_conversion? {v u : Scalar} {f : v.Carrier → u.Carrier}
    (hjoin : v.join? u = some u) (hf : v.conversion? u = some f) (x : v.Carrier) :
    Becomes (.one u) (one v x) (one u (f x)) := by
  revert hjoin hf
  -- joins keep off FLOAT, so no whole number is rounded to one
  cases v <;> cases u <;> rintro ⟨⟩ <;> rintro ⟨⟩
  case int.long =>
    have hlong : ∀ x : Int32, x.toInt64.toInt = x.toInt := Int32.toInt_toInt64
    exact .of_number rfl (congrArg (fun n => some (Quantity.whole n)) (hlong x))
  case int.int | int.double | long.long | long.double | float.float | float.double |
      double.double | boolean.boolean => exact .of_number rfl rfl
  case string.string | bytes.bytes | timestamp.timestamp | object.object =>
    exact .refl_of_not_number _ rfl

/-- A cell is cast along a join to what it becomes, unless it is an array. -/
theorem becomes_of_cast? (hc : c.fits s) (hjoin : s.join? t = some t) (ht : t.isArray = false)
    (h : c.cast? t = some c') : Becomes t c c' := by
  cases c with
  | null =>
    cases h
    exact .refl_of_not_number t rfl
  | one v x =>
    obtain rfl : ColumnType.one v = s := by simpa [fits, type?] using hc
    cases t with
    | many u => cases ht
    | one u =>
      obtain ⟨f, hf, rfl⟩ := Option.map_eq_some_iff.mp h
      exact becomes_of_conversion? (by simpa [ColumnType.join?] using hjoin) hf x
  | many v xs =>
    cases t with
    | many u => cases ht
    | one u => cases h

/-- Whether two whole numbers that differ become one number when they are cast to a type. -/
def levelled (t : ColumnType) (a b : Cell) : Bool :=
  match a.quantity?, b.quantity? with
  | some (.whole m), some (.whole n) =>
    t == .one .double && m != n && (Binary64.ofInt m).rank == (Binary64.ofInt n).rank
  | _, _ => false

theorem levelled_iff : levelled t a b ↔ t = .one .double ∧ ∃ m n,
    a.quantity? = some (.whole m) ∧ b.quantity? = some (.whole n) ∧ m ≠ n ∧
      (Binary64.ofInt m).rank = (Binary64.ofInt n).rank := by
  unfold levelled
  split
  · rename_i m n hm hn
    simp only [hm, hn, Option.some.injEq, Quantity.whole.injEq, Bool.and_eq_true, beq_iff_eq,
      bne_iff_ne, and_assoc]
    constructor
    · rintro ⟨ht, hne, hrank⟩
      exact ⟨ht, m, n, rfl, rfl, hne, hrank⟩
    · rintro ⟨ht, m', n', rfl, rfl, hne, hrank⟩
      exact ⟨ht, hne, hrank⟩
  · rename_i hnot
    simp only [Bool.false_eq_true, false_iff]
    rintro ⟨-, m, n, hm, hn, -⟩
    exact hnot m n hm hn

theorem levelled_iff_compareWhole (h : compareCoarse a b = .eq) :
    levelled t a b ↔ t = .one .double ∧ compareWhole a b ≠ .eq := by
  rw [levelled_iff]
  refine and_congr_right fun _ => ⟨?_, ?_⟩
  · rintro ⟨m, n, hm, hn, hne, -⟩
    rw [compareWhole, hm, hn]
    exact fun h => hne (Int.compare_eq_eq.mp h)
  · intro hne
    obtain ⟨m, n, hm, hn⟩ :
        ∃ m n, a.quantity? = some (.whole m) ∧ b.quantity? = some (.whole n) := by
      revert hne
      unfold compareWhole
      cases a.quantity? with
      | none => simp
      | some x =>
        cases b.quantity? with
        | none => simp
        | some y => cases x <;> cases y <;> simp [Quantity.compareWhole]
    refine ⟨m, n, hm, hn, ?_, ?_⟩
    · rintro rfl
      rw [compareWhole, hm, hn] at hne
      exact hne (Int.compare_eq_eq.mpr rfl)
    · rw [compareCoarse_eq, Ordering.then_eq_eq, Ordering.then_eq_eq] at h
      rw [(number_eq hm).2.1, (number_eq hn).2.1, Int.compare_eq_eq] at h
      exact h.2.1

theorem Becomes.compareCoarse_eq (ha : Becomes t a a') (hb : Becomes t b b') :
    compareCoarse a' b' = compareCoarse a b := by
  rw [Cell.compareCoarse_eq, Cell.compareCoarse_eq, ha.grade, ha.place, ha.letters, ha.octets,
    hb.grade, hb.place, hb.letters, hb.octets]

theorem Becomes.compareWhole_eq (ha : Becomes t a a') (hb : Becomes t b b') :
    compareWhole a' b' = if t = .one .double then .eq else compareWhole a b := by
  unfold compareWhole
  rw [ha.quantity, hb.quantity]
  cases a.quantity? with
  | none => exact (ite_self _).symm
  | some x =>
    cases b.quantity? with
    | none => exact (ite_self _).symm
    | some y => exact Quantity.compareWhole_under t x y

end Cell

/-! ## Keys -/

namespace SortKey

variable {key : SortKey} {nulls : NullOrder} {t : ColumnType} {a b a' b' : Cell}

theorem compareCoarse_of_levelled (h : Cell.levelled t a b) :
    key.compareCoarse nulls a b = .eq := by
  obtain ⟨-, m, n, hm, hn, -, hrank⟩ := Cell.levelled_iff.mp h
  have hcells : Cell.compareCoarse a b = .eq := by
    obtain ⟨hga, hpa, hla, hoa⟩ := Cell.number_eq hm
    obtain ⟨hgb, hpb, hlb, hob⟩ := Cell.number_eq hn
    have hplace : Ord.compare a.place b.place = .eq := by
      rw [hpa, hpb]
      exact Int.compare_eq_eq.mpr hrank
    rw [Cell.compareCoarse_eq, hplace, hga, hgb, hla, hlb, hoa, hob]
    rfl
  refine compareLex_eq_eq.mpr ⟨?_, turn_eq_eq.mpr hcells⟩
  simp [compareOn, nullSide, Cell.isNull_of_number hm, Cell.isNull_of_number hn]

theorem compareCoarse_becomes (ha : Cell.Becomes t a a') (hb : Cell.Becomes t b b') :
    key.compareCoarse nulls a' b' = key.compareCoarse nulls a b := by
  simp only [compareCoarse, compareLex, compareOn, nullSide, ha.isNull, hb.isNull,
    ha.compareCoarse_eq hb]

theorem compareCells_becomes (ha : Cell.Becomes t a a') (hb : Cell.Becomes t b b') :
    key.compareCells nulls a' b' =
      if Cell.levelled t a b then .eq else key.compareCells nulls a b := by
  rw [compareCells_eq_then, compareCells_eq_then, compareCoarse_becomes ha hb,
    ha.compareWhole_eq hb]
  by_cases hlevelled : Cell.levelled t a b
  · have ht : t = .one .double := (Cell.levelled_iff.mp hlevelled).1
    rw [if_pos hlevelled, if_pos ht, compareCoarse_of_levelled hlevelled]
    exact turn_eq_eq.mpr rfl
  · rw [if_neg hlevelled]
    cases hcoarse : key.compareCoarse nulls a b with
    | lt | gt => rfl
    | eq =>
      have hcells : Cell.compareCoarse a b = .eq := turn_eq_eq.mp (compareLex_eq_eq.mp hcoarse).2
      rw [Cell.levelled_iff_compareWhole hcells, not_and_not_right] at hlevelled
      split
      · rename_i ht
        rw [hlevelled ht]
      · rfl

end SortKey

/-! ## Orders -/

namespace RowOrder

variable {o : RowOrder} {types : List ColumnType} {a b a' b' : Row}

/-- Whether two rows have numbers under a key that differ but become one in the key's column. -/
def levels (types : List ColumnType) (key : SortKey) (a b : Row) : Bool :=
  types[key.column]?.any fun t => Cell.levelled t (a.cell key.column) (b.cell key.column)

/-- The order with the keys alone that still tell two rows apart, as far as they did, once these are
cast to some types. -/
def unlevelled (o : RowOrder) (types : List ColumnType) (a b : Row) : RowOrder :=
  { o with keys := o.keys.filter fun key => !levels types key a b }

/-- Whether a row is what another becomes in columns of some types, as far as an order looks. -/
def Becomes (o : RowOrder) (types : List ColumnType) (r r' : Row) : Prop :=
  ∀ key ∈ o.keys, ∃ t, types[key.column]? = some t ∧
    Cell.Becomes t (r.cell key.column) (r'.cell key.column)

/-- Cast rows compare as before, by the keys whose numbers have not become one. -/
theorem compare_becomes (ha : o.Becomes types a a') (hb : o.Becomes types b b') :
    o.compare a' b' = (o.unlevelled types a b).compare a b := by
  obtain ⟨keys, nulls⟩ := o
  show compareBy nulls keys a' b' =
    compareBy nulls (keys.filter fun key => !levels types key a b) a b
  induction keys with
  | nil => rfl
  | cons key keys ih =>
    have hrest := ih (fun key hkey => ha key (List.mem_cons_of_mem _ hkey))
      fun key hkey => hb key (List.mem_cons_of_mem _ hkey)
    obtain ⟨t, ht, hca⟩ := ha key List.mem_cons_self
    obtain ⟨t', ht', hcb⟩ := hb key List.mem_cons_self
    obtain rfl := Option.some.inj (ht.symm.trans ht')
    have hlevels : levels types key a b =
        Cell.levelled t (a.cell key.column) (b.cell key.column) := by
      rw [levels, ht, Option.any_some]
    rw [compareBy_cons, hrest, SortKey.compare, SortKey.compareCells_becomes hca hcb, ← hlevels]
    cases hkey : levels types key a b with
    | true => rw [if_pos rfl, List.filter_cons_of_neg (by simp [hkey])]; rfl
    | false =>
      rw [if_neg Bool.false_ne_true, List.filter_cons_of_pos (by simp [hkey])]
      rfl

theorem compareBy_append {nulls : NullOrder} (keys keys' : List SortKey) (a b : Row) :
    compareBy nulls (keys ++ keys') a b =
      (compareBy nulls keys a b).then (compareBy nulls keys' a b) := by
  induction keys with
  | nil => rfl
  | cons key keys ih =>
    rw [List.cons_append, compareBy_cons, compareBy_cons, ih]
    exact (Ordering.then_assoc _ _ _).symm

theorem unlevelled_compare_ne_gt (hkeys : ∀ key ∈ o.keys.dropLast, levels types key a b = false)
    (h : o.compare a b ≠ .gt) : (o.unlevelled types a b).compare a b ≠ .gt := by
  obtain ⟨keys, nulls⟩ := o
  change compareBy nulls keys a b ≠ .gt at h
  show compareBy nulls (keys.filter fun key => !levels types key a b) a b ≠ .gt
  cases keys using List.reverseRecOn with
  | nil => exact h
  | append_singleton keys last =>
    have hsame : keys.filter (fun key => !levels types key a b) = keys :=
      List.filter_eq_self.mpr fun key hkey => by
        rw [hkeys key (by simpa using hkey)]
        rfl
    rw [List.filter_append, hsame, compareBy_append]
    rw [compareBy_append] at h
    cases hlast : levels types last a b with
    | true =>
      -- the last key falls silent, and those before it do not list `a` after `b`
      have hnone : [last].filter (fun key => !levels types key a b) = [] := by simp [hlast]
      rw [hnone]
      have hfirst := le_of_then h
      simpa [compareBy] using hfirst
    | false =>
      have hone : [last].filter (fun key => !levels types key a b) = [last] := by simp [hlast]
      rwa [hone]

/-- Whether two rows have only whole numbers under a key that DOUBLE holds exactly, if the key's
column is one of DOUBLE. -/
def Exact (types : List ColumnType) (key : SortKey) (r : Row) : Prop :=
  types[key.column]? = some (.one .double) →
    ∀ n, (r.cell key.column).quantity? = some (.whole n) → -2 ^ 53 ≤ n ∧ n ≤ 2 ^ 53

theorem levels_eq_false_of_exact {key : SortKey} (ha : Exact types key a) (hb : Exact types key b) :
    levels types key a b = false := by
  rw [levels, Bool.eq_false_iff]
  intro h
  obtain ⟨t, ht, hlevelled⟩ := (Option.any_eq_true _ _).mp h
  obtain ⟨rfl, m, n, hm, hn, hne, hrank⟩ := Cell.levelled_iff.mp hlevelled
  exact hne (Binary64.eq_of_rank_ofInt_eq (ha ht m hm) (hb ht n hn) hrank)

end RowOrder

end SelectMerge
