import SelectMerge.Column.Compare
import SelectMerge.Proofs.Number.Rounding

/-!
# The comparison of cells in two steps

Comparing cells comes down to a coarse comparison that is consistent (`Cell.compareCoarse`), numbers
by their rank among the doubles, and to an exact one of whole numbers that share a rank
(`Cell.compareWhole`): `Cell.compare_eq_then`. Only the second step can put cells in an order that
the first does not know, and it is silent about floating point numbers.

`Cell.grade` is the class of a cell, all numbers together. Cells of unlike grades compare by their
types (`exists_types`), those of one grade are numbers or of one type (`grade_eq_iff`), and cells
that are not both numbers compare as they do coarsely (`compare_eq_compareCoarse`).
-/

namespace SelectMerge

/-! ## Numbers -/

namespace Quantity

/-- The order of two whole numbers; any other two tie. -/
def compareWhole : Quantity → Quantity → Ordering
  | whole m, whole n => Ord.compare m n
  | _, _ => .eq

theorem compare_eq_then (x y : Quantity) :
    x.compare y = (Ord.compare x.rank y.rank).then (x.compareWhole y) := by
  cases x with
  | real x => cases y <;> simp [compare, compareWhole]
  | whole m =>
    cases y with
    | real y => simp [compare, compareWhole]
    | whole n =>
      have hmn : m ≤ n → rank (whole m) ≤ rank (whole n) := Binary64.rank_ofInt_mono
      have hnm : n ≤ m → rank (whole n) ≤ rank (whole m) := Binary64.rank_ofInt_mono
      rw [compare, compareWhole]
      rcases Int.lt_trichotomy (rank (whole m)) (rank (whole n)) with hlt | heq | hgt
      · rw [Int.compare_eq_lt.mpr hlt, Int.compare_eq_lt.mpr (by omega)]
        rfl
      · rw [Int.compare_eq_eq.mpr heq]
        rfl
      · rw [Int.compare_eq_gt.mpr hgt, Int.compare_eq_gt.mpr (by omega)]
        rfl

end Quantity

/-! ## Cells -/

namespace Cell

/-- The class of a cell, all numbers together. -/
def grade (c : Cell) : Nat :=
  if c.quantity?.isSome then 0 else (c.type?.map ColumnType.ordinal).getD 0

/-- The place of a number among the doubles, or the time in a cell. -/
def place : Cell → Int
  | one .timestamp x => Int64.toInt x
  | c => (c.quantity?.map Quantity.rank).getD 0

def letters : Cell → List Char
  | one .string x => String.toList x
  | _ => []

def octets : Cell → List UInt8
  | one .bytes x => x
  | _ => []

/-- The order of cells when whole numbers of one rank tie. -/
def compareCoarse : Cell → Cell → Ordering :=
  compareLex (compareOn grade)
    (compareLex (compareOn place) (compareLex (compareOn letters) (compareOn octets)))

/-- The order of two whole numbers; any other cells tie. -/
def compareWhole (a b : Cell) : Ordering :=
  match a.quantity?, b.quantity? with
  | some x, some y => x.compareWhole y
  | _, _ => .eq

instance : Std.TransCmp compareCoarse := by unfold compareCoarse; infer_instance

variable {a b : Cell} {x y : Quantity}

theorem compareCoarse_eq (a b : Cell) : compareCoarse a b =
    (Ord.compare a.grade b.grade).then ((Ord.compare a.place b.place).then
      ((List.compareLex Ord.compare a.letters b.letters).then
        (List.compareLex Ord.compare a.octets b.octets))) := rfl

theorem number_eq (ha : a.quantity? = some x) :
    a.grade = 0 ∧ a.place = x.rank ∧ a.letters = [] ∧ a.octets = [] := by
  cases a with
  | null | many => cases ha
  | one s v =>
    cases s <;> simp only [quantity?, Option.some.injEq, reduceCtorEq] at ha <;> subst ha <;>
      exact ⟨rfl, rfl, rfl, rfl⟩

theorem isNull_of_number (ha : a.quantity? = some x) : a.isNull = false := by
  cases a with
  | null => cases ha
  | one | many => rfl

/-! ### Cells that are not both numbers -/

theorem type?_of_number (ha : a.quantity? = some x) : ∃ t, a.type? = some t ∧ t.ordinal < 5 := by
  cases a with
  | null | many => cases ha
  | one s v => cases s <;> first | exact ⟨_, rfl, by decide⟩ | cases ha

theorem type?_of_not_number (ha : a.quantity? = none) (hnull : a.isNull = false) :
    ∃ t, a.type? = some t ∧ 5 ≤ t.ordinal ∧ a.grade = t.ordinal := by
  cases a with
  | null => cases hnull
  | many s xs => exact ⟨.many s, rfl, by simp only [ColumnType.ordinal]; omega, rfl⟩
  | one s v => cases s <;> first | exact ⟨_, rfl, by decide, rfl⟩ | cases ha

theorem exists_types (ha : a.isNull = false) (hb : b.isNull = false)
    (hq : a.quantity? = none ∨ b.quantity? = none) :
    ∃ s t, a.type? = some s ∧ b.type? = some t ∧
      Ord.compare a.grade b.grade = Ord.compare s.ordinal t.ordinal := by
  cases hqa : a.quantity? with
  | some x =>
    -- a number has the least grade, and its type comes before those of all other cells
    have hqb : b.quantity? = none := by simpa [hqa] using hq
    obtain ⟨s, hs, hlt⟩ := type?_of_number hqa
    obtain ⟨t, ht, hge, hgrade⟩ := type?_of_not_number hqb hb
    refine ⟨s, t, hs, ht, ?_⟩
    rw [(number_eq hqa).1, hgrade]
    exact (Nat.compare_eq_lt.mpr (by omega)).trans (Nat.compare_eq_lt.mpr (by omega)).symm
  | none =>
    obtain ⟨s, hs, hge, hgrade⟩ := type?_of_not_number hqa ha
    cases hqb : b.quantity? with
    | some y =>
      obtain ⟨t, ht, hlt⟩ := type?_of_number hqb
      refine ⟨s, t, hs, ht, ?_⟩
      rw [(number_eq hqb).1, hgrade]
      exact (Nat.compare_eq_gt.mpr (by omega)).trans (Nat.compare_eq_gt.mpr (by omega)).symm
    | none =>
      obtain ⟨t, ht, -, hgrade'⟩ := type?_of_not_number hqb hb
      exact ⟨s, t, hs, ht, by rw [hgrade, hgrade']⟩

theorem compareTypes_eq (ha : a.isNull = false) (hb : b.isNull = false)
    (hq : a.quantity? = none ∨ b.quantity? = none) :
    compareTypes a b = Ord.compare a.grade b.grade := by
  obtain ⟨s, t, hs, ht, hgrade⟩ := exists_types ha hb hq
  rw [compareTypes, hs, ht, hgrade]

theorem ordinal_injective {s t : ColumnType} (h : s.ordinal = t.ordinal) : s = t := by
  have hscalar : ∀ a b : Scalar, a.ordinal = b.ordinal → a = b := by
    intro a b
    cases a <;> cases b <;> simp [Scalar.ordinal]
  have hlt : ∀ a : Scalar, a.ordinal < 9 := by
    intro a
    cases a <;> decide
  cases s with
  | one a =>
    cases t with
    | one b => rw [hscalar a b h]
    | many b =>
      have := hlt a
      simp only [ColumnType.ordinal] at h
      omega
  | many a =>
    cases t with
    | one b =>
      have := hlt b
      simp only [ColumnType.ordinal] at h
      omega
    | many b => rw [hscalar a b (Nat.add_left_cancel h)]

theorem compare_eq_compareTypes (hq : a.quantity? = none ∨ b.quantity? = none)
    (hne : a.type? ≠ b.type?) : a.compare b = compareTypes a b := by
  unfold compare
  split
  · simp_all
  · split <;> first | rfl | exact absurd rfl hne

theorem compare_eq_of_type? (hq : a.quantity? = none) (ha : a.isNull = false)
    (htype : a.type? = b.type?) : a.compare b = (Ord.compare a.place b.place).then
      ((List.compareLex Ord.compare a.letters b.letters).then
        (List.compareLex Ord.compare a.octets b.octets)) := by
  cases a with
  | null => cases ha
  | many s xs =>
    cases b with
    | null | one => cases htype
    | many t ys =>
      obtain rfl : s = t := by simpa [type?] using htype
      exact Nat.compare_eq_eq.mpr rfl
  | one s v =>
    cases b with
    | null | many => cases htype
    | one t w =>
      obtain rfl : s = t := by simpa [type?] using htype
      cases s with
      | int | long | float | double | boolean => cases hq
      | object => rfl
      | string => exact Ordering.then_eq.symm
      | bytes => rfl
      | timestamp => exact Ordering.then_eq.symm

theorem grade_eq_iff (ha : a.isNull = false) (hb : b.isNull = false)
    (hq : a.quantity? = none ∨ b.quantity? = none) : a.grade = b.grade ↔ a.type? = b.type? := by
  obtain ⟨s, t, hs, ht, hgrade⟩ := exists_types ha hb hq
  rw [← Nat.compare_eq_eq, hgrade, Nat.compare_eq_eq, hs, ht, Option.some.injEq]
  exact ⟨ordinal_injective, fun h => by rw [h]⟩

/-- Cells that are not both numbers compare as they do coarsely. -/
theorem compare_eq_compareCoarse (ha : a.isNull = false) (hb : b.isNull = false)
    (hq : a.quantity? = none ∨ b.quantity? = none) : a.compare b = compareCoarse a b := by
  rw [compareCoarse_eq]
  by_cases htype : a.type? = b.type?
  · have hqa : a.quantity? = none := by
      by_contra hqa
      obtain ⟨x, hx⟩ := Option.ne_none_iff_exists'.mp hqa
      obtain ⟨s, hs, hlt⟩ := type?_of_number hx
      obtain ⟨t, ht, hge, -⟩ := type?_of_not_number (hq.resolve_left hqa) hb
      obtain rfl : s = t := Option.some.inj (hs.symm.trans (htype.trans ht))
      omega
    rw [compare_eq_of_type? hqa ha htype,
      Nat.compare_eq_eq.mpr ((grade_eq_iff ha hb hq).mpr htype)]
    rfl
  · have hgrade : Ord.compare a.grade b.grade ≠ .eq := fun h =>
      htype ((grade_eq_iff ha hb hq).mp (Nat.compare_eq_eq.mp h))
    rw [compare_eq_compareTypes hq htype, compareTypes_eq ha hb hq]
    cases hc : Ord.compare a.grade b.grade with
    | eq => exact absurd hc hgrade
    | lt | gt => rfl

/-! ### Any cells -/

theorem compare_number (ha : a.quantity? = some x) (hb : b.quantity? = some y) :
    a.compare b = x.compare y := by
  unfold compare
  rw [ha, hb]

theorem compare_eq_then (ha : a.isNull = false) (hb : b.isNull = false) :
    a.compare b = (compareCoarse a b).then (compareWhole a b) := by
  cases hqa : a.quantity? with
  | none =>
    rw [compare_eq_compareCoarse ha hb (.inl hqa), compareWhole, hqa]
    exact Ordering.then_eq.symm
  | some x =>
    cases hqb : b.quantity? with
    | none =>
      rw [compare_eq_compareCoarse ha hb (.inr hqb), compareWhole, hqa, hqb]
      exact Ordering.then_eq.symm
    | some y =>
      obtain ⟨hga, hpa, hla, hoa⟩ := number_eq hqa
      obtain ⟨hgb, hpb, hlb, hob⟩ := number_eq hqb
      rw [compare_number hqa hqb, Quantity.compare_eq_then, compareWhole, hqa, hqb,
        compareCoarse_eq, hga, hgb, hpa, hpb, hla, hlb, hoa, hob]
      congr 1
      exact Ordering.then_eq.symm

end Cell

end SelectMerge
