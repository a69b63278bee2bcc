import SelectMerge.Proofs.Column.Comparison
import SelectMerge.Proofs.Rank.Preorder
import SelectMerge.Rank.RowOrder

/-!
# The consistency of row orders

Row orders turn around (`compare_swap`), but they are not always transitive: a real number ties with
every whole number that rounds to it, though whole numbers are told apart exactly
(`compare_not_trans`). This is the one way in which an order fails, so an order is a total preorder
on rows exactly if it muddles no three of them (`totalPreorderOn_iff`).

Under one key, the first and the last of three cells in a row are in order too, unless the key
`Muddles` them (`compareCells_cases`). Over the keys in turn, `MuddledBy` collects what has to come
together for three rows: a key that muddles them, ties before it, and nothing behind it that helps.
Floating point numbers are always part of it (`totalPreorderOn_of_not_real`).
-/

namespace SelectMerge

theorem le_of_then {o o' : Ordering} (h : o.then o' ≠ .gt) : o ≠ .gt := by
  cases o <;> simp_all

/-! ## Cells under a key -/

namespace SortKey

variable {key : SortKey} {nulls : NullOrder} {a b c : Cell}

/-- An order in the direction of a key. -/
def turn (key : SortKey) (o : Ordering) : Ordering := if key.ascending then o else o.swap

/-- Whether a key lists one whole number before another. -/
def Before (key : SortKey) (m n : Int) : Prop := if key.ascending then m < n else n < m

/-- The side on which a cell is listed because it is null or not. -/
def nullSide (nulls : NullOrder) (c : Cell) : Nat :=
  match nulls with
  | .first => if c.isNull then 0 else 1
  | .last => if c.isNull then 1 else 0

/-- The order of cells under a key when whole numbers of one rank tie. -/
def compareCoarse (key : SortKey) (nulls : NullOrder) : Cell → Cell → Ordering :=
  compareLex (compareOn (nullSide nulls)) fun a b => key.turn (a.compareCoarse b)

/-- Whether a key lists one whole number before another while a real number, `b`, ties with both. -/
def Muddles (key : SortKey) (a b c : Cell) : Prop :=
  ∃ m x n, a.quantity? = some (.whole m) ∧ b.quantity? = some (.real x) ∧
    c.quantity? = some (.whole n) ∧ (Binary64.ofInt m).rank = x.rank ∧
    (Binary64.ofInt n).rank = x.rank ∧ key.Before m n

theorem turn_compare_eq_lt {m n : Int} : key.turn (Ord.compare m n) = .lt ↔ key.Before m n := by
  unfold turn Before
  split <;> simp [Int.compare_eq_lt, Int.compare_eq_gt]

theorem turn_compare_eq_gt {m n : Int} : key.turn (Ord.compare m n) = .gt ↔ key.Before n m := by
  unfold turn Before
  split <;> simp [Int.compare_eq_lt, Int.compare_eq_gt]

@[simp] theorem turn_eq_eq {o : Ordering} : key.turn o = .eq ↔ o = .eq := by
  unfold turn
  split <;> simp

theorem turn_then (o o' : Ordering) : key.turn (o.then o') = (key.turn o).then (key.turn o') := by
  unfold turn
  split
  · rfl
  · exact Ordering.swap_then ..

theorem turn_swap (o : Ordering) : key.turn o.swap = (key.turn o).swap := by
  unfold turn
  split <;> rfl

instance (key : SortKey) : Std.TransCmp fun a b : Cell => key.turn (a.compareCoarse b) := by
  unfold turn
  split
  · infer_instance
  · have hswap : (fun a b : Cell => (a.compareCoarse b).swap) = fun a b => b.compareCoarse a :=
      funext₂ fun a b => Std.OrientedCmp.eq_swap.symm
    rw [hswap]
    infer_instance

instance (key : SortKey) (nulls : NullOrder) : Std.TransCmp (key.compareCoarse nulls) := by
  unfold compareCoarse
  infer_instance

theorem eq_null_of_isNull (h : a.isNull = true) : a = .null := by
  cases a with
  | null => rfl
  | one | many => cases h

theorem compareCells_eq_then (key : SortKey) (nulls : NullOrder) (a b : Cell) :
    key.compareCells nulls a b =
      (key.compareCoarse nulls a b).then (key.turn (a.compareWhole b)) := by
  cases ha : a.isNull <;> cases hb : b.isNull
  · have hside : nullSide nulls a = nullSide nulls b := by simp [nullSide, ha, hb]
    have hcoarse : key.compareCoarse nulls a b = key.turn (a.compareCoarse b) := by
      simp [compareCoarse, compareLex, compareOn, hside]
    rw [hcoarse, ← turn_then, ← Cell.compare_eq_then ha hb]
    simp [compareCells, ha, hb, turn]
  · cases nulls <;> simp [compareCells, compareCoarse, compareLex, compareOn, nullSide, ha, hb,
      NullOrder.side, show Ord.compare (0 : Nat) 1 = .lt from rfl,
      show Ord.compare (1 : Nat) 0 = .gt from rfl]
  · cases nulls <;> simp [compareCells, compareCoarse, compareLex, compareOn, nullSide, ha, hb,
      NullOrder.side, show Ord.compare (0 : Nat) 1 = .lt from rfl,
      show Ord.compare (1 : Nat) 0 = .gt from rfl]
  · obtain rfl := eq_null_of_isNull ha
    obtain rfl := eq_null_of_isNull hb
    have hself : key.compareCoarse nulls .null .null = .eq := Std.ReflCmp.compare_self
    rw [hself]
    simp only [compareCells, Cell.isNull, Cell.compareWhole, Cell.quantity?, Ordering.eq_then]
    exact (turn_eq_eq.mpr rfl).symm

theorem compareCells_swap (key : SortKey) (nulls : NullOrder) (a b : Cell) :
    key.compareCells nulls a b = (key.compareCells nulls b a).swap := by
  have hwhole : a.compareWhole b = (b.compareWhole a).swap := by
    unfold Cell.compareWhole Quantity.compareWhole
    cases a.quantity? with
    | none => cases b.quantity? <;> rfl
    | some x =>
      cases b.quantity? with
      | none => rfl
      | some y => cases x <;> cases y <;> first | rfl | exact Int.compare_swap .. |>.symm
  have hcoarse : key.compareCoarse nulls a b = (key.compareCoarse nulls b a).swap :=
    Std.OrientedCmp.eq_swap
  rw [compareCells_eq_then, compareCells_eq_then, Ordering.swap_then, ← turn_swap, ← hwhole,
    ← hcoarse]

/-! ## Three cells under a key -/

theorem exists_quantity? {x : Quantity} (hab : key.compareCoarse nulls a b = .eq)
    (ha : a.quantity? = some x) : ∃ y, b.quantity? = some y ∧ y.rank = x.rank := by
  have hna := Cell.isNull_of_number ha
  obtain ⟨hside, hcells⟩ := compareLex_eq_eq.mp hab
  have hnb : b.isNull = false := by
    cases nulls <;> cases hb : b.isNull <;> simp [compareOn, nullSide, hna, hb] at hside ⊢
  rw [turn_eq_eq, Cell.compareCoarse_eq] at hcells
  simp only [Ordering.then_eq_eq] at hcells
  obtain ⟨hgrade, hplace, -⟩ := hcells
  obtain ⟨hga, hpa, -⟩ := Cell.number_eq ha
  rw [hga, Nat.compare_eq_eq] at hgrade
  cases hb : b.quantity? with
  | none =>
    obtain ⟨t, -, hge, hgb⟩ := Cell.type?_of_not_number hb hnb
    omega
  | some y =>
    obtain ⟨-, hpb, -⟩ := Cell.number_eq hb
    rw [hpa, hpb, Int.compare_eq_eq] at hplace
    exact ⟨y, rfl, hplace.symm⟩

theorem compareCells_number {x y : Quantity} (ha : a.quantity? = some x)
    (hb : b.quantity? = some y) : key.compareCells nulls a b = key.turn (x.compare y) := by
  rw [← Cell.compare_number ha hb]
  simp only [compareCells, Cell.isNull_of_number ha, Cell.isNull_of_number hb, turn]

theorem Muddles.compareCells (h : key.Muddles a b c) (nulls : NullOrder) :
    key.compareCells nulls a b = .eq ∧ key.compareCells nulls b c = .eq ∧
      key.compareCells nulls a c = .lt := by
  obtain ⟨m, x, n, ha, hb, hc, hm, hn, hlt⟩ := h
  rw [compareCells_number ha hb, compareCells_number hb hc, compareCells_number ha hc]
  refine ⟨?_, ?_, turn_compare_eq_lt.mpr hlt⟩
  · exact turn_eq_eq.mpr (Int.compare_eq_eq.mpr hm)
  · exact turn_eq_eq.mpr (Int.compare_eq_eq.mpr hn.symm)

theorem turn_compare_cases (key : SortKey) (m n : Int) :
    key.turn (Ord.compare m n) = .eq ∨ key.Before m n ∨ key.Before n m := by
  rw [turn_eq_eq, Int.compare_eq_eq]
  unfold Before
  split <;> omega

theorem Before.trans {m k n : Int} (hmk : ¬ key.Before k m) (hkn : ¬ key.Before n k) :
    (m = k ∧ k = n) ∨ key.Before m n := by
  unfold Before at *
  split at hmk <;> simp_all <;> omega

theorem turn_compareWhole_cases {x y z : Quantity} (hxy : x.rank = y.rank) (hyz : y.rank = z.rank)
    (ha : a.quantity? = some x) (hb : b.quantity? = some y) (hc : c.quantity? = some z)
    (hab : key.turn (x.compareWhole y) ≠ .gt) (hbc : key.turn (y.compareWhole z) ≠ .gt) :
    (key.turn (x.compareWhole y) = .eq ∧ key.turn (y.compareWhole z) = .eq ∧
        key.turn (x.compareWhole z) = .eq) ∨
      key.turn (x.compareWhole z) = .lt ∨
        key.Muddles c b a ∨ key.Muddles b a c ∨ key.Muddles a c b := by
  cases x with
  | whole m =>
    cases y with
    | whole k =>
      cases z with
      | whole n =>
        have hmk : ¬ key.Before k m := fun h => hab (turn_compare_eq_gt.mpr h)
        have hkn : ¬ key.Before n k := fun h => hbc (turn_compare_eq_gt.mpr h)
        rcases Before.trans hmk hkn with ⟨rfl, rfl⟩ | hmn
        · exact .inl ⟨turn_eq_eq.mpr (Int.compare_eq_eq.mpr rfl),
            turn_eq_eq.mpr (Int.compare_eq_eq.mpr rfl), turn_eq_eq.mpr (Int.compare_eq_eq.mpr rfl)⟩
        · exact .inr (.inl (turn_compare_eq_lt.mpr hmn))
      | real z =>
        rcases turn_compare_cases key m k with heq | hmk | hkm
        · exact .inl ⟨heq, turn_eq_eq.mpr rfl, turn_eq_eq.mpr rfl⟩
        · exact .inr (.inr (.inr (.inr ⟨m, z, k, ha, hc, hb, hxy.trans hyz, hyz, hmk⟩)))
        · exact absurd (turn_compare_eq_gt.mpr hkm) hab
    | real y =>
      cases z with
      | whole n =>
        rcases turn_compare_cases key m n with heq | hmn | hnm
        · exact .inl ⟨turn_eq_eq.mpr rfl, turn_eq_eq.mpr rfl, heq⟩
        · exact .inr (.inl (turn_compare_eq_lt.mpr hmn))
        · exact .inr (.inr (.inl ⟨n, y, m, hc, hb, ha, hyz.symm, hxy, hnm⟩))
      | real z => exact .inl ⟨turn_eq_eq.mpr rfl, turn_eq_eq.mpr rfl, turn_eq_eq.mpr rfl⟩
  | real x =>
    cases y with
    | whole k =>
      cases z with
      | whole n =>
        rcases turn_compare_cases key k n with heq | hkn | hnk
        · exact .inl ⟨turn_eq_eq.mpr rfl, heq, turn_eq_eq.mpr rfl⟩
        · exact .inr (.inr (.inr (.inl ⟨k, x, n, hb, ha, hc, hxy.symm, (hxy.trans hyz).symm, hkn⟩)))
        · exact absurd (turn_compare_eq_gt.mpr hnk) hbc
      | real z => exact .inl ⟨turn_eq_eq.mpr rfl, turn_eq_eq.mpr rfl, turn_eq_eq.mpr rfl⟩
    | real y => exact .inl ⟨turn_eq_eq.mpr rfl, turn_eq_eq.mpr rfl, turn_eq_eq.mpr rfl⟩

/-- Of three cells in a row, the first and the last are in order too, unless the key muddles
them. -/
theorem compareCells_cases (hab : key.compareCells nulls a b ≠ .gt)
    (hbc : key.compareCells nulls b c ≠ .gt) :
    (key.compareCells nulls a b = .eq ∧ key.compareCells nulls b c = .eq ∧
        key.compareCells nulls a c = .eq) ∨
      key.compareCells nulls a c = .lt ∨
        key.Muddles c b a ∨ key.Muddles b a c ∨ key.Muddles a c b := by
  rw [compareCells_eq_then] at hab hbc
  have h := totalPreorder_of_transCmp (key.compareCoarse nulls)
  rcases h.eq_or_lt trivial trivial trivial (le_of_then hab) (le_of_then hbc) with ⟨h₁, h₂, h₃⟩ | hlt
  · simp only [compareCells_eq_then, h₁, h₂, h₃, Ordering.eq_then] at hab hbc ⊢
    cases ha : a.quantity? with
    | some x =>
      obtain ⟨y, hb, hxy⟩ := exists_quantity? h₁ ha
      obtain ⟨z, hc, hyz⟩ := exists_quantity? h₂ hb
      simp only [Cell.compareWhole, ha, hb, hc] at hab hbc ⊢
      exact turn_compareWhole_cases hxy.symm hyz.symm ha hb hc hab hbc
    | none =>
      have hb : b.quantity? = none := by
        by_contra hb
        obtain ⟨y, hy⟩ := Option.ne_none_iff_exists'.mp hb
        obtain ⟨x, hx, -⟩ := exists_quantity? ((h.eq_iff_eq trivial trivial).mp h₁) hy
        exact absurd (ha.symm.trans hx) (by simp)
      simp [Cell.compareWhole, ha, hb]
  · right; left
    rw [compareCells_eq_then, hlt]
    rfl

/-! ## Rows under a key -/

section Rows

variable {a b c : Row}

theorem compare_swap (key : SortKey) (nulls : NullOrder) (a b : Row) :
    key.compare nulls a b = (key.compare nulls b a).swap := key.compareCells_swap nulls _ _

theorem compare_eq_comm : key.compare nulls a b = .eq ↔ key.compare nulls b a = .eq := by
  rw [compare_swap, Ordering.swap_eq_eq]

/-- Whether a key muddles the cells of three rows. -/
def MuddlesRows (key : SortKey) (a b c : Row) : Prop :=
  key.Muddles (a.cell key.column) (b.cell key.column) (c.cell key.column)

theorem MuddlesRows.compare (h : key.MuddlesRows a b c) (nulls : NullOrder) :
    key.compare nulls a b = .eq ∧ key.compare nulls b c = .eq ∧ key.compare nulls a c = .lt :=
  Muddles.compareCells h nulls

theorem compare_cases (hab : key.compare nulls a b ≠ .gt) (hbc : key.compare nulls b c ≠ .gt) :
    (key.compare nulls a b = .eq ∧ key.compare nulls b c = .eq ∧ key.compare nulls a c = .eq) ∨
      key.compare nulls a c = .lt ∨
        key.MuddlesRows c b a ∨ key.MuddlesRows b a c ∨ key.MuddlesRows a c b :=
  compareCells_cases hab hbc

end Rows

end SortKey

/-! ## Rows under an order -/

namespace RowOrder

variable {key : SortKey} {keys : List SortKey} {nulls : NullOrder} {o : RowOrder}
  {a b c u v w : Row}

/-- Whether a key lists `u` before `w` and muddles them with `v`, where the keys before it tie the
three rows and the keys after it list `w` no later than `v` and `v` no later than `u`. -/
def MuddledBy (nulls : NullOrder) : List SortKey → Row → Row → Row → Prop
  | [], _, _, _ => False
  | key :: keys, u, v, w =>
    (key.MuddlesRows u v w ∧ compareBy nulls keys w v ≠ .gt ∧ compareBy nulls keys v u ≠ .gt) ∨
      (key.compare nulls u v = .eq ∧ key.compare nulls v w = .eq ∧ key.compare nulls u w = .eq ∧
        MuddledBy nulls keys u v w)

/-- Whether an order muddles three rows. -/
def Muddled (o : RowOrder) (u v w : Row) : Prop := MuddledBy o.nulls o.keys u v w

theorem compareBy_cons (a b : Row) : compareBy nulls (key :: keys) a b =
    (key.compare nulls a b).then (compareBy nulls keys a b) := rfl

theorem compareBy_swap (nulls : NullOrder) (keys : List SortKey) (a b : Row) :
    compareBy nulls keys a b = (compareBy nulls keys b a).swap := by
  induction keys with
  | nil => rfl
  | cons key keys ih =>
    rw [compareBy_cons, compareBy_cons, Ordering.swap_then, ← ih, ← SortKey.compare_swap]

/-- Rows that are muddled come in a row, but the last of them before the first. -/
theorem MuddledBy.compareBy (h : MuddledBy nulls keys u v w) :
    compareBy nulls keys w v ≠ .gt ∧ compareBy nulls keys v u ≠ .gt ∧
      compareBy nulls keys w u = .gt := by
  induction keys with
  | nil => exact h.elim
  | cons key keys ih =>
    rw [compareBy_cons, compareBy_cons, compareBy_cons]
    rcases h with ⟨hmuddle, hwv, hvu⟩ | ⟨huv, hvw, huw, hrest⟩
    · obtain ⟨huv, hvw, huw⟩ := hmuddle.compare nulls
      rw [SortKey.compare_eq_comm.mp huv, SortKey.compare_eq_comm.mp hvw, key.compare_swap, huw]
      exact ⟨hwv, hvu, rfl⟩
    · rw [SortKey.compare_eq_comm.mp huv, SortKey.compare_eq_comm.mp hvw,
        SortKey.compare_eq_comm.mp huw]
      exact ih hrest

theorem compareBy_trans (h₁ : ¬ MuddledBy nulls keys c b a) (h₂ : ¬ MuddledBy nulls keys b a c)
    (h₃ : ¬ MuddledBy nulls keys a c b) (hab : compareBy nulls keys a b ≠ .gt)
    (hbc : compareBy nulls keys b c ≠ .gt) : compareBy nulls keys a c ≠ .gt := by
  induction keys with
  | nil => simp [compareBy]
  | cons key keys ih =>
    rw [compareBy_cons] at hab hbc ⊢
    -- a muddle leaves the decision to the other keys, which then may not list `c` before `a`
    have hge : compareBy nulls keys c a = .gt → compareBy nulls keys a c ≠ .gt := by
      intro hca
      rw [compareBy_swap, hca]
      simp
    rcases SortKey.compare_cases (le_of_then hab) (le_of_then hbc) with
      ⟨hab', hbc', hac'⟩ | hlt | hcba | hbac | hacb
    · have hba' := SortKey.compare_eq_comm.mp hab'
      have hcb' := SortKey.compare_eq_comm.mp hbc'
      have hca' := SortKey.compare_eq_comm.mp hac'
      rw [hab'] at hab
      rw [hbc'] at hbc
      rw [hac']
      exact ih (fun h => h₁ (.inr ⟨hcb', hba', hca', h⟩)) (fun h => h₂ (.inr ⟨hba', hac', hbc', h⟩))
        (fun h => h₃ (.inr ⟨hac', hcb', hab', h⟩)) hab hbc
    · simp [hlt]
    · obtain ⟨hcb', hba', -⟩ := hcba.compare nulls
      rw [SortKey.compare_eq_comm.mp hba'] at hab
      rw [SortKey.compare_eq_comm.mp hcb'] at hbc
      exact absurd (.inl ⟨hcba, hab, hbc⟩) h₁
    · obtain ⟨hba', hac', -⟩ := hbac.compare nulls
      rw [SortKey.compare_eq_comm.mp hba'] at hab
      rw [hac']
      exact hge (not_not.mp fun hca => h₂ (.inl ⟨hbac, hca, hab⟩))
    · obtain ⟨hac', hcb', -⟩ := hacb.compare nulls
      rw [SortKey.compare_eq_comm.mp hcb'] at hbc
      rw [hac']
      exact hge (not_not.mp fun hca => h₃ (.inl ⟨hacb, hbc, hca⟩))

theorem totalPreorderOn_of_not_muddled {R : Row → Prop}
    (hnot : ∀ u v w, R u → R v → R w → ¬ o.Muddled u v w) : TotalPreorderOn o.compare R where
  swap a b _ _ := compareBy_swap o.nulls o.keys a b
  trans a b c ha hb hc :=
    compareBy_trans (hnot c b a hc hb ha) (hnot b a c hb ha hc) (hnot a c b ha hc hb)

theorem MuddledBy.exists_real (h : MuddledBy nulls keys u v w) :
    ∃ key ∈ keys, ∃ x, (v.cell key.column).quantity? = some (.real x) := by
  induction keys with
  | nil => exact h.elim
  | cons key keys ih =>
    rcases h with ⟨⟨m, x, n, -, hx, -⟩, -⟩ | ⟨-, -, -, hrest⟩
    · exact ⟨key, by simp, x, hx⟩
    · obtain ⟨key', hkey, hx⟩ := ih hrest
      exact ⟨key', List.mem_cons_of_mem key hkey, hx⟩

theorem totalPreorderOn_of_not_real {R : Row → Prop}
    (hR : ∀ r, R r → ∀ key ∈ o.keys, ∀ x, (r.cell key.column).quantity? ≠ some (.real x)) :
    TotalPreorderOn o.compare R := by
  apply totalPreorderOn_of_not_muddled
  intro u v w _ hv _ hmuddled
  obtain ⟨key, hkey, x, hx⟩ := MuddledBy.exists_real hmuddled
  exact hR v hv key hkey x hx

/-- An order turns around, and it is a total preorder on some rows, ties comparing alike to every
third row, exactly if it muddles no three of them. -/
theorem totalPreorderOn_iff (o : RowOrder) :
    (∀ a b, o.compare a b = (o.compare b a).swap) ∧
      ∀ R : Row → Prop,
        (TotalPreorderOn o.compare R ∧ ∀ a b c, R a → R b → R c → o.compare a b = .eq →
            o.compare a c = o.compare b c) ↔
          ∀ u v w, R u → R v → R w → ¬ o.Muddled u v w := by
  refine ⟨compareBy_swap o.nulls o.keys, ?_⟩
  intro R
  constructor
  · rintro ⟨h, -⟩ u v w hu hv hw hmuddled
    obtain ⟨hwv, hvu, hwu⟩ := MuddledBy.compareBy hmuddled
    exact h.trans w v u hw hv hu hwv hvu hwu
  · intro hnot
    have h := totalPreorderOn_of_not_muddled hnot
    exact ⟨h, fun a b c ha hb hc => h.eq_of_tie ha hb hc⟩

/-! ## A muddle -/

/-- The first of two whole numbers that round to one double. -/
def lesserRow : Row := [.long 9007199254740992]

/-- The double that both round to. -/
def roundedRow : Row := [.double ⟨0x4340000000000000⟩]

/-- The second of the whole numbers. -/
def greaterRow : Row := [.long 9007199254740993]

/-- The greater number ties with the double, and that with the lesser one. -/
theorem compare_not_trans :
    let o : RowOrder := ⟨[⟨0, true⟩], .last⟩
    o.compare greaterRow roundedRow = .eq ∧ o.compare roundedRow lesserRow = .eq ∧
      o.compare greaterRow lesserRow = .gt := by
  decide +kernel

end RowOrder

end SelectMerge
