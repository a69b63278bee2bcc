import Mathlib.Tactic.Common
import SelectMerge.Column.Cast

/-!
# Widening and compatibility

Kinds are compatible when they are the same or both numbers, which is an equivalence
(`isCompatible_trans`) that a join does not leave (`isCompatible_join?`), so that the types of many
segments can be joined in turn. A type widens to every join of it (`widensTo_join?`), widening
composes (`widensTo_trans`), and a cell can be cast exactly along the widening of its type
(`Cell.isSome_cast?`).
-/

namespace SelectMerge

/-! ## Kinds -/

namespace Scalar

variable {a b c : Scalar}

theorem isSome_join? (a b : Scalar) :
    (a.join? b).isSome = (a == b || (a.isNumber && b.isNumber)) := by
  cases a <;> cases b <;> rfl

theorem eq_or_isNumber_of_join? (h : a.join? b = some c) :
    (c = a ∧ c = b) ∨ (c.isNumber ∧ a.isNumber ∧ b.isNumber) := by
  by_cases hab : a = b
  · subst hab
    simp_all [join?]
  · have hnum : a.isNumber ∧ b.isNumber := by
      have := isSome_join? a b
      rw [h] at this
      simpa [hab] using this.symm
    refine .inr ⟨?_, hnum⟩
    simp only [join?, hab, if_false, hnum, Bool.and_self, if_true] at h
    split at h <;> obtain rfl := Option.some.inj h <;> rfl

theorem covers_iff : a.covers b ↔
    a = b ∨ (a.isNumber ∧ ∃ m n, a.rank? = some m ∧ b.rank? = some n ∧ n ≤ m) := by
  cases a <;> cases b <;> simp [covers, isNumber, rank?]

theorem covers_self (a : Scalar) : a.covers a := covers_iff.mpr (.inl rfl)

theorem covers_trans (hab : a.covers b) (hbc : b.covers c) : a.covers c := by
  rw [covers_iff] at hab hbc ⊢
  rcases hab with rfl | ⟨hnum, m, n, ha, hb, hle⟩
  · exact hbc
  · rcases hbc with rfl | ⟨-, n', k, hb', hc, hle'⟩
    · exact .inr ⟨hnum, m, n, ha, hb, hle⟩
    · obtain rfl := Option.some.inj (hb.symm.trans hb')
      exact .inr ⟨hnum, m, k, ha, hc, Nat.le_trans hle' hle⟩

theorem covers_join? (h : a.join? b = some c) : c.covers a ∧ c.covers b := by
  revert h
  cases a <;> cases b <;> rintro ⟨⟩ <;> exact ⟨rfl, rfl⟩

theorem isSome_conversion? (s t : Scalar) : (s.conversion? t).isSome = t.covers s := by
  cases s <;> cases t <;> rfl

theorem isSome_elementConversion? (s t : Scalar) :
    (s.elementConversion? t).isSome = (s == t || (s.isNumber && t.covers s)) := by
  cases s <;> cases t <;> rfl

end Scalar

/-! ## Types -/

namespace ColumnType

variable {s t u : ColumnType}

theorem join?_self (t : ColumnType) : t.join? t = some t := by
  cases t <;> simp [join?, Scalar.join?]

theorem isCompatible_self (t : ColumnType) : t.isCompatible t := by
  rw [isCompatible, join?_self]
  rfl

theorem isCompatible_comm (s t : ColumnType) : s.isCompatible t = t.isCompatible s := by
  cases s <;> cases t <;>
    simp [isCompatible, join?, Scalar.isSome_join?, Bool.and_comm, BEq.comm]

theorem isCompatible_trans (hst : s.isCompatible t) (htu : t.isCompatible u) :
    s.isCompatible u := by
  cases s <;> cases t <;> cases u <;>
    simp_all [isCompatible, join?, Scalar.isSome_join?] <;> grind

theorem isCompatible_join? (h : s.join? t = some u) : u.isCompatible s := by
  cases s <;> cases t <;> simp only [join?, Option.map_eq_some_iff, reduceCtorEq] at h <;>
  · obtain ⟨c, hc, rfl⟩ := h
    rcases Scalar.eq_or_isNumber_of_join? hc with ⟨rfl, -⟩ | ⟨hc, ha, -⟩
    · exact isCompatible_self _
    · simp [isCompatible, join?, Scalar.isSome_join?, hc, ha]

theorem widensTo_self (t : ColumnType) : t.widensTo t := by
  cases t with
  | one a => exact Scalar.covers_self a
  | many a => simp [widensTo]

theorem widensTo_trans (hst : s.widensTo t) (htu : t.widensTo u) : s.widensTo u := by
  cases s <;> cases t <;> cases u <;> simp only [widensTo, Bool.false_eq_true] at *
  · exact Scalar.covers_trans htu hst
  · rename_i a b c
    simp only [Bool.or_eq_true, beq_iff_eq, Bool.and_eq_true] at *
    rcases hst with rfl | ⟨ha, hba⟩
    · exact htu
    · rcases htu with rfl | ⟨-, hcb⟩
      · exact .inr ⟨ha, hba⟩
      · exact .inr ⟨ha, Scalar.covers_trans hcb hba⟩

theorem widensTo_join? (h : s.join? t = some u) : s.widensTo u ∧ t.widensTo u := by
  cases s <;> cases t <;> simp only [join?, Option.map_eq_some_iff, reduceCtorEq] at h
  · obtain ⟨c, hc, rfl⟩ := h
    exact Scalar.covers_join? hc
  · obtain ⟨c, hc, rfl⟩ := h
    obtain ⟨hca, hcb⟩ := Scalar.covers_join? hc
    rcases Scalar.eq_or_isNumber_of_join? hc with ⟨rfl, rfl⟩ | ⟨-, ha, hb⟩
    · simp [widensTo]
    · simp [widensTo, ha, hb, hca, hcb]

theorem isOrderable_one (a : Scalar) : (one a).isOrderable = (a != .object) := by
  cases a <;> rfl

theorem isOrderable_of_isCompatible (h : s.isCompatible t) (hs : s.isOrderable) :
    t.isOrderable := by
  cases s with
  | many a => cases hs
  | one a =>
    cases t with
    | many b => cases h
    | one b =>
      simp only [isCompatible, join?, Option.isSome_map, Scalar.isSome_join?, Bool.or_eq_true,
        Bool.and_eq_true, beq_iff_eq] at h
      rw [isOrderable_one, bne_iff_ne] at hs ⊢
      rcases h with rfl | ⟨-, hb⟩
      · exact hs
      · rintro rfl
        cases hb

end ColumnType

/-- A cell can be cast exactly to what its type widens to. -/
theorem Cell.isSome_cast? (t : ColumnType) (c : Cell) :
    (c.cast? t).isSome = c.type?.all (·.widensTo t) := by
  cases c <;> cases t <;>
    simp [cast?, type?, ColumnType.widensTo, Scalar.isSome_conversion?,
      Scalar.isSome_elementConversion?]

end SelectMerge
