import Mathlib.Algebra.Group.Nat.Defs
import Mathlib.Algebra.Order.Group.Int
import SelectMerge.Number.Binary

/-!
# Rounding integers

Rounding an integer to a double keeps order (`rank_ofInt_mono`): a greater integer is never ranked
below a smaller one, though many integers beyond `2 ^ 53` share a rank with their neighbours; up to
there no two do (`rank_ofInt_strictMono`).

The significand of an integer is its rounded `quotient`, and its code is the binade of its leading
bit with that significand. Between powers of two the quotient grows with the integer
(`quotient_mono`), and past a power of two the codes of the next binade begin (`code_lt_code`); so
the codes grow (`roundQuot_mono`).
-/

namespace SelectMerge

/-! ## Rounded quotients -/

theorem div_le_roundDiv (num den : Nat) : num / den ≤ roundDiv num den := by
  unfold roundDiv
  dsimp only
  split_ifs <;> omega

theorem roundDiv_le_succ (num den : Nat) : roundDiv num den ≤ num / den + 1 := by
  unfold roundDiv
  dsimp only
  split_ifs <;> omega

theorem roundDiv_le_of_lt {num den q : Nat} (h : num < den * q) : roundDiv num den ≤ q :=
  (roundDiv_le_succ num den).trans (Nat.div_lt_of_lt_mul h)

theorem roundDiv_mono {a b den : Nat} (h : a ≤ b) : roundDiv a den ≤ roundDiv b den := by
  rcases (Nat.div_le_div_right h : a / den ≤ b / den).lt_or_eq with hlt | heq
  · exact (roundDiv_le_succ a den).trans ((Nat.succ_le_of_lt hlt).trans (div_le_roundDiv b den))
  · have hmod : a % den ≤ b % den := by
      have ha := Nat.div_add_mod a den
      have hb := Nat.div_add_mod b den
      rw [heq] at ha
      omega
    unfold roundDiv
    dsimp only
    rw [heq]
    split_ifs <;> omega

theorem roundDiv_one (num : Nat) : roundDiv num 1 = num := by simp [roundDiv, Nat.mod_one]

/-! ## Integers on the scale of codes -/

theorem leadingExponent_one {num : Nat} (h : num ≠ 0) : leadingExponent num 1 = num.log2 := by
  have hle : ¬ num < 2 ^ num.log2 := Nat.not_lt.mpr (Nat.log2_self_le h)
  have hk : (0 : Int) ≤ num.log2 := Int.natCast_nonneg _
  simp [leadingExponent, scaleQuot, Nat.shiftLeft_eq, show (1 : Nat).log2 = 0 from rfl, hle]

namespace BinaryFormat

variable {f : BinaryFormat} {m n num : Nat}

/-- The quotient whose rounding is the significand of an integer. -/
def quotient (f : BinaryFormat) (num : Nat) : Nat × Nat :=
  scaleQuot num 1 ((f.precision - 1 : Nat) - num.log2)

theorem quotient_of_log2_le (h : num.log2 ≤ f.precision - 1) :
    f.quotient num = (num * 2 ^ (f.precision - 1 - num.log2), 1) := by
  have hsub : ((f.precision - 1 : Nat) : Int) - num.log2 = (f.precision - 1 - num.log2 : Nat) := by
    omega
  rw [quotient, hsub, scaleQuot, if_pos (Int.natCast_nonneg _), Int.toNat_natCast,
    Nat.shiftLeft_eq]

theorem quotient_of_lt_log2 (h : f.precision - 1 < num.log2) :
    f.quotient num = (num, 2 ^ (num.log2 - (f.precision - 1))) := by
  rw [quotient, scaleQuot, if_neg (by omega), Nat.one_shiftLeft]
  congr 2
  omega

theorem quotient_pos (num : Nat) : 0 < (f.quotient num).2 := by
  rcases Nat.lt_or_ge (f.precision - 1) num.log2 with hlog | hlog
  · rw [quotient_of_lt_log2 hlog]
    exact Nat.two_pow_pos _
  · rw [quotient_of_log2_le hlog]
    exact Nat.one_pos

theorem quotient_bounds (h : num ≠ 0) :
    (f.quotient num).2 * f.binade ≤ (f.quotient num).1 ∧
      (f.quotient num).1 < (f.quotient num).2 * (2 * f.binade) := by
  have hlow : 2 ^ num.log2 ≤ num := Nat.log2_self_le h
  have hhigh : num < 2 ^ (num.log2 + 1) := Nat.lt_log2_self
  rcases Nat.lt_or_ge (f.precision - 1) num.log2 with hlog | hlog
  · rw [quotient_of_lt_log2 hlog, binade, Nat.one_shiftLeft]
    have hpow : 2 ^ (num.log2 - (f.precision - 1)) * 2 ^ (f.precision - 1) = 2 ^ num.log2 := by
      rw [← Nat.pow_add]
      congr 1
      omega
    rw [Nat.mul_left_comm, hpow, Nat.mul_comm, ← Nat.pow_succ]
    exact ⟨hlow, hhigh⟩
  · rw [quotient_of_log2_le hlog, binade, Nat.one_shiftLeft, Nat.one_mul, Nat.one_mul]
    have hpow : 2 ^ num.log2 * 2 ^ (f.precision - 1 - num.log2) = 2 ^ (f.precision - 1) := by
      rw [← Nat.pow_add]
      congr 1
      omega
    refine ⟨hpow ▸ Nat.mul_le_mul_right _ hlow, ?_⟩
    rw [← hpow, ← Nat.mul_assoc, Nat.mul_comm 2, ← Nat.pow_succ]
    exact Nat.mul_lt_mul_of_pos_right hhigh (Nat.two_pow_pos _)

theorem quotient_mono (h : m ≤ n) (hlog : m.log2 = n.log2) :
    (f.quotient m).2 = (f.quotient n).2 ∧ (f.quotient m).1 ≤ (f.quotient n).1 := by
  rcases Nat.lt_or_ge (f.precision - 1) n.log2 with hlt | hge
  · rw [quotient_of_lt_log2 hlt, quotient_of_lt_log2 (hlog ▸ hlt), hlog]
    exact ⟨rfl, h⟩
  · rw [quotient_of_log2_le hge, quotient_of_log2_le (hlog ▸ hge), hlog]
    exact ⟨rfl, Nat.mul_le_mul_right _ h⟩

/-- The exponent of the last place of an integer's significand, counted from the least one. -/
def place (f : BinaryFormat) (num : Nat) : Nat :=
  ((num.log2 : Int) - (f.precision - 1 : Nat) - f.leastExponent).toNat

theorem roundQuot_one (hf : f.leastExponent + (f.precision - 1 : Nat) ≤ 0) (h : num ≠ 0) :
    f.roundQuot num 1 = min f.infinity
      (f.place num * f.binade + roundDiv (f.quotient num).1 (f.quotient num).2) := by
  have hlog : (0 : Int) ≤ num.log2 := Int.natCast_nonneg _
  have hmax : max f.leastExponent ((num.log2 : Int) - (f.precision - 1 : Nat)) =
      (num.log2 : Int) - (f.precision - 1 : Nat) := 
      max_eq_right (Int.le_sub_right_of_add_le (hf.trans hlog))
  rw [roundQuot, if_neg h, leadingExponent_one h]
  simp only [hmax, Int.neg_sub]
  rfl

theorem binade_le_significand (h : num ≠ 0) :
    f.binade ≤ roundDiv (f.quotient num).1 (f.quotient num).2 := by
  refine le_trans ?_ (div_le_roundDiv _ _)
  refine (Nat.le_div_iff_mul_le (quotient_pos num)).mpr ?_
  rw [Nat.mul_comm]
  exact (quotient_bounds h).1

theorem roundQuot_mono (hf : f.leastExponent + (f.precision - 1 : Nat) ≤ 0) (h : m ≤ n) :
    f.roundQuot m 1 ≤ f.roundQuot n 1 := by
  by_cases hm : m = 0
  · simp [roundQuot, hm]
  have hn : n ≠ 0 := by omega
  rw [roundQuot_one hf hm, roundQuot_one hf hn]
  refine min_le_min_left _ ?_
  have hlog : m.log2 ≤ n.log2 := (Nat.le_log2 hn).mpr ((Nat.log2_self_le hm).trans h)
  rcases hlog.lt_or_eq with hlt | heq
  · -- the significand of `m` is at most that of the next power of two
    have hplace : f.place m + 1 ≤ f.place n := by
      unfold place
      omega
    have hupper := roundDiv_le_of_lt (quotient_bounds (f := f) hm).2
    have hlower := binade_le_significand (f := f) hn
    have := Nat.mul_le_mul_right f.binade hplace
    rw [Nat.add_mul, Nat.one_mul] at this
    omega
  · -- between powers of two only the significands differ
    have hplace : f.place m = f.place n := by rw [place, place, heq]
    obtain ⟨hden, hnum⟩ := quotient_mono (f := f) h heq
    rw [hplace, hden]
    exact Nat.add_le_add_left (roundDiv_mono hnum) _

theorem roundQuot_le_infinity (f : BinaryFormat) (num den : Nat) :
    f.roundQuot num den ≤ f.infinity := by
  unfold roundQuot
  split
  · exact Nat.zero_le _
  · exact Nat.min_le_left _ _

/-! ### Integers that are not rounded -/

theorem significand_of_log2_le (h : num.log2 ≤ f.precision - 1) :
    roundDiv (f.quotient num).1 (f.quotient num).2 = num * 2 ^ (f.precision - 1 - num.log2) := by
  rw [quotient_of_log2_le h, roundDiv_one]

theorem code_lt_code (hf : f.leastExponent + (f.precision - 1 : Nat) ≤ 0) (hm : m ≠ 0)
    (hlog : m.log2 ≤ f.precision - 1) (h : m < n) :
    f.place m * f.binade + roundDiv (f.quotient m).1 (f.quotient m).2 <
      f.place n * f.binade + roundDiv (f.quotient n).1 (f.quotient n).2 := by
  have hn : n ≠ 0 := by omega
  have hle : m.log2 ≤ n.log2 := (Nat.le_log2 hn).mpr ((Nat.log2_self_le hm).trans h.le)
  rcases hle.lt_or_eq with hlt | heq
  · have hplace : f.place m + 1 ≤ f.place n := by
      unfold place
      omega
    have hupper : roundDiv (f.quotient m).1 (f.quotient m).2 < 2 * f.binade := by
      have hbound := (quotient_bounds (f := f) hm).2
      rw [quotient_of_log2_le hlog] at hbound ⊢
      rwa [roundDiv_one, ← Nat.one_mul (2 * _)]
    have hlower := binade_le_significand (f := f) hn
    have := Nat.mul_le_mul_right f.binade hplace
    rw [Nat.add_mul, Nat.one_mul] at this
    omega
  · have hplace : f.place m = f.place n := by rw [place, place, heq]
    rw [significand_of_log2_le hlog, significand_of_log2_le (heq ▸ hlog), hplace, heq]
    exact Nat.add_lt_add_left (Nat.mul_lt_mul_of_pos_right h (Nat.two_pow_pos _)) _

theorem roundQuot_double_lt (hm : m < 2 ^ 53) (h : m < n) :
    double.roundQuot m 1 < double.roundQuot n 1 := by
  have hf : double.leastExponent + (double.precision - 1 : Nat) ≤ 0 := by decide
  have hn : n ≠ 0 := by omega
  rw [roundQuot_one hf hn]
  by_cases hzero : m = 0
  · have hlower := binade_le_significand (f := double) hn
    have hbinade : 0 < double.binade := by decide
    have hinfinity : 0 < double.infinity := by decide
    rw [hzero, roundQuot, if_pos rfl]
    omega
  · have hlog : m.log2 ≤ double.precision - 1 :=
      Nat.le_of_lt_succ ((Nat.log2_lt hzero).mpr hm)
    have hcode := code_lt_code hf hzero hlog h
    have hfinite : double.place m * double.binade +
        roundDiv (double.quotient m).1 (double.quotient m).2 < double.infinity := by
      have hplace : double.place m ≤ 1074 := by
        have hleast : double.leastExponent = -1074 := by decide
        have hbits : double.precision - 1 = 52 := rfl
        rw [hbits] at hlog
        rw [place, hleast, hbits]
        omega
      have hupper := roundDiv_le_of_lt (quotient_bounds (f := double) hzero).2
      have hmul := Nat.mul_le_mul_right double.binade hplace
      have hinfinity : double.infinity = 2047 * double.binade := by decide
      have hbinade : 0 < double.binade := by decide
      omega
    rw [roundQuot_one hf hzero]
    exact (min_le_right _ _).trans_lt (lt_min hfinite hcode)

end BinaryFormat

/-! ## Words -/

namespace Binary64

open BinaryFormat

theorem toNat_ofCode (negative : Bool) {code : Nat} (h : code < double.signPlace) :
    (ofCode negative code).bits.toNat = code + if negative then double.signPlace else 0 := by
  refine UInt64.toNat_ofNat_of_lt' ?_
  have hsize : UInt64.size = double.signPlace + double.signPlace := rfl
  rw [hsize]
  split <;> omega

theorem code_ofCode (negative : Bool) {code : Nat} (h : code < double.signPlace) :
    (ofCode negative code).code = code := by
  rw [Binary64.code, toNat_ofCode negative h]
  cases negative
  · exact Nat.mod_eq_of_lt h
  · rw [if_pos rfl, Nat.add_mod_right, Nat.mod_eq_of_lt h]

theorem isNegative_ofCode (negative : Bool) {code : Nat} (h : code < double.signPlace) :
    (ofCode negative code).isNegative = negative := by
  rw [isNegative, toNat_ofCode negative h]
  cases negative
  · simpa using h
  · simp

theorem rank_ofInt (n : Int) :
    (ofInt n).rank =
      if n < 0 then -(double.roundQuot n.natAbs 1 : Int) else double.roundQuot n.natAbs 1 := by
  have hle := roundQuot_le_infinity double n.natAbs 1
  have hlt : double.roundQuot n.natAbs 1 < double.signPlace := hle.trans_lt (by decide)
  rw [rank, isNaN, ofInt, code_ofCode _ hlt, isNegative_ofCode _ hlt, if_neg (by simpa using hle)]
  simp only [decide_eq_true_eq]

/-- Rounding an integer to a double keeps order. -/
theorem rank_ofInt_mono {m n : Int} (h : m ≤ n) : (ofInt m).rank ≤ (ofInt n).rank := by
  have hf : double.leastExponent + (double.precision - 1 : Nat) ≤ 0 := by decide
  rw [rank_ofInt, rank_ofInt]
  by_cases hn : n < 0
  · have hround : double.roundQuot n.natAbs 1 ≤ double.roundQuot m.natAbs 1 :=
      roundQuot_mono hf (by omega)
    rw [if_pos hn, if_pos (by omega)]
    omega
  · rw [if_neg hn]
    split
    · omega
    · have hround : double.roundQuot m.natAbs 1 ≤ double.roundQuot n.natAbs 1 :=
        roundQuot_mono hf (by omega)
      omega

/-- Integers that a double holds exactly are told apart when they are rounded. -/
theorem rank_ofInt_strictMono {m n : Int} (hm : -2 ^ 53 ≤ m) (hn : n ≤ 2 ^ 53) (h : m < n) :
    (ofInt m).rank < (ofInt n).rank := by
  rw [rank_ofInt, rank_ofInt]
  by_cases hneg : n < 0
  · have hround : double.roundQuot n.natAbs 1 < double.roundQuot m.natAbs 1 :=
      roundQuot_double_lt (by omega) (by omega)
    rw [if_pos hneg, if_pos (by omega)]
    omega
  · rw [if_neg hneg]
    split
    · have hround : double.roundQuot 0 1 < double.roundQuot m.natAbs 1 :=
        roundQuot_double_lt (by omega) (by omega)
      omega
    · have hround : double.roundQuot m.natAbs 1 < double.roundQuot n.natAbs 1 :=
        roundQuot_double_lt (by omega) (by omega)
      omega

theorem eq_of_rank_ofInt_eq {m n : Int} (hm : -2 ^ 53 ≤ m ∧ m ≤ 2 ^ 53)
    (hn : -2 ^ 53 ≤ n ∧ n ≤ 2 ^ 53) (h : (ofInt m).rank = (ofInt n).rank) : m = n := by
  rcases Int.lt_trichotomy m n with hlt | heq | hgt
  · exact absurd h (rank_ofInt_strictMono hm.1 hn.2 hlt).ne
  · exact heq
  · exact absurd h.symm (rank_ofInt_strictMono hn.1 hm.2 hgt).ne

end Binary64

end SelectMerge
