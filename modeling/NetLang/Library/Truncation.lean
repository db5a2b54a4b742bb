import Mathlib

/-!
# Truncation toward zero

The integer part of a rational, and the truncating division of integers that
computes it.
-/

namespace NetLang

/-- The integer part of a rational, toward zero. -/
def integerPart (value : ℚ) : ℤ :=
  if 0 ≤ value then ⌊value⌋ else ⌈value⌉

theorem integerPart_neg (value : ℚ) :
    integerPart (-value) = -integerPart value := by
  obtain below | rfl | above := lt_trichotomy value 0
  · simp [integerPart, below.le, below.not_ge, Int.floor_neg]
  · simp [integerPart]
  · simp [integerPart, above.le, above.not_ge, Int.ceil_neg]

theorem integerPart_natCast_div (a b : ℕ) :
    integerPart (a / b) = ((a / b : ℕ) : ℤ) := by
  have nonneg : (0 : ℚ) ≤ a / b := by positivity
  simp [integerPart, nonneg, Rat.floor_natCast_div_natCast]

/-- Truncating division computes the integer part of the quotient. -/
theorem tdiv_eq_integerPart (a b : ℤ) : a.tdiv b = integerPart (a / b) := by
  obtain ⟨a, rfl | rfl⟩ := a.eq_nat_or_neg <;>
    obtain ⟨b, rfl | rfl⟩ := b.eq_nat_or_neg <;>
    simp [Int.neg_tdiv, Int.tdiv_neg, neg_div, div_neg, integerPart_neg,
      integerPart_natCast_div]

theorem tmod_eq_integerPart (a b : ℤ) :
    a.tmod b = a - b * integerPart (a / b) := by
  rw [← tdiv_eq_integerPart, Int.tmod_def]

theorem integerPart_eq_tdiv (value : ℚ) :
    integerPart value = value.num.tdiv value.den := by
  rw [tdiv_eq_integerPart, Int.cast_natCast, Rat.num_div_den]

/-- An integer is above a rational exactly when it is above its integer part,
or at it while the fractional part is negative. -/
theorem compare_integerPart (integer : ℤ) (value : ℚ) :
    compare (integer : ℚ) value =
      (compare integer (integerPart value)).then
        (compare 0 (value - integerPart value)) := by
  obtain below | same | above := lt_trichotomy integer (integerPart value)
  · have smaller : (integer : ℚ) < value := by
      by_cases nonneg : 0 ≤ value
      · rw [integerPart, if_pos nonneg] at below
        exact lt_of_lt_of_le (by exact_mod_cast below) (Int.floor_le value)
      · rw [integerPart, if_neg nonneg] at below
        exact Int.lt_ceil.mp below
    rw [compare_lt_iff_lt.mpr below, compare_lt_iff_lt.mpr smaller]
    rfl
  · subst same
    rw [compare_eq_iff_eq.mpr rfl, Ordering.eq_then]
    obtain smaller | equal | larger := lt_trichotomy (integerPart value : ℚ) value
    · rw [compare_lt_iff_lt.mpr smaller,
        compare_lt_iff_lt.mpr (sub_pos.mpr smaller)]
    · rw [compare_eq_iff_eq.mpr equal,
        compare_eq_iff_eq.mpr (sub_eq_zero.mpr equal.symm).symm]
    · rw [compare_gt_iff_gt.mpr larger,
        compare_gt_iff_gt.mpr (sub_neg.mpr larger)]
  · have larger : value < integer := by
      by_cases nonneg : 0 ≤ value
      · rw [integerPart, if_pos nonneg] at above
        exact Int.floor_lt.mp above
      · rw [integerPart, if_neg nonneg] at above
        exact lt_of_le_of_lt (Int.le_ceil value) (by exact_mod_cast above)
    rw [compare_gt_iff_gt.mpr above, compare_gt_iff_gt.mpr larger]
    rfl

end NetLang
