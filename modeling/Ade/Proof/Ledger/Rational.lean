import Ade.Ledger.Rational

namespace Ade.Ledger.Rational
open Library

theorem den_cast_pos (r : Rational) : (0 : ℚ) < r.den := by
  exact_mod_cast r.den_pos

@[simp] theorem value_zero : zero.value = 0 := by
  simp [value, zero]

@[simp] theorem value_one : one.value = 1 := by
  simp [value, one]

@[simp] theorem value_fromInteger (n : Int) : (fromInteger n).value = n := by
  simp [value, fromInteger]

theorem value_divGcd {num den : Int} (positive : 0 < den) :
    (divGcd num den positive).value = (num : ℚ) / den := by
  have common := @gcd_pos num den positive
  have nonzero : ((num.gcd den : Int) : ℚ) ≠ 0 := by
    exact_mod_cast common.ne'
  show ((num / num.gcd den : Int) : ℚ) / ((den / num.gcd den : Int) : ℚ) = num / den
  rw [Int.cast_div (Int.gcd_dvd_left num den) nonzero,
    Int.cast_div (Int.gcd_dvd_right num den) nonzero]
  exact div_div_div_cancel_right₀ nonzero _ _

@[simp] theorem value_reduce {num den : Int} (nonzero : den ≠ 0) :
    (reduce num den nonzero).value = (num : ℚ) / den := by
  unfold reduce
  split_ifs with isZero negative
  · simp [isZero]
  · rw [value_divGcd, Int.cast_neg, Int.cast_neg, neg_div_neg_eq]
  · exact value_divGcd _

/-- Reducing a fraction shrinks both of its parts. -/
theorem reduce_natAbs_le {num den : Int} (nonzero : den ≠ 0) :
    (reduce num den nonzero).num.natAbs ≤ num.natAbs ∧
      (reduce num den nonzero).den.natAbs ≤ den.natAbs := by
  unfold reduce
  split_ifs with isZero negative
  · have positive : 1 ≤ den.natAbs := by omega
    exact ⟨by simp [zero], positive⟩
  · rw [← Int.natAbs_neg num, ← Int.natAbs_neg den]
    exact ⟨Int.natAbs_ediv_le_natAbs _ _, Int.natAbs_ediv_le_natAbs _ _⟩
  · exact ⟨Int.natAbs_ediv_le_natAbs _ _, Int.natAbs_ediv_le_natAbs _ _⟩

theorem new_of_ne {num den : Int} (nonzero : den ≠ 0) :
    new num den = some (reduce num den nonzero) := dif_neg nonzero

theorem checkedAdd_getD (a b fallback : Rational) :
    ((a.checkedAdd b).getD fallback).value = a.value + b.value := by
  have left := a.den_cast_pos.ne'
  have right := b.den_cast_pos.ne'
  simp only [checkedAdd, Option.getD_some, value_reduce]
  push_cast
  rw [value, value, div_add_div _ _ left right]
  ring

theorem checkedSub_getD (a b fallback : Rational) :
    ((a.checkedSub b).getD fallback).value = a.value - b.value := by
  have left := a.den_cast_pos.ne'
  have right := b.den_cast_pos.ne'
  simp only [checkedSub, Option.getD_some, value_reduce]
  push_cast
  rw [value, value, div_sub_div _ _ left right]
  ring

theorem checkedMul_eq (a b : Rational) :
    ∃ product, a.checkedMul b = some product ∧ product.value = a.value * b.value := by
  refine ⟨_, rfl, ?_⟩
  rw [value_reduce, value, value, div_mul_div_comm]
  push_cast
  rfl

theorem checkedAdd_eq (a b : Rational) :
    ∃ sum, a.checkedAdd b = some sum ∧ sum.value = a.value + b.value :=
  ⟨_, rfl, checkedAdd_getD a b zero⟩

theorem checkedSub_eq (a b : Rational) :
    ∃ difference, a.checkedSub b = some difference ∧ difference.value = a.value - b.value :=
  ⟨_, rfl, checkedSub_getD a b zero⟩

theorem num_ne_zero {a : Rational} (nonzero : a.value ≠ 0) : a.num ≠ 0 := by
  intro isZero
  apply nonzero
  rw [value, isZero, Int.cast_zero, zero_div]

theorem checkedDiv_eq (a : Rational) {b : Rational} (nonzero : b.value ≠ 0) :
    ∃ quotient, a.checkedDiv b = some quotient ∧ quotient.value = a.value / b.value := by
  refine ⟨_, dif_neg (num_ne_zero nonzero), ?_⟩
  rw [value_reduce, value, value, div_div_div_eq]
  push_cast
  rfl

theorem floor_le_or (r : Rational) : (r.floor : ℚ) ≤ r.value ∨ r.floor ≤ 0 := by
  have split := Int.mul_tdiv_add_tmod r.num r.den
  have above := Int.lt_tmod_of_pos r.num r.den_pos
  have quotient : ∀ q : Int, r.den * q ≤ r.num → (clampI128 q : ℚ) ≤ r.value ∨ clampI128 q ≤ 0 := by
    intro q below
    by_cases negative : clampI128 q ≤ 0
    · exact .inr negative
    · have clamped : clampI128 q ≤ q := by
        unfold clampI128 at negative ⊢
        omega
      apply Or.inl
      rw [value, le_div_iff₀ r.den_cast_pos]
      have scaled : q * r.den ≤ r.num := by
        rw [Int.mul_comm]
        exact below
      calc (clampI128 q : ℚ) * r.den ≤ (q : ℚ) * r.den := by
            apply mul_le_mul_of_nonneg_right _ r.den_cast_pos.le
            exact_mod_cast clamped
        _ ≤ r.num := by exact_mod_cast scaled
  unfold floor
  split_ifs with negative
  · apply quotient
    rw [Int.mul_sub, Int.mul_one]
    omega
  · apply quotient
    omega

theorem lt_iff_cross (a b : Rational) :
    a.value < b.value ↔ a.num * b.den < b.num * a.den := by
  rw [value, value, div_lt_div_iff₀ a.den_cast_pos b.den_cast_pos]
  exact_mod_cast Iff.rfl

/-- Both parts are within `i128`, so reading them does not clamp. -/
structure Fits (r : Rational) : Prop where
  num : r.num.natAbs < 2 ^ 127
  den : r.den.natAbs < 2 ^ 127

theorem Fits.numerator {r : Rational} (fits : r.Fits) : r.numerator = r.num := by
  have bounded := fits.num
  exact clampI128_of_mem (by omega) (by omega)

theorem Fits.denominator {r : Rational} (fits : r.Fits) : r.denominator = r.den := by
  have bounded := fits.den
  exact clampI128_of_mem (by omega) (by omega)

theorem fits_new {num den : Int} (small : num.natAbs < 2 ^ 127) (smallDen : den.natAbs < 2 ^ 127) :
    ((new num den).getD zero).Fits := by
  unfold new
  split_ifs with isZero
  · exact ⟨by decide, by decide⟩
  · obtain ⟨shrunk, shrunkDen⟩ := @reduce_natAbs_le num den isZero
    exact ⟨shrunk.trans_lt small, shrunkDen.trans_lt smallDen⟩

end Ade.Ledger.Rational
