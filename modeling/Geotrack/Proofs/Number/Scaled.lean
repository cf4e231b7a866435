import Mathlib.Data.Rat.Floor
import Geotrack.Number.Scaled
import Geotrack.Proofs.Number.Grid

/-!
# Exact arithmetic

A `Scaled` number has a rational value, and its operations are those of the value.
-/

namespace Geotrack

open Binary64

namespace Scaled

def value (x : Scaled) : ℚ := x.mantissa * 2 ^ x.exponent

variable (x y : Scaled)

theorem twoTo_cast (n : ℕ) : ((twoTo n : ℕ) : ℚ) = 2 ^ n := by
  simp [twoTo]

theorem mantissaAt_value {e : ℤ} (h : e ≤ x.exponent) : x.mantissaAt e * 2 ^ e = x.value := by
  rw [mantissaAt, value, two_zpow_eq h]
  push_cast
  rw [twoTo_cast]
  ring

theorem value_neg : x.neg.value = -x.value := by
  simp [neg, value]

theorem value_add : (x.add y).value = x.value + y.value := by
  change ((_ + _ : ℤ) : ℚ) * 2 ^ min x.exponent y.exponent = _
  rw [Int.cast_add, add_mul, mantissaAt_value x (min_le_left _ _),
    mantissaAt_value y (min_le_right _ _)]

theorem value_sub : (x.sub y).value = x.value - y.value := by
  rw [sub, value_add, value_neg, sub_eq_add_neg]

theorem value_mul : (x.mul y).value = x.value * y.value := by
  simp only [mul, value, two_zpow_add]
  push_cast
  ring

theorem sign_eq : x.sign = compare x.value 0 := by
  have unit := two_zpow_pos x.exponent
  rcases lt_trichotomy x.mantissa 0 with h | h | h
  · rw [sign, compare_lt_iff_lt.mpr h]
    exact (compare_lt_iff_lt.mpr (mul_neg_of_neg_of_pos (by exact_mod_cast h) unit)).symm
  · simp [sign, value, h]
  · rw [sign, compare_gt_iff_gt.mpr h]
    exact (compare_gt_iff_gt.mpr (mul_pos (by exact_mod_cast h) unit)).symm

theorem mantissa_nonneg_iff : 0 ≤ x.mantissa ↔ 0 ≤ x.value := by
  rw [value, mul_nonneg_iff_left_nonneg_of_pos (two_zpow_pos _)]
  exact_mod_cast Iff.rfl

theorem floor_eq : x.floor = ⌊x.value⌋ := by
  unfold floor
  split
  case isTrue h =>
    have : x.value = (x.mantissa * twoTo x.exponent.toNat : ℤ) := by
      rw [value, two_zpow_eq h]
      simp [twoTo]
    rw [this, Int.floor_intCast]
  case isFalse h =>
    have : x.value = x.mantissa / (twoTo (-x.exponent).toNat : ℕ) := by
      rw [value, twoTo_cast, div_eq_mul_inv, ← zpow_natCast, ← zpow_neg]
      congr 2
      omega
    rw [this, Rat.floor_intCast_div_natCast, Int.fdiv_eq_ediv_of_nonneg _ (Int.natCast_nonneg _)]

theorem ceil_eq : x.ceil = ⌈x.value⌉ := by
  rw [ceil, floor_eq, value_neg, Int.floor_neg, neg_neg]

theorem roundHalfAway_eq :
    x.roundHalfAway = if 0 ≤ x.value then ⌊x.value + 1 / 2⌋ else ⌈x.value - 1 / 2⌉ := by
  have half : (⟨1, -1⟩ : Scaled).value = 1 / 2 := by norm_num [value]
  simp only [roundHalfAway, mantissa_nonneg_iff, floor_eq, ceil_eq, value_add, value_sub, half]

/-- Rounding to whole numbers keeps order. -/
theorem roundHalfAway_mono (h : x.value ≤ y.value) : x.roundHalfAway ≤ y.roundHalfAway := by
  rw [roundHalfAway_eq, roundHalfAway_eq]
  split
  case isTrue hx =>
    rw [if_pos (hx.trans h)]
    gcongr
  case isFalse hx =>
    split
    case isTrue hy =>
      have : ⌈x.value - 1 / 2⌉ ≤ 0 := Int.ceil_le.mpr (by push_cast; linarith)
      exact this.trans (Int.floor_nonneg.mpr (by linarith))
    case isFalse hy => gcongr

end Scaled

end Geotrack
