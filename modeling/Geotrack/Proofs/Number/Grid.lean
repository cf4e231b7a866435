import Mathlib.Algebra.Order.Floor.Semifield
import Mathlib.Algebra.Order.Field.Power
import Mathlib.Data.Rat.Floor
import Mathlib.Tactic.Linarith
import Mathlib.Tactic.Ring
import Mathlib.Tactic.Positivity
import Mathlib.Tactic.NormNum
import Mathlib.Tactic.FieldSimp

/-!
# The grid of binary64 numbers

The grid holds the numbers with 53 binary digits and a last digit that is worth at least
`2 ^ -1074`; there is no largest one. Rounding takes a number to a nearest one of the grid. What
follows from this alone is that rounding keeps order and signs: `Nearest.mono`.
-/

namespace Geotrack.Binary64

/-- Whether a number has 53 binary digits, the last one worth at least `2 ^ -1074`. -/
def OnGrid (x : ℚ) : Prop := ∃ m e : ℤ, |m| ≤ 2 ^ 53 ∧ -1074 ≤ e ∧ x = m * 2 ^ e

/-- Whether no number of the grid is nearer to `x` than the number `y` of the grid. -/
structure Nearest (x y : ℚ) : Prop where
  onGrid : OnGrid y
  least : ∀ z, OnGrid z → |x - y| ≤ |x - z|

variable {x y z x' y' : ℚ} {e t : ℤ}

theorem two_zpow_pos (e : ℤ) : (0 : ℚ) < 2 ^ e := zpow_pos two_pos e

theorem two_zpow_add (t e : ℤ) : (2 : ℚ) ^ (t + e) = 2 ^ t * 2 ^ e := zpow_add₀ two_ne_zero t e

theorem two_zpow_mono (h : t ≤ e) : (2 : ℚ) ^ t ≤ 2 ^ e := zpow_le_zpow_right₀ one_le_two h

/-- A number counted in units `2 ^ e` counted in smaller ones. -/
theorem two_zpow_eq (h : t ≤ e) : (2 : ℚ) ^ e = (2 ^ (e - t).toNat : ℕ) * 2 ^ t := by
  rw [Nat.cast_pow, Nat.cast_ofNat, ← zpow_natCast, ← two_zpow_add]
  congr 1
  omega

theorem onGrid_zero : OnGrid 0 := ⟨0, 0, by norm_num, by norm_num, by simp⟩

theorem OnGrid.neg (h : OnGrid x) : OnGrid (-x) := by
  obtain ⟨m, e, hm, he, rfl⟩ := h
  exact ⟨-m, e, by rwa [abs_neg], he, by push_cast; ring⟩

/-- Every number of the grid is a whole number of units `2 ^ t`, or small against them. -/
theorem OnGrid.units_or_le (h : OnGrid z) (ht : -1074 ≤ t) :
    (∃ k : ℤ, z = k * 2 ^ t) ∨ (-1074 < t ∧ |z| ≤ 2 ^ (t + 52)) := by
  obtain ⟨m, e, hm, he, rfl⟩ := h
  obtain hte | het := le_or_gt t e
  · refine .inl ⟨m * (2 ^ (e - t).toNat : ℕ), ?_⟩
    rw [two_zpow_eq hte]
    push_cast
    ring
  · refine .inr ⟨by omega, ?_⟩
    have hm : |(m : ℚ)| ≤ 2 ^ (53 : ℤ) := by exact_mod_cast hm
    calc |(m : ℚ) * 2 ^ e| = |(m : ℚ)| * 2 ^ e := by rw [abs_mul, abs_of_pos (two_zpow_pos e)]
      _ ≤ 2 ^ (53 : ℤ) * 2 ^ e := by gcongr
      _ = 2 ^ (53 + e) := (two_zpow_add 53 e).symm
      _ ≤ 2 ^ (t + 52) := two_zpow_mono (by omega)

namespace Nearest

theorem neg (h : Nearest x y) : Nearest (-x) (-y) := by
  refine ⟨h.onGrid.neg, fun z hz => ?_⟩
  have := h.least (-z) hz.neg
  rwa [← abs_neg, show -(-x - -y) = x - y by ring, ← abs_neg (-x - z),
    show -(-x - z) = x - -z by ring]

/-- A whole number of units is nearest when it is off by half a unit at most and all numbers of the
grid about there are whole numbers of units. -/
theorem of_units {k : ℤ} (hk : |k| ≤ 2 ^ 53) (ht : -1074 ≤ t) (hx : t = -1074 ∨ 2 ^ (t + 52) ≤ x)
    (half : |x - k * 2 ^ t| ≤ 2 ^ t / 2) : Nearest x (k * 2 ^ t) := by
  refine ⟨⟨k, t, hk, ht, rfl⟩, fun z hz => ?_⟩
  have unit := two_zpow_pos t
  have among : ∀ j : ℤ, |x - k * 2 ^ t| ≤ |x - j * 2 ^ t| := by
    intro j
    obtain rfl | hne := eq_or_ne j k
    · rfl
    have apart : (2 : ℚ) ^ t ≤ |(j - k : ℚ) * 2 ^ t| := by
      rw [abs_mul, abs_of_pos unit]
      have : (1 : ℚ) ≤ |(j : ℚ) - k| := by exact_mod_cast Int.one_le_abs (sub_ne_zero.mpr hne)
      nlinarith
    have := abs_sub_abs_le_abs_sub ((j - k : ℚ) * 2 ^ t) (x - k * 2 ^ t)
    have : |(j - k : ℚ) * 2 ^ t - (x - k * 2 ^ t)| = |x - j * 2 ^ t| := by
      rw [← abs_neg]
      ring_nf
    linarith
  obtain ⟨j, rfl⟩ | ⟨htmin, hsmall⟩ := hz.units_or_le ht
  · exact among j
  · -- the last power of two up to `x` lies between `z` and `x`
    have hx := hx.resolve_left (by omega)
    have := among (2 ^ 52)
    rw [Int.cast_pow, Int.cast_ofNat, ← zpow_natCast, Nat.cast_ofNat, ← two_zpow_add, add_comm,
      abs_of_nonneg (sub_nonneg.mpr hx)] at this
    have := le_abs_self z
    have := le_abs_self (x - z)
    linarith

theorem self (h : OnGrid x) : Nearest x x :=
  ⟨h, fun z _ => by rw [sub_self, abs_zero]; exact abs_nonneg _⟩

theorem eq_of_onGrid (h : Nearest x y) (hx : OnGrid x) : y = x := by
  have := h.least x hx
  rw [sub_self, abs_zero] at this
  linarith [abs_eq_zero.mp (le_antisymm this (abs_nonneg _))]

/-- Rounding keeps the order of numbers. -/
theorem mono (h : Nearest x y) (h' : Nearest x' y') (hlt : x < x') : y ≤ y' := by
  by_contra hgt
  have near := h.least y' h'.onGrid
  have near' := h'.least y h.onGrid
  rw [← sq_le_sq] at near near'
  nlinarith

theorem le_of_le (h : Nearest x y) (hz : OnGrid z) (hle : x ≤ z) : y ≤ z := by
  obtain rfl | hlt := hle.eq_or_lt
  · exact (h.eq_of_onGrid hz).le
  · exact h.mono (self hz) hlt

theorem ge_of_ge (h : Nearest x y) (hz : OnGrid z) (hle : z ≤ x) : z ≤ y := by
  have := h.neg.le_of_le hz.neg (neg_le_neg hle)
  linarith

theorem nonneg (h : Nearest x y) (hx : 0 ≤ x) : 0 ≤ y := h.ge_of_ge onGrid_zero hx

theorem nonpos (h : Nearest x y) (hx : x ≤ 0) : y ≤ 0 := h.le_of_le onGrid_zero hx

/-- Rounding keeps signs, unless it gives zero. -/
theorem sign_pos (h : Nearest x y) (hy : y ≠ 0) : 0 < x * y := by
  obtain hlt | hgt := hy.lt_or_gt
  · exact mul_pos_of_neg_of_neg (lt_of_not_ge fun hx => hlt.not_ge (h.nonneg hx)) hlt
  · exact mul_pos (lt_of_not_ge fun hx => hgt.not_ge (h.nonpos hx)) hgt

end Nearest

end Geotrack.Binary64
