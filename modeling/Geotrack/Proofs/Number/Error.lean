import Mathlib.Algebra.Order.Round
import Mathlib.Data.Int.Log
import Geotrack.Proofs.Number.Monotone

/-!
# Errors of rounding

A nearest number of the grid is off by at most half the worth of the last digit: `abs_sub_le`. So it
is off by at most one part in `2 ^ 53` of a number that has all its digits, and a count that 64 bits
hold is off by at most 512 as a float.
-/

namespace Geotrack.Binary64

open Float.Model
open Float.Model.UnpackedFloat (Sign)

variable {x y : ℚ} {t k : ℤ} {f g : Float}

/-! ### Nearest numbers -/

/-- Some number of the grid is within half a unit of a number that 53 digits of units reach. -/
theorem exists_onGrid (ht : -1074 ≤ t) (hx : |x| ≤ 2 ^ (t + 53)) :
    ∃ z, OnGrid z ∧ |x - z| ≤ 2 ^ t / 2 := by
  have unit := two_zpow_pos t
  have near := abs_sub_round (x / 2 ^ t)
  have digits : |round (x / 2 ^ t)| ≤ 2 ^ 53 := by
    have hle : |x / 2 ^ t| ≤ 2 ^ 53 := by
      rw [abs_div, abs_of_pos unit, div_le_iff₀ unit]
      exact hx.trans_eq (by rw [two_zpow_add, mul_comm]; norm_num)
    have apart := abs_sub_abs_le_abs_sub ((round (x / 2 ^ t) : ℤ) : ℚ) (x / 2 ^ t)
    rw [abs_sub_comm] at apart
    have hlt : |((round (x / 2 ^ t) : ℤ) : ℚ)| < 2 ^ 53 + 1 := by linarith
    exact Int.lt_add_one_iff.mp (by exact_mod_cast hlt)
  refine ⟨round (x / 2 ^ t) * 2 ^ t, ⟨_, t, digits, ht, rfl⟩, ?_⟩
  calc |x - round (x / 2 ^ t) * 2 ^ t| = |x / 2 ^ t - round (x / 2 ^ t)| * 2 ^ t := by
        rw [← abs_of_pos unit, ← abs_mul, sub_mul, abs_of_pos unit, div_mul_cancel₀ x unit.ne']
    _ ≤ 1 / 2 * 2 ^ t := by gcongr
    _ = 2 ^ t / 2 := by ring

namespace Nearest

theorem abs_sub_le (h : Nearest x y) (ht : -1074 ≤ t) (hx : |x| ≤ 2 ^ (t + 53)) :
    |x - y| ≤ 2 ^ t / 2 := by
  obtain ⟨z, hz, hle⟩ := exists_onGrid ht hx
  exact (h.least z hz).trans hle

/-- A number that is not too small for 53 digits is rounded by at most one part in `2 ^ 53`. -/
theorem abs_sub_le_part (h : Nearest x y) (hx : (2 : ℚ) ^ (-1022 : ℤ) ≤ |x|) :
    |x - y| ≤ |x| / 2 ^ 53 := by
  have hpos : 0 < |x| := (two_zpow_pos _).trans_le hx
  have lower : (2 : ℚ) ^ Int.log 2 |x| ≤ |x| := by
    exact_mod_cast Int.zpow_log_le_self (b := 2) one_lt_two hpos
  have upper : |x| < 2 ^ (Int.log 2 |x| + 1) := by
    exact_mod_cast Int.lt_zpow_succ_log_self (b := 2) one_lt_two |x|
  have hlog : -1022 ≤ Int.log 2 |x| := by
    rw [← Int.zpow_le_iff_le_log one_lt_two hpos]
    exact_mod_cast hx
  calc |x - y| ≤ 2 ^ (Int.log 2 |x| - 52) / 2 :=
        h.abs_sub_le (by omega) (upper.le.trans_eq (by congr 1; omega))
    _ = 2 ^ Int.log 2 |x| / 2 ^ 53 := by
      rw [sub_eq_add_neg, two_zpow_add]
      norm_num
      ring
    _ ≤ |x| / 2 ^ 53 := by gcongr

end Nearest

/-! ### Floats -/

theorem float_mul_comm (a b : Float) : a * b = b * a := by
  have signs : ∀ s s' : Sign, s * s' = s' * s := by rintro (_ | _) (_ | _) <;> rfl
  have unpacked (u v : UnpackedFloat) :
      UnpackedFloat.mul .binary64 u v = UnpackedFloat.mul .binary64 v u := by
    cases u <;> cases v <;> simp only [UnpackedFloat.mul, signs, Nat.mul_comm, Int.add_comm]
  exact congrArg (fun u => Float.ofModel (Float.Model.pack u)) (unpacked _ _)

/-- What lies between finite floats is finite. -/
theorem finite_of_between {a b : Float} (ha : finite a = true) (hb : finite b = true) (low : a ≤ f)
    (high : f ≤ b) : finite f = true := by
  rw [finite_iff] at *
  rw [le_iff_compare] at low high
  generalize a.toModel.unpack = u at *
  generalize b.toModel.unpack = v at *
  cases hf : f.toModel.unpack with
  | zero s => rfl
  | finite s m e hm => rfl
  | notANumber =>
    rw [hf] at low
    cases u <;> simp [UnpackedFloat.compare] at low
  | infinity s =>
    rw [hf] at low high
    cases s with
    | positive => cases v <;> simp_all [UnpackedFloat.compare, UnpackedFloat.isFinite]
    | negative => cases u <;> simp_all [UnpackedFloat.compare, UnpackedFloat.isFinite]

/-! ### Counts -/

/-- A count that 64 bits hold is at most 512 less than its float. -/
theorem value_ofInt_le (h0 : 0 ≤ k) (hk : k ≤ 2 ^ 63) :
    value (Float.ofInt k) ≤ k + 512 := by
  obtain ⟨n, rfl⟩ := Int.eq_ofNat_of_zero_le h0
  have near := (ofNat_rounded n).nearest ((ofNat_rounded n).finite_of_natCast (by omega))
  have hle : |(n : ℚ)| ≤ 2 ^ ((10 : ℤ) + 53) := by
    rw [Nat.abs_cast]
    exact_mod_cast hk
  have := near.abs_sub_le (by norm_num) hle
  have := (abs_le.mp this).1
  norm_num at this
  change value (Float.ofNat n) ≤ _
  push_cast
  linarith

/-- A count of 53 binary digits is a float. -/
theorem value_ofInt_eq (h0 : 0 ≤ k) (hk : k ≤ 2 ^ 53) : value (Float.ofInt k) = k := by
  obtain ⟨n, rfl⟩ := Int.eq_ofNat_of_zero_le h0
  have near := (ofNat_rounded n).nearest ((ofNat_rounded n).finite_of_natCast (by omega))
  exact near.eq_of_onGrid (onGrid_natCast (by omega))

theorem scalar_ofInt_natCast {n : ℕ} (hn : n ≤ 2 ^ 53) :
    finite (Scalar.ofInt n : Float) = true ∧ value (Scalar.ofInt n : Float) = n := by
  refine ⟨(ofInt_nonneg (Int.natCast_nonneg n) (by omega)).1, ?_⟩
  exact_mod_cast value_ofInt_eq (Int.natCast_nonneg n) (by omega)

/-! ### Rounding to whole numbers -/

theorem roundInt64_le (hf : finite f = true) (hk : 0 ≤ k) (h : value f ≤ k) :
    roundInt64 f ≤ k := by
  obtain ⟨r, hr⟩ := Option.isSome_iff_exists.mp hf
  have whole : r.roundHalfAway ≤ k := by
    rw [r.roundHalfAway_eq, ofFloat?_value hr]
    split
    · exact Int.lt_add_one_iff.mp (Int.floor_lt.mpr (by push_cast; linarith))
    · exact Int.ceil_le.mpr (by linarith)
  rw [roundInt64_eq hr]
  exact max_le (le_trans (by decide) hk) ((min_le_left _ _).trans whole)

/-- A float of a 64-bit range is rounded up exactly. -/
theorem ceilNat_eq (hf : finite f = true) (h : value f ≤ 2 ^ 63) : ceilNat f = ⌈value f⌉₊ := by
  obtain ⟨r, hr⟩ := Option.isSome_iff_exists.mp hf
  have small : ⌈value f⌉₊ ≤ 2 ^ 63 := Nat.ceil_le.mpr (by exact_mod_cast h)
  rw [ceilNat, hr]
  dsimp only
  rw [r.ceil_eq, ofFloat?_value hr, Int.ceil_toNat, min_eq_left]
  exact small.trans (by decide)

theorem roundInt64_congr (hf : finite f = true) (hg : finite g = true) (h : value f = value g) :
    roundInt64 f = roundInt64 g :=
  le_antisymm (roundInt64_mono hf hg h.le) (roundInt64_mono hg hf h.ge)

end Geotrack.Binary64
