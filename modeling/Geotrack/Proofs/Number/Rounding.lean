import Mathlib
import Geotrack.Number.Scaled
import Geotrack.Proofs.Number.Grid

/-!
# Rounding of mantissas

A mantissa with its round bit and its sticky bit stands for a number that need not be whole:
`extended q` are the three for the number `q`, and a shift halves `q`. So rounding a mantissa gives
a nearest whole number, and rounding a mantissa and an exponent a nearest number of the grid in
canonical form: `roundWithAccuracy_rounds`.
-/

namespace Geotrack.Binary64

open Float.Model Float.Model.UnpackedFloat

/-! ### Extended mantissas -/

/-- The whole part of a number, whether its first binary place is one, and whether any later one
is. -/
def extended (q : ℚ) : ExtendedMantissa :=
  ⟨⌊q⌋₊, ⌊2 * q⌋₊ % 2 = 1, (⌊2 * q⌋₊ : ℚ) ≠ 2 * q⟩

variable {q : ℚ}

theorem extended_natCast (n : ℕ) : extended n = ⟨n, false, false⟩ := by
  have : ⌊2 * (n : ℚ)⌋₊ = 2 * n := by exact_mod_cast Nat.floor_natCast (R := ℚ) (2 * n)
  simp [extended, this]

theorem floor_two_mul (q : ℚ) : ⌊2 * q⌋₊ / 2 = ⌊q⌋₊ := by
  have := Nat.floor_div_natCast (2 * q) 2
  rw [Nat.cast_ofNat, mul_div_cancel_left₀ q two_ne_zero] at this
  exact this.symm

theorem shiftRightOne_extended (q : ℚ) :
    (extended q).shiftRightOne = extended (q / 2) := by
  have half : ⌊q / 2⌋₊ = ⌊q⌋₊ / 2 := by exact_mod_cast Nat.floor_div_natCast q 2
  have whole := floor_two_mul q
  have double : 2 * (q / 2) = q := mul_div_cancel₀ q two_ne_zero
  simp only [extended, ExtendedMantissa.shiftRightOne, double, half, ExtendedMantissa.mk.injEq]
  refine ⟨trivial, ?_, ?_⟩
  · rcases Nat.mod_two_eq_zero_or_one ⌊q⌋₊ with h | h <;> simp [h]
  · -- `q` is whole exactly when `2 * q` is whole and even
    rw [← Bool.decide_or, decide_eq_decide]
    have := Nat.div_add_mod ⌊2 * q⌋₊ 2
    constructor
    · rintro h hwhole
      have hcast : 2 * q = (2 * ⌊q⌋₊ : ℕ) := by rw [Nat.cast_mul, hwhole, Nat.cast_ofNat]
      have hdouble : ⌊2 * q⌋₊ = 2 * ⌊q⌋₊ := by rw [hcast, Nat.floor_natCast]
      rcases h with h | h
      · omega
      · exact h (by rw [hdouble, ← hcast])
    · intro hwhole
      by_contra hnot
      simp only [not_or, ne_eq, not_not] at hnot
      refine hwhole ?_
      have : ⌊2 * q⌋₊ = 2 * ⌊q⌋₊ := by omega
      have h2 := hnot.2
      rw [this] at h2
      push_cast at h2
      linarith

theorem shiftRight_extended (q : ℚ) (n : ℕ) :
    extended q >>> n = extended (q / 2 ^ n) := by
  change n.repeat ExtendedMantissa.shiftRightOne (extended q) = _
  induction n with
  | zero => simp [Nat.repeat]
  | succ n ih =>
    rw [Nat.repeat, ih, shiftRightOne_extended, div_div, pow_succ]

/-- A number is rounded down where its first binary place is zero, to an even number where nothing
follows that place, and else up. -/
theorem roundedMantissa_eq : (extended q).roundedMantissa =
    if ⌊2 * q⌋₊ % 2 = 0 then ⌊q⌋₊
    else if (⌊2 * q⌋₊ : ℚ) = 2 * q then ⌊q⌋₊ + ⌊q⌋₊ % 2 else ⌊q⌋₊ + 1 := by
  rcases Nat.mod_two_eq_zero_or_one ⌊2 * q⌋₊ with h | h <;>
    by_cases hs : ((⌊2 * q⌋₊ : ℕ) : ℚ) = 2 * q <;>
    simp [extended, h, hs, ExtendedMantissa.roundedMantissa, ExtendedMantissa.accuracy,
      Accuracy.roundToNearestEven]

theorem roundedMantissa_extended (hq : 0 ≤ q) : |q - (extended q).roundedMantissa| ≤ 1 / 2 := by
  have lower := Nat.floor_le hq
  have upper := Nat.lt_floor_add_one q
  have lower2 := Nat.floor_le (show (0 : ℚ) ≤ 2 * q by linarith)
  have upper2 := Nat.lt_floor_add_one (2 * q)
  have whole := floor_two_mul q
  rw [roundedMantissa_eq, abs_le]
  split
  case isTrue even =>
    have double : ⌊2 * q⌋₊ = 2 * ⌊q⌋₊ := by omega
    rw [double, Nat.cast_mul, Nat.cast_ofNat] at upper2
    constructor <;> linarith
  case isFalse odd =>
    have double : ⌊2 * q⌋₊ = 2 * ⌊q⌋₊ + 1 := by omega
    rw [double, Nat.cast_add, Nat.cast_mul, Nat.cast_ofNat, Nat.cast_one] at lower2
    split
    case isTrue half =>
      rw [double, Nat.cast_add, Nat.cast_mul, Nat.cast_ofNat, Nat.cast_one] at half
      have nonneg : (0 : ℚ) ≤ ((⌊q⌋₊ % 2 : ℕ) : ℚ) := Nat.cast_nonneg _
      have parity : ((⌊q⌋₊ % 2 : ℕ) : ℚ) ≤ 1 := by
        exact_mod_cast Nat.lt_succ_iff.mp (Nat.mod_lt _ two_pos)
      rw [Nat.cast_add]
      constructor <;> linarith
    case isFalse =>
      rw [Nat.cast_add, Nat.cast_one]
      constructor <;> linarith

/-! ### Rounding -/

/-- The exponent of the last digit of `m * 2 ^ e` on the grid. -/
theorem targetExponent_eq (m : ℕ) (e : ℤ) :
    Format.binary64.targetExponent (totalExponent m e) = max (m.log2 + e - 52) (-1074) := by
  simp only [Format.targetExponent, totalExponent, Format.mantissaBits, Format.minExponent]
  norm_num
  congr 1
  omega

theorem shiftToTargetExponent_eq {m : ℕ} {e t : ℤ} {accuracy : Accuracy}
    (ht : t = max (m.log2 + e - 52) (-1074)) (he : e ≤ t)
    (hq : ExtendedMantissa.ofMantissaAndAccuracy m accuracy = extended q) :
    shiftToTargetExponent .binary64 m e accuracy = (extended (q * 2 ^ (e - t)), t) := by
  have shift : e + ((t - e).toNat : ℤ) = t := by omega
  simp only [shiftToTargetExponent, shiftToExponent, targetExponent_eq, ← ht, hq, shift,
    shiftRight_extended]
  congr 2
  rw [div_eq_mul_inv, ← zpow_natCast, ← zpow_neg]
  congr 2
  omega

/-- A finite number in the form that the format asks for: the exponent is that of the last digit on
the grid. Numbers other than finite ones have but one form. -/
def Canonical : UnpackedFloat → Prop
  | .finite _ m e _ => e = max (m.log2 + e - 52) (-1074)
  | _ => True

/-- The sign of a number, as a factor. -/
def signFactor : Sign → ℚ
  | .negative => -1
  | .positive => 1

/-- The value of a finite number; zero for the others. -/
def unpackedValue : UnpackedFloat → ℚ
  | .finite s m e _ => signFactor s * (m * 2 ^ e)
  | _ => 0

/-- Whether a number is the rounded form of `x`, where no exponent is too large. -/
structure RoundsTo (x : ℚ) (u : UnpackedFloat) : Prop where
  isFinite : u.isFinite = true
  canonical : Canonical u
  nearest : Nearest x (unpackedValue u)

theorem Nearest.signFactor_mul {x y : ℚ} (h : Nearest x y) (s : Sign) :
    Nearest (signFactor s * x) (signFactor s * y) := by
  cases s with
  | negative => simpa [signFactor] using h.neg
  | positive => simpa [signFactor] using h

/-- A mantissa that rounding has carried to `2 ^ 53` is shifted once more, any other not. -/
theorem carry {r : ℕ} {t : ℤ} (hr : r ≤ 2 ^ 53) (ht : -1074 ≤ t) (hfull : t = -1074 ∨ 2 ^ 52 ≤ r) :
    ∃ (m : ℕ) (e : ℤ), shiftToTargetExponent .binary64 r t .exact = (extended m, e) ∧
      (m : ℚ) * 2 ^ e = r * 2 ^ t ∧ (m ≠ 0 → e = max (m.log2 + e - 52) (-1074)) := by
  have exact : ExtendedMantissa.ofMantissaAndAccuracy r .exact = extended r :=
    (extended_natCast r).symm
  obtain rfl | hlt := hr.eq_or_lt
  · have hlog : (2 ^ 53).log2 = 53 := Nat.log2_two_pow
    refine ⟨2 ^ 52, t + 1, ?_, ?_, fun _ => ?_⟩
    · rw [shiftToTargetExponent_eq (t := t + 1) (by omega) (by omega) exact]
      norm_num
    · rw [two_zpow_add]
      push_cast
      ring
    · rw [Nat.log2_two_pow]
      omega
  · have hlog : r ≠ 0 → r.log2 ≤ 52 := fun h => Nat.lt_succ_iff.mp ((Nat.log2_lt h).mpr hlt)
    have hlog0 : (0 : ℕ).log2 = 0 := rfl
    have htarget : t = max (r.log2 + t - 52) (-1074) := by
      obtain rfl | hr0 := eq_or_ne r 0
      · rw [hlog0]
        omega
      · have := hlog hr0
        have : 2 ^ 52 ≤ r → 52 ≤ r.log2 := (Nat.le_log2 hr0).mpr
        omega
    refine ⟨r, t, ?_, rfl, fun _ => htarget⟩
    rw [shiftToTargetExponent_eq htarget le_rfl exact]
    simp

theorem units_mul (x : ℚ) (t : ℤ) : x * 2 ^ (-t) * 2 ^ t = x := by
  rw [mul_assoc, ← two_zpow_add, neg_add_cancel, zpow_zero, mul_one]

theorem units_nonneg {x : ℚ} (hx : 0 ≤ x) (t : ℤ) : 0 ≤ x * 2 ^ (-t) :=
  mul_nonneg hx (two_zpow_pos _).le

section Accuracy

variable {m : ℕ} {e t : ℤ} {accuracy : Accuracy} {x : ℚ}

theorem mantissa_eq_floor
    (hq : ExtendedMantissa.ofMantissaAndAccuracy m accuracy = extended q) : m = ⌊q⌋₊ := by
  have := congrArg ExtendedMantissa.mantissa hq
  cases accuracy with
  | exact => exact this
  | inexact o => cases o <;> exact this

/-- The whole part of a number in small units bounds it from above in the units of the grid. -/
theorem units_lt (hm : m = ⌊x * 2 ^ (-e)⌋₊) (ht : m.log2 + e - 52 ≤ t) :
    x * 2 ^ (-t) < 2 ^ 53 := by
  have below : x * 2 ^ (-e) < 2 ^ (m.log2 + 1) :=
    calc x * 2 ^ (-e) < m + 1 := hm ▸ Nat.lt_floor_add_one _
      _ ≤ 2 ^ (m.log2 + 1) := by exact_mod_cast Nat.lt_log2_self
  refine lt_of_mul_lt_mul_right ?_ (two_zpow_pos t).le
  calc x * 2 ^ (-t) * 2 ^ t = x * 2 ^ (-e) * 2 ^ e := by rw [units_mul, units_mul]
    _ < 2 ^ (m.log2 + 1) * 2 ^ e := by gcongr
    _ = 2 ^ (m.log2 + 1 + e : ℤ) := by rw [two_zpow_add, ← Nat.cast_succ, zpow_natCast]
    _ ≤ 2 ^ (53 + t) := two_zpow_mono (by omega)
    _ = 2 ^ 53 * 2 ^ t := by rw [two_zpow_add]; norm_num

/-- It also bounds it from below, unless the units are the smallest ones. -/
theorem units_ge (hx : 0 ≤ x) (hm : m = ⌊x * 2 ^ (-e)⌋₊) (hm0 : m ≠ 0)
    (ht : t = m.log2 + e - 52) : 2 ^ 52 ≤ x * 2 ^ (-t) := by
  refine le_of_mul_le_mul_right ?_ (two_zpow_pos t)
  calc (2 : ℚ) ^ 52 * 2 ^ t = 2 ^ (52 + t) := by rw [two_zpow_add]; norm_num
    _ = 2 ^ m.log2 * 2 ^ e := by
      rw [← zpow_natCast, ← two_zpow_add]
      congr 1
      omega
    _ ≤ m * 2 ^ e := by
      gcongr
      exact_mod_cast Nat.log2_self_le hm0
    _ ≤ x * 2 ^ (-e) * 2 ^ e := by
      gcongr
      exact hm ▸ Nat.floor_le (units_nonneg hx e)
    _ = x * 2 ^ (-t) * 2 ^ t := by rw [units_mul, units_mul]

/-- A whole number of units of the grid that is off by half a unit at most is a nearest number. -/
theorem nearest_of_half {r : ℕ} (half : |x * 2 ^ (-t) - r| ≤ 1 / 2) (hr : r ≤ 2 ^ 53)
    (ht : -1074 ≤ t) (lower : t = -1074 ∨ 2 ^ 52 ≤ x * 2 ^ (-t)) : Nearest x (r * 2 ^ t) := by
  have := Nearest.of_units (x := x) (k := r) (by rw [Nat.abs_cast]; exact_mod_cast hr) ht ?_ ?_
  · exact_mod_cast this
  · refine lower.imp_right fun h => ?_
    calc (2 : ℚ) ^ (t + 52) = 2 ^ 52 * 2 ^ t := by rw [two_zpow_add, mul_comm]; norm_num
      _ ≤ x * 2 ^ (-t) * 2 ^ t := by gcongr
      _ = x := units_mul x t
  · calc |x - (r : ℤ) * 2 ^ t| = |x * 2 ^ (-t) - r| * 2 ^ t := by
          rw [← abs_of_pos (two_zpow_pos t), ← abs_mul, sub_mul, abs_of_pos (two_zpow_pos t),
            units_mul, Int.cast_natCast]
      _ ≤ 1 / 2 * 2 ^ t := by gcongr
      _ = 2 ^ t / 2 := by ring

/-- Rounding gives a nearest number of the grid in canonical form. -/
theorem roundWithAccuracy_rounds (s : Sign) (hx : 0 ≤ x)
    (hq : ExtendedMantissa.ofMantissaAndAccuracy m accuracy = extended (x * 2 ^ (-e)))
    (he : e ≤ max (m.log2 + e - 52) (-1074)) :
    RoundsTo (signFactor s * x) (roundWithAccuracy .binary64 s m e accuracy) := by
  obtain ⟨t, ht⟩ : ∃ t, t = max (m.log2 + e - 52 : ℤ) (-1074) := ⟨_, rfl⟩
  rw [← ht] at he
  have hm := mantissa_eq_floor hq
  have upper : x * 2 ^ (-t) < 2 ^ 53 := units_lt hm (by omega)
  have lower : t = -1074 ∨ 2 ^ 52 ≤ x * 2 ^ (-t) := by
    refine or_iff_not_imp_left.mpr fun hmin => units_ge hx hm ?_ (by omega)
    rintro rfl
    rw [Nat.log2_zero] at ht
    omega
  obtain ⟨r, hr⟩ : ∃ r, r = (extended (x * 2 ^ (-t))).roundedMantissa := ⟨_, rfl⟩
  have half : |x * 2 ^ (-t) - r| ≤ 1 / 2 := hr ▸ roundedMantissa_extended (units_nonneg hx t)
  obtain ⟨below, above⟩ := abs_le.mp half
  have hrle : r ≤ 2 ^ 53 := by
    have : (r : ℚ) < 2 ^ 53 + 1 := by linarith
    exact Nat.lt_succ_iff.mp (by exact_mod_cast this)
  have hrge : t = -1074 ∨ 2 ^ 52 ≤ r := by
    refine lower.imp_right fun h => ?_
    have : (2 : ℚ) ^ 52 < r + 1 := by linarith
    exact Nat.lt_succ_iff.mp (by exact_mod_cast this)
  have nearest : Nearest x (r * 2 ^ t) := nearest_of_half half hrle (by omega) lower
  obtain ⟨m', e', hshift, hvalue, hcanonical⟩ := carry hrle (by omega) hrge
  have first : shiftToTargetExponent .binary64 m e accuracy = (extended (x * 2 ^ (-t)), t) := by
    rw [shiftToTargetExponent_eq ht he hq, mul_assoc, ← two_zpow_add,
      show -e + (e - t) = -t by ring]
  have result : roundWithAccuracy .binary64 s m e accuracy =
      if h : m' = 0 then .zero s else .finite s m' e' (Nat.pos_of_ne_zero h) := by
    simp only [roundWithAccuracy, first, ← hr, hshift, extended_natCast]
  rw [← hvalue] at nearest
  rw [result]
  split
  case isTrue h =>
    refine ⟨rfl, trivial, ?_⟩
    rw [h, Nat.cast_zero, zero_mul] at nearest
    simpa [unpackedValue] using nearest.signFactor_mul s
  case isFalse h => exact ⟨rfl, hcanonical h, nearest.signFactor_mul s⟩

end Accuracy

end Geotrack.Binary64
