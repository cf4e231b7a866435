import Geotrack.Proofs.Number.Rounding

/-!
# Rounded arithmetic

The sum, the difference, the product and the quotient of finite numbers in canonical form are their
exact values, rounded: one lemma for each operation, `sub_rounds` and so on.
-/

namespace Geotrack.Binary64

open Float.Model Float.Model.UnpackedFloat

variable {m n : ℕ} {e t : ℤ} {s : Sign} {u v : UnpackedFloat} {x : ℚ}

/-! ### Canonical numbers -/

theorem log2_le_of_canonical {hm : 0 < m} (h : Canonical (.finite s m e hm)) :
    m.log2 ≤ 52 ∧ -1074 ≤ e ∧ (e = -1074 ∨ m.log2 = 52) := by
  simp only [Canonical] at h
  omega

theorem lt_of_canonical {hm : 0 < m} (h : Canonical (.finite s m e hm)) : m < 2 ^ 53 :=
  (Nat.log2_lt hm.ne').mp (Nat.lt_succ_of_le (log2_le_of_canonical h).1)

theorem signFactor_mul_natCast (s : Sign) (m : ℕ) : signFactor s * m = (s.apply m : ℤ) := by
  cases s <;> simp [signFactor, Sign.apply]

theorem Canonical.onGrid (h : Canonical u) : OnGrid (unpackedValue u) := by
  cases u with
  | finite s m e hm =>
    refine ⟨s.apply m, e, ?_, (log2_le_of_canonical h).2.1, ?_⟩
    · have := lt_of_canonical h
      cases s <;> simp only [Sign.apply, abs_neg, Nat.abs_cast] <;> omega
    · rw [unpackedValue, ← mul_assoc, signFactor_mul_natCast]
  | _ => exact onGrid_zero

/-- A number of the grid is its own rounded form. -/
theorem Canonical.rounds (h : Canonical u) (hu : u.isFinite = true) :
    RoundsTo (unpackedValue u) u :=
  ⟨hu, h, .self h.onGrid⟩

theorem signFactor_neg (s : Sign) : signFactor (-s) = -signFactor s := by
  cases s with
  | negative => exact (neg_neg 1).symm
  | positive => rfl

theorem signFactor_mul : ∀ s s' : Sign, signFactor (s * s') = signFactor s * signFactor s'
  | .negative, .negative => (by norm_num : (1 : ℚ) = -1 * -1)
  | .negative, .positive => (mul_one (-1)).symm
  | .positive, .negative => (one_mul (-1)).symm
  | .positive, .positive => (one_mul 1).symm

theorem signFactor_div (s s' : Sign) : signFactor (s / s') = signFactor s / signFactor s' := by
  have : s / s' = s * s' := by cases s <;> cases s' <;> rfl
  rw [this, signFactor_mul, div_eq_mul_inv]
  cases s' <;> norm_num [signFactor]

theorem unpackedValue_neg (u : UnpackedFloat) : unpackedValue u.neg = -unpackedValue u := by
  cases u with
  | finite s m e hm => rw [UnpackedFloat.neg, unpackedValue, unpackedValue, signFactor_neg, neg_mul]
  | _ => exact neg_zero.symm

theorem Canonical.neg (h : Canonical u) : Canonical u.neg := by
  cases u <;> exact h

/-! ### Rounding of mantissas with exponents -/

theorem exact_eq_extended (m : ℕ) :
    ExtendedMantissa.ofMantissaAndAccuracy m .exact = extended m := (extended_natCast m).symm

theorem log2_shiftLeft (hm : m ≠ 0) (n : ℕ) : (m <<< n).log2 = m.log2 + n := by
  rw [Nat.shiftLeft_eq, Nat.log2_eq_iff (by positivity)]
  constructor
  · rw [pow_add]
    exact Nat.mul_le_mul_right _ (Nat.log2_self_le hm)
  · rw [show m.log2 + n + 1 = m.log2 + 1 + n by ring, pow_add]
    exact Nat.mul_lt_mul_of_pos_right Nat.lt_log2_self (by positivity)

theorem decreaseExponent_eq (m : ℕ) (e t : ℤ) :
    decreaseExponent m e t = (m <<< (e - t).toNat, min e t) := by
  simp only [decreaseExponent, Prod.mk.injEq, true_and]
  omega

theorem decreaseExponent_value (m : ℕ) (e t : ℤ) :
    ((m <<< (e - t).toNat : ℕ) : ℚ) * 2 ^ min e t = m * 2 ^ e := by
  rw [Nat.shiftLeft_eq, Nat.cast_mul, mul_assoc]
  obtain h | h := le_total t e
  · rw [min_eq_right h, ← two_zpow_eq h]
  · rw [min_eq_left h, Int.toNat_of_nonpos (by omega), pow_zero, Nat.cast_one, one_mul]

theorem round_rounds (s : Sign) (hm : m ≠ 0) (e : ℤ) :
    RoundsTo (signFactor s * (m * 2 ^ e)) (round .binary64 s m e) := by
  simp only [UnpackedFloat.round, targetExponent_eq, decreaseExponent_eq]
  refine roundWithAccuracy_rounds s (mul_nonneg (Nat.cast_nonneg m) (two_zpow_pos e).le) ?_ ?_
  · rw [exact_eq_extended, ← decreaseExponent_value m e, mul_assoc, ← two_zpow_add, add_neg_cancel,
      zpow_zero, mul_one]
  · rw [log2_shiftLeft hm]
    omega

/-- Rounding of a whole number of units. -/
theorem normalize_rounds (k e : ℤ) (s : Sign) :
    RoundsTo (k * 2 ^ e) (UnpackedFloat.normalize .binary64 k e s) := by
  unfold UnpackedFloat.normalize
  split
  case h_1 h =>
    have hk : k < 0 := Int.compare_eq_lt.mp h
    have := round_rounds .negative (m := (-k).toNat) (by omega) e
    rwa [signFactor, ← mul_assoc, neg_one_mul, ← Int.cast_natCast, Int.toNat_of_nonneg (by omega),
      Int.cast_neg, neg_neg] at this
  case h_2 h =>
    rw [Int.compare_eq_eq.mp h, Int.cast_zero, zero_mul]
    exact ⟨rfl, trivial, .self onGrid_zero⟩
  case h_3 h =>
    have hk : 0 < k := Int.compare_eq_gt.mp h
    have := round_rounds .positive (m := k.toNat) (by omega) e
    rwa [signFactor, one_mul, ← Int.cast_natCast, Int.toNat_of_nonneg hk.le] at this

/-! ### Operations -/

/-- A signed mantissa in smaller units. -/
theorem apply_decreaseExponent (s : Sign) (m : ℕ) (h : t ≤ e) :
    ((s.apply (decreaseExponent m e t).1 : ℤ) : ℚ) * 2 ^ t = signFactor s * (m * 2 ^ e) := by
  have := decreaseExponent_value m e t
  rw [min_eq_right h] at this
  rw [← signFactor_mul_natCast, decreaseExponent_eq, mul_assoc, this]

theorem sub_rounds (hu : Canonical u) (hv : Canonical v) (fu : u.isFinite = true)
    (fv : v.isFinite = true) :
    RoundsTo (unpackedValue u - unpackedValue v) (UnpackedFloat.sub .binary64 u v) := by
  match u, v with
  | .zero s, .zero s' =>
    have hzero : unpackedValue (.zero s) - unpackedValue (.zero s') = 0 := sub_self 0
    rw [hzero, UnpackedFloat.sub]
    split <;> exact ⟨rfl, trivial, .self onGrid_zero⟩
  | .zero s, .finite s' m' e' hm' =>
    have : unpackedValue (.zero s) - unpackedValue (.finite s' m' e' hm') =
      unpackedValue (UnpackedFloat.neg (.finite s' m' e' hm')) := by
      rw [unpackedValue_neg, ← zero_sub]
      rfl
    rw [this]
    exact hv.neg.rounds rfl
  | .finite s m e hm, .zero s' =>
    rw [show unpackedValue (.zero s') = 0 from rfl, sub_zero]
    exact hu.rounds rfl
  | .finite s m e hm, .finite s' m' e' hm' =>
    have := normalize_rounds (s.apply (decreaseExponent m e (min e e')).1 -
      s'.apply (decreaseExponent m' e' (min e e')).1) (min e e') .positive
    rwa [Int.cast_sub, sub_mul, apply_decreaseExponent s m (min_le_left e e'),
      apply_decreaseExponent s' m' (min_le_right e e')] at this

/-- The product of canonical mantissas is not in units too large for it. -/
theorem exponent_add_le {s' : Sign} {hm : 0 < m} {hn : 0 < n}
    (h : Canonical (.finite s m e hm)) (h' : Canonical (.finite s' n t hn)) :
    e + t ≤ max ((m * n).log2 + (e + t) - 52) (-1074) := by
  obtain ⟨-, he, hfull⟩ := log2_le_of_canonical h
  obtain ⟨-, ht, hfull'⟩ := log2_le_of_canonical h'
  have hmn : m * n ≠ 0 := (Nat.mul_pos hm hn).ne'
  have left : m.log2 ≤ (m * n).log2 :=
    (Nat.le_log2 hmn).mpr ((Nat.log2_self_le hm.ne').trans (Nat.le_mul_of_pos_right m hn))
  have right : n.log2 ≤ (m * n).log2 :=
    (Nat.le_log2 hmn).mpr ((Nat.log2_self_le hn.ne').trans (Nat.le_mul_of_pos_left n hm))
  omega

theorem mul_rounds (hu : Canonical u) (hv : Canonical v) (fu : u.isFinite = true)
    (fv : v.isFinite = true) :
    RoundsTo (unpackedValue u * unpackedValue v) (UnpackedFloat.mul .binary64 u v) := by
  match u, v with
  | .zero s, .zero s' | .zero s, .finite s' m' e' hm' | .finite s m e hm, .zero s' =>
    simp only [unpackedValue, mul_zero, zero_mul]
    exact ⟨rfl, trivial, .self onGrid_zero⟩
  | .finite s m e hm, .finite s' m' e' hm' =>
    have value : unpackedValue (.finite s m e hm) * unpackedValue (.finite s' m' e' hm') =
        signFactor (s * s') * ((m * m' : ℕ) * 2 ^ (e + e')) := by
      rw [unpackedValue, unpackedValue, signFactor_mul, Nat.cast_mul, two_zpow_add]
      ring
    rw [value]
    refine roundWithAccuracy_rounds _ (by positivity) ?_ (exponent_add_le hu hv)
    rw [exact_eq_extended, mul_assoc, ← two_zpow_add, add_neg_cancel, zpow_zero, mul_one]

/-! ### Quotients -/

theorem extended_div (m : ℕ) (hn : 0 < n) : extended (m / n : ℚ) =
    ⟨m / n, n ≤ 2 * (m % n), m % n ≠ 0 ∧ 2 * (m % n) ≠ n⟩ := by
  have hn0 : (n : ℚ) ≠ 0 := Nat.cast_ne_zero.mpr hn.ne'
  have floor : ⌊(m / n : ℚ)⌋₊ = m / n := Nat.floor_div_eq_div m n
  have floor2 : ⌊2 * (m / n : ℚ)⌋₊ = 2 * m / n := by
    rw [← mul_div_assoc, ← Nat.floor_div_eq_div (K := ℚ) (2 * m) n, Nat.cast_mul, Nat.cast_ofNat]
  have twice : 2 * m = n * (2 * (m / n)) + 2 * (m % n) := by
    calc 2 * m = 2 * (n * (m / n) + m % n) := by rw [Nat.div_add_mod]
      _ = _ := by ring
  have quotient : 2 * m / n = 2 * (m / n) + if n ≤ 2 * (m % n) then 1 else 0 := by
    have := Nat.mod_lt m hn
    conv_lhs => rw [twice, Nat.mul_add_div hn]
    congr 1
    split
    · rw [Nat.div_eq_iff hn]
      omega
    · exact Nat.div_eq_of_lt (by omega)
  have whole : ((2 * m / n : ℕ) : ℚ) = 2 * (m / n) ↔ n * (2 * m / n) = 2 * m := by
    rw [← mul_div_assoc, eq_div_iff hn0, mul_comm]
    exact_mod_cast Iff.rfl
  simp only [extended, floor, floor2, ExtendedMantissa.mk.injEq, true_and, decide_eq_decide, ne_eq,
    whole]
  have := Nat.mod_lt m hn
  rw [quotient]
  split
  · refine ⟨by omega, ?_⟩
    rw [mul_add, mul_one, twice]
    omega
  · refine ⟨by omega, ?_⟩
    rw [add_zero, twice]
    omega

/-- The whole part of a quotient together with what is known of its remainder. -/
theorem fraction_eq_extended (m : ℕ) (hn : 0 < n) :
    ExtendedMantissa.ofMantissaAndAccuracy (m / n) (accuracyOfFraction (m % n) n) =
      extended (m / n : ℚ) := by
  rw [extended_div m hn, accuracyOfFraction]
  generalize m % n = r
  split
  case isTrue hr => simp [hr, ExtendedMantissa.ofMantissaAndAccuracy, hn.ne']
  case isFalse hr =>
    rcases Nat.lt_trichotomy (2 * r) n with h | h | h
    · simp [Nat.compare_eq_lt.mpr h, ExtendedMantissa.ofMantissaAndAccuracy, hr, h, h.ne]
    · simp [ExtendedMantissa.ofMantissaAndAccuracy, h]
    · simp [Nat.compare_eq_gt.mpr h, ExtendedMantissa.ofMantissaAndAccuracy, hr, h.le, h.ne']

/-- A quotient has all digits of the grid unless its last one is below the smallest unit. -/
theorem quotient_exponent_le {k : ℕ} (hm : m ≠ 0) (hn : n ≠ 0)
    (ht : t ≤ -1074 ∨ n.log2 + 53 ≤ m.log2 + k) :
    t ≤ max ((m <<< k / n).log2 + t - 52) (-1074) := by
  obtain ht | ht := ht
  · omega
  have large : 2 ^ 52 ≤ m <<< k / n := by
    rw [Nat.le_div_iff_mul_le (Nat.pos_of_ne_zero hn), Nat.shiftLeft_eq]
    calc 2 ^ 52 * n ≤ 2 ^ 52 * 2 ^ (n.log2 + 1) := Nat.mul_le_mul_left _ Nat.lt_log2_self.le
      _ = 2 ^ (n.log2 + 53) := by rw [← pow_add]; congr 1; omega
      _ ≤ 2 ^ (m.log2 + k) := Nat.pow_le_pow_right two_pos ht
      _ = 2 ^ m.log2 * 2 ^ k := pow_add _ _ _
      _ ≤ m * 2 ^ k := Nat.mul_le_mul_right _ (Nat.log2_self_le hm)
  have := (Nat.le_log2 (by omega)).mpr large
  omega

theorem div_rounds (hu : Canonical u) (hv : Canonical v) (fu : u.isFinite = true)
    (fv : v.isFinite = true) (hv0 : unpackedValue v ≠ 0) :
    RoundsTo (unpackedValue u / unpackedValue v) (UnpackedFloat.div .binary64 u v) := by
  match u, v with
  | u, .zero s' => exact absurd rfl hv0
  | .zero s, .finite s' m' e' hm' =>
    rw [show unpackedValue (.zero s) = 0 from rfl, zero_div]
    exact ⟨rfl, trivial, .self onGrid_zero⟩
  | .finite s m e hm, .finite s' m' e' hm' =>
    obtain ⟨t, ht⟩ : ∃ t, t = min (e - e')
      (Format.binary64.targetExponent (totalExponent m e - totalExponent m' e')) := ⟨_, rfl⟩
    have value : unpackedValue (.finite s m e hm) / unpackedValue (.finite s' m' e' hm') =
        signFactor (s / s') * ((m * 2 ^ e) / (m' * 2 ^ e')) := by
      rw [unpackedValue, unpackedValue, signFactor_div, mul_div_mul_comm]
    have units : (m * 2 ^ e : ℚ) / (m' * 2 ^ e') * 2 ^ (-t) =
        ((m <<< (e - e' - t).toNat : ℕ) : ℚ) / m' := by
      have : (2 : ℚ) ^ e = 2 ^ (e - e' - t).toNat * 2 ^ t * 2 ^ e' := by
        rw [← zpow_natCast, ← two_zpow_add, ← two_zpow_add]
        congr 1
        omega
      have := two_zpow_pos t
      have := two_zpow_pos e'
      rw [Nat.shiftLeft_eq, zpow_neg, ‹(2 : ℚ) ^ e = _›]
      push_cast
      field_simp
    rw [value]
    change RoundsTo _ (roundWithAccuracy .binary64 (s / s') _ _ _)
    rw [← ht]
    refine roundWithAccuracy_rounds _ (by positivity) ?_ ?_
    · rw [units, fraction_eq_extended _ hm']
    · refine quotient_exponent_le hm.ne' hm'.ne' ?_
      simp only [Format.targetExponent, totalExponent, Format.mantissaBits,
        Format.minExponent] at ht
      norm_num at ht
      omega

end Geotrack.Binary64
