import Geotrack.Geodesy.Along
import Geotrack.Proofs.Number.Monotone

/-!
# Order along a segment

A larger distance makes a larger fraction of the way, and a larger fraction a later time, as long as
the segment does not take negative time.
-/

namespace Geotrack

open Binary64

/-! ### Instants -/

namespace Instant

variable {t a b : Instant} {m n : ℤ}

theorem ofNanos_mono (h : m ≤ n) : ofNanos m ≤ ofNanos n := by
  simp only [le_def, ofNanos, nanosPerSecond]
  omega

/-- An instant moved further is later. -/
theorem shift_mono (h0 : 0 ≤ m) (h : m ≤ n) : t.shift m ≤ t.shift n := by
  unfold shift
  split
  case isFalse => exact ofNanos_mono (by omega)
  case isTrue hleap =>
    have hnano : 1000000000 ≤ t.nano := of_decide_eq_true hleap
    have hlt := t.nano_lt
    simp only [Int.tdiv_eq_ediv_of_nonneg h0, Int.tdiv_eq_ediv_of_nonneg (h0.trans h),
      Int.tmod_eq_emod_of_nonneg h0, Int.tmod_eq_emod_of_nonneg (h0.trans h), nanosPerSecond]
    -- a step stays in the leap second as long as it does not fill it up
    split
    case isTrue hm =>
      rw [if_pos (by omega)]
      exact ofNanos_mono (by omega)
    case isFalse hm =>
      rw [if_neg (by omega)]
      split
      case isTrue hn =>
        simp only [le_def, ofNanos, toNanos, nanosPerSecond]
        omega
      case isFalse hn =>
        rw [if_neg (by omega)]
        refine .inr ⟨rfl, ?_⟩
        dsimp only
        omega

/-- Only a start in a leap second can make the time to a later instant negative. -/
theorem since_nonneg (h : a ≤ b) (regular : a.inLeapSecond = false) : 0 ≤ b.since a := by
  have hnano : a.nano < 1000000000 := by simpa [inLeapSecond] using regular
  rw [le_def] at h
  have passed : b.passedLeap a = 0 ∨
      b.passedLeap a = -1 ∧ b.second % 86400 < a.second % 86400 ∧ 1000000000 ≤ b.nano := by
    simp only [passedLeap, regular, secondsPerDay]
    by_cases hleap : b.second % 86400 < a.second % 86400 ∧ b.inLeapSecond
    · exact .inr ⟨by simp [hleap], hleap.1, of_decide_eq_true hleap.2⟩
    · exact .inl (by simp [hleap])
  simp only [since, nanosPerSecond]
  omega

end Instant

/-! ### Fractions and times -/

variable {p q start : Point Float} {length f g : Float} {a b : Instant}

/-- Points in the order of their distances are in the order of their fractions. -/
theorem fractionAlong_mono
    (h : Scalar.sortKeyLe (distanceMeters start p) (distanceMeters start q) = true)
    (hp : finite (fractionAlong start p length) = true)
    (hq : finite (fractionAlong start q length) = true) :
    value (fractionAlong start p length) ≤ value (fractionAlong start q length) := by
  unfold fractionAlong at *
  split
  case isTrue => exact le_rfl
  case isFalse hlength =>
    rw [if_neg hlength] at hp hq
    have hfinite : finite length = true := by
      by_contra hnot
      have hfalse : Scalar.finite length = false := Bool.eq_false_iff.mpr hnot
      exact hlength (by rw [hfalse, Bool.not_false, Bool.or_true])
    have hpos : 0 < value length := by
      by_contra hnot
      refine hlength (Bool.or_eq_true_iff.mpr (.inl ?_))
      rw [scalar_le_eq hfinite finite_scalar_zero, value_scalar_zero]
      exact decide_eq_true (not_lt.mp hnot)
    have fp := finite_of_div hp hfinite
    have fq := finite_of_div hq hfinite
    exact div_value_mono hfinite fp fq hp hq hpos
      (value_le_of_totalKey fp fq (of_decide_eq_true h))

theorem unitFraction_value (hf : finite f = true) : finite (unitFraction f) = true ∧
    value (unitFraction f) = max 0 (min 1 (value f)) := by
  have hf' : Scalar.finite f = true := hf
  rw [unitFraction, if_pos hf', Scalar.clamp, scalar_lt_eq hf finite_scalar_zero,
    scalar_lt_eq finite_scalar_one hf, value_scalar_zero, value_scalar_one]
  by_cases h0 : value f < 0
  · rw [if_pos (decide_eq_true h0), value_scalar_zero]
    refine ⟨finite_scalar_zero, (max_eq_left ?_).symm⟩
    exact (min_le_right 1 (value f)).trans h0.le
  · rw [if_neg (by simpa using h0)]
    by_cases h1 : 1 < value f
    · rw [if_pos (decide_eq_true h1), value_scalar_one, min_eq_left h1.le]
      exact ⟨finite_scalar_one, (max_eq_right zero_le_one).symm⟩
    · rw [if_neg (by simpa using h1), min_eq_right (not_lt.mp h1)]
      exact ⟨hf, (max_eq_right (not_lt.mp h0)).symm⟩

/-- The microseconds of a time that is not negative are a count that 64 bits hold. -/
theorem elapsedMicros_bounds (h0 : 0 ≤ b.since a) :
    0 ≤ elapsedMicros a b ∧ elapsedMicros a b ≤ 2 ^ 63 := by
  have hclamp (k : ℤ) : clampInt64 k ≤ 2 ^ 63 :=
    max_le (by decide) ((min_le_right _ _).trans (by decide))
  have hmicros : 0 ≤ Instant.wholeMicros (b.since a) := Int.tdiv_nonneg h0 (by decide)
  have hmillis : 0 ≤ Instant.wholeMillis (b.since a) * 1000 :=
    mul_nonneg (Int.tdiv_nonneg h0 (by decide)) (by decide)
  unfold elapsedMicros
  dsimp only
  split
  case isTrue heq => exact ⟨hmicros, heq ▸ hclamp _⟩
  case isFalse => exact ⟨clampInt64_nonneg hmillis, hclamp _⟩

/-- A larger finite fraction makes a time that is not earlier. -/
theorem interpolateTime_mono (h0 : 0 ≤ b.since a) (hf : finite f = true) (hg : finite g = true)
    (h : value f ≤ value g) : interpolateTime a b f ≤ interpolateTime a b g := by
  obtain ⟨hlow, hhigh⟩ := elapsedMicros_bounds h0
  obtain ⟨fe, e0⟩ := ofInt_nonneg hlow hhigh
  obtain ⟨ff, vf⟩ := unitFraction_value hf
  obtain ⟨fg, vg⟩ := unitFraction_value hg
  have unit (r : ℚ) : 0 ≤ max 0 (min 1 r) ∧ max 0 (min 1 r) ≤ 1 :=
    ⟨le_max_left _ _, max_le zero_le_one (min_le_left _ _)⟩
  have product {u : Float} (hu : finite u = true) (h0 : 0 ≤ value u) (h1 : value u ≤ 1) :
      finite (Float.ofInt (elapsedMicros a b) * u) = true := by
    refine (mul_rounded fe hu).finite_of_abs_le (a := Float.ofInt (elapsedMicros a b)) ?_
    rw [abs_mul, abs_of_nonneg h0]
    exact mul_le_of_le_one_right (abs_nonneg _) h1
  have fp := product ff (vf ▸ (unit _).1) (vf ▸ (unit _).2)
  have fq := product fg (vg ▸ (unit _).1) (vg ▸ (unit _).2)
  have nonneg : 0 ≤ value (Float.ofInt (elapsedMicros a b) * unitFraction f) :=
    ((mul_rounded fe ff).nearest fp).nonneg (mul_nonneg e0 (vf ▸ (unit _).1))
  have mono : value (Float.ofInt (elapsedMicros a b) * unitFraction f) ≤
      value (Float.ofInt (elapsedMicros a b) * unitFraction g) := by
    refine mul_value_mono fe ff fg fp fq e0 ?_
    rw [vf, vg]
    exact max_le_max_left 0 (min_le_min_left 1 h)
  have first : 0 ≤ roundInt64 (Float.ofInt (elapsedMicros a b) * unitFraction f) := by
    rw [← roundInt64_zero]
    exact roundInt64_mono finite_zero fp (value_zero ▸ nonneg)
  have second := roundInt64_mono fp fq mono
  exact Instant.shift_mono (mul_nonneg first (by decide))
    (mul_le_mul_of_nonneg_right second (by decide))

end Geotrack
