import Geotrack.Proofs.Geodesy.Haversine

/-!
# The globe and the flat map

A degree of longitude is never longer on the globe than a degree of latitude, so that the distance
of two positions is at most that on a map where both are as long: `distanceMeters_le_planar`. Along
a meridian and along the equator the two are equal.
-/

namespace Geotrack

open Real

/-! ### The cosine in the square of the angle -/

section Cosine

variable {m t x y : ℝ}

/-- The sine falls behind the angle. -/
theorem sin_mul_le (h0 : 0 ≤ t) (ht : t ≤ m) (hm : m ≤ π) : sin m * t ≤ sin t * m := by
  rcases h0.eq_or_lt with rfl | hpos
  · simp
  have hm0 : 0 < m := hpos.trans_le ht
  have zero : (0 : ℝ) ∈ Set.Icc 0 π := ⟨le_rfl, pi_pos.le⟩
  have rest : 0 ≤ 1 - t / m := sub_nonneg.mpr ((div_le_one hm0).mpr ht)
  have concave := strictConcaveOn_sin_Icc.concaveOn.2 zero ⟨hm0.le, hm⟩ rest
    (div_nonneg h0 hm0.le) (sub_add_cancel 1 (t / m))
  simp only [smul_eq_mul, mul_zero, sin_zero, zero_add, div_mul_cancel₀ t hm0.ne'] at concave
  calc sin m * t = t / m * sin m * m := by field_simp
    _ ≤ sin t * m := by gcongr

/-- The cosine lies above its tangent, taken over the squares of the angles. -/
theorem cos_tangent_le (hm0 : 0 < m) (hm : m ≤ π) (h0 : 0 ≤ t) (ht : t ≤ π) :
    cos m + sin m / (2 * m) * (m ^ 2 - t ^ 2) ≤ cos t := by
  obtain ⟨gap, hgap⟩ : ∃ gap : ℝ → ℝ, gap = fun t => cos t + sin m / (2 * m) * t ^ 2 := ⟨_, rfl⟩
  have slope (t : ℝ) : HasDerivAt gap (-sin t + sin m / m * t) t := by
    rw [hgap]
    refine ((hasDerivAt_cos t).add ((hasDerivAt_pow 2 t).const_mul _)).congr_deriv ?_
    field_simp
    ring
  have continuous : Continuous gap := by
    rw [hgap]
    fun_prop
  have least : gap m ≤ gap t := by
    rcases le_total t m with h | h
    · refine antitoneOn_of_deriv_nonpos (convex_Icc 0 m) continuous.continuousOn
        (fun t _ => (slope t).differentiableAt.differentiableWithinAt) (fun t ht => ?_)
        ⟨h0, h⟩ ⟨hm0.le, le_rfl⟩ h
      rw [interior_Icc] at ht
      have := sin_mul_le ht.1.le ht.2.le hm
      rw [(slope t).deriv, neg_add_nonpos_iff, div_mul_eq_mul_div, div_le_iff₀ hm0]
      exact this
    · refine monotoneOn_of_deriv_nonneg (convex_Icc m π) continuous.continuousOn
        (fun t _ => (slope t).differentiableAt.differentiableWithinAt) (fun t ht => ?_)
        ⟨le_rfl, hm⟩ ⟨h, ht⟩ h
      rw [interior_Icc] at ht
      have := sin_mul_le hm0.le ht.1.le ht.2.le
      rw [(slope t).deriv, le_neg_add_iff_add_le, add_zero, div_mul_eq_mul_div, le_div_iff₀ hm0]
      exact this
  rw [hgap] at least
  linarith

/-- The hypotenuse of a right triangle on the sphere is not longer than in the plane. -/
theorem cos_sqrt_le (h : x ^ 2 + y ^ 2 ≤ (π / 2) ^ 2) : cos √(x ^ 2 + y ^ 2) ≤ cos x * cos y := by
  obtain ⟨m, hm⟩ : ∃ m, m = √(x ^ 2 + y ^ 2) := ⟨_, rfl⟩
  have square : m ^ 2 = x ^ 2 + y ^ 2 := hm ▸ sq_sqrt (by positivity)
  have quarter : m ≤ π / 2 := hm ▸ sqrt_le_iff.mpr ⟨by positivity, h⟩
  have diagonal {z : ℝ} (hz : z ^ 2 ≤ 2 * m ^ 2) : |z| ≤ π :=
    abs_le_of_sq_le_sq (by nlinarith) pi_pos.le
  rw [← hm]
  rcases (hm ▸ sqrt_nonneg _ : 0 ≤ m).eq_or_lt with h0 | hpos
  · rw [← h0] at square ⊢
    have hx : x = 0 := by nlinarith
    have hy : y = 0 := by nlinarith
    rw [hx, hy, cos_zero, one_mul]
  · have sum := cos_tangent_le hpos (by linarith [pi_pos]) (abs_nonneg (x + y))
      (diagonal (by nlinarith [sq_nonneg (x - y)]))
    have difference := cos_tangent_le hpos (by linarith [pi_pos]) (abs_nonneg (x - y))
      (diagonal (by nlinarith [sq_nonneg (x + y)]))
    rw [sq_abs, cos_abs, cos_add] at sum
    rw [sq_abs, cos_abs, cos_sub] at difference
    have cancel : sin m / (2 * m) * (m ^ 2 - (x + y) ^ 2) +
        sin m / (2 * m) * (m ^ 2 - (x - y) ^ 2) = 0 := by
      rw [← mul_add, square]
      ring
    linarith

end Cosine

/-! ### Distances -/

/-- The length of a degree of latitude. -/
noncomputable def metersPerDegree : ℝ := Scalar.degree * 6371 * 1000

theorem metersPerDegree_eq : metersPerDegree = π / 180 * 6371 * 1000 := rfl

theorem metersPerDegree_nonneg : 0 ≤ metersPerDegree := by
  rw [metersPerDegree_eq]
  positivity

theorem halfChordSquare_le (a b : Point ℝ) : halfChordSquare a b ≤
    1 - (cos ((b.north - a.north) / 2) * cos ((b.east - a.east) / 2)) ^ 2 := by
  have product : cos a.north * cos b.north ≤ cos ((b.north - a.north) / 2) ^ 2 := by
    have sum := cos_add a.north b.north
    have difference := cos_sub b.north a.north
    have := cos_le_one (a.north + b.north)
    rw [cos_sq, mul_div_cancel₀ _ two_ne_zero]
    linarith
  rw [halfChordSquare_eq, sin_sq, mul_pow]
  have := mul_le_mul_of_nonneg_right product (sq_nonneg (sin ((b.east - a.east) / 2)))
  rw [sin_sq ((b.east - a.east) / 2)] at *
  linarith

theorem planarDistance_eq_angle (a b : Point ℝ) : planarDistance a b * (π / 180) =
    2 * √(((b.north - a.north) / 2) ^ 2 + ((b.east - a.east) / 2) ^ 2) := by
  have scale : ((b.north - a.north) / 2) ^ 2 + ((b.east - a.east) / 2) ^ 2 =
      (π / 360) ^ 2 * ((a.longitude - b.longitude) ^ 2 + (a.latitude - b.latitude) ^ 2) := by
    simp only [Point.north_eq, Point.east_eq]
    ring
  rw [scale, sqrt_mul (sq_nonneg _), sqrt_sq (by positivity), planarDistance_eq]
  ring

/-- The angle of a distance, before it is doubled. -/
theorem arcsin_le_angle (a b : Point ℝ) :
    arcsin √(Scalar.clamp Scalar.zero Scalar.one (halfChordSquare a b)) ≤
      √(((b.north - a.north) / 2) ^ 2 + ((b.east - a.east) / 2) ^ 2) := by
  obtain ⟨m, hm⟩ : ∃ m, m = √(((b.north - a.north) / 2) ^ 2 + ((b.east - a.east) / 2) ^ 2) :=
    ⟨_, rfl⟩
  rw [← hm]
  rcases le_or_gt (π / 2) m with h | h
  · exact (arcsin_le_pi_div_two _).trans h
  · have nonneg : 0 ≤ m := hm ▸ sqrt_nonneg _
    have triangle : cos m ≤ cos ((b.north - a.north) / 2) * cos ((b.east - a.east) / 2) := by
      rw [hm] at h ⊢
      exact cos_sqrt_le (sqrt_le_iff.mp h.le).2
    have positive : 0 ≤ cos m := cos_nonneg_of_neg_pi_div_two_le_of_le (by linarith) h.le
    have square : halfChordSquare a b ≤ sin m ^ 2 := by
      rw [sin_sq]
      exact (halfChordSquare_le a b).trans
        (sub_le_sub_left (pow_le_pow_left₀ positive triangle 2) 1)
    have clamped : Scalar.clamp Scalar.zero Scalar.one (halfChordSquare a b) ≤ sin m ^ 2 := by
      simp only [Scalar.clamp, Scalar.lt, Scalar.zero, Scalar.one, Scalar.ofInt, Int.cast_zero,
        Int.cast_one, decide_eq_true_eq]
      split_ifs with below above
      exacts [sq_nonneg _, above.le.trans square, square]
    rw [arcsin_le_iff_le_sin' ⟨by linarith [pi_pos], h⟩]
    exact sqrt_le_iff.mpr ⟨sin_nonneg_of_nonneg_of_le_pi nonneg (by linarith [pi_pos]), clamped⟩

/-- A distance on the globe is at most that on the flat map. -/
theorem distanceMeters_le_planar (a b : Point ℝ) :
    distanceMeters a b ≤ planarDistance a b * metersPerDegree := by
  have angle := arcsin_le_angle a b
  have flat : planarDistance a b * metersPerDegree =
      2 * √(((b.north - a.north) / 2) ^ 2 + ((b.east - a.east) / 2) ^ 2) * 6371 * 1000 := by
    rw [← planarDistance_eq_angle, metersPerDegree_eq]
    ring
  rw [flat]
  simp only [distanceMeters, distanceKm, earthRadiusKm, Scalar.asin, Scalar.sqrt, Scalar.ofInt,
    Int.cast_ofNat]
  gcongr

theorem sq_le_sin_sq {z : ℝ} (hz : |z| ≤ π / 2) : (2 / π * z) ^ 2 ≤ sin z ^ 2 := by
  have small := mul_le_sin (abs_nonneg z) hz
  have even : sin |z| ^ 2 = sin z ^ 2 := by
    rcases abs_choice z with h | h <;> rw [h]
    rw [sin_neg, neg_sq]
  rw [← even, ← sq_abs, abs_mul, abs_of_pos (by positivity : 0 < 2 / π)]
  exact pow_le_pow_left₀ (by positivity) small 2

theorem mul_sqrt_le_arcsin {k s h : ℝ} (hk : 0 ≤ k) (h1 : h ≤ 1) (le : k ^ 2 * s ≤ h) :
    k * √s ≤ arcsin √h := by
  have arc := sin_le (arcsin_nonneg.mpr (sqrt_nonneg h))
  rw [sin_arcsin (by linarith [sqrt_nonneg h]) (sqrt_le_one.mpr h1)] at arc
  refine le_trans ?_ arc
  rw [← sqrt_sq hk, ← sqrt_mul (sq_nonneg _)]
  exact sqrt_le_sqrt le

section Straight

variable {a b : Point ℝ} (ha : a.OnGlobe) (hb : b.OnGlobe)
include ha hb

/-- Across at most half the globe a distance falls short of that on the flat map by a factor that
the latitudes bound. -/
theorem planar_le_distanceMeters (near : |b.longitude - a.longitude| ≤ 180) :
    planarDistance a b * metersPerDegree * (2 / π * min (cos a.north) (cos b.north)) ≤
      distanceMeters a b := by
  obtain ⟨c, hc⟩ : ∃ c, c = min (cos a.north) (cos b.north) := ⟨_, rfl⟩
  rw [← hc]
  obtain ⟨x, hx⟩ : ∃ x, x = (b.north - a.north) / 2 := ⟨_, rfl⟩
  obtain ⟨y, hy⟩ : ∃ y, y = (b.east - a.east) / 2 := ⟨_, rfl⟩
  have width : 0 ≤ c := hc ▸ le_min ha.cos_north_nonneg hb.cos_north_nonneg
  have unit : c ≤ 1 := hc ▸ (min_le_left _ _).trans (cos_le_one _)
  have product : c * c ≤ cos a.north * cos b.north := by
    rw [hc]
    exact mul_le_mul (min_le_left _ _) (min_le_right _ _) (hc ▸ width) ha.cos_north_nonneg
  have latitude : |x| ≤ π / 2 := by
    rw [hx, abs_div, abs_two]
    have := abs_sub b.north a.north
    linarith [ha.abs_north_le, hb.abs_north_le]
  have longitude : |y| ≤ π / 2 := by
    rw [hy, Point.east_eq, Point.east_eq, ← sub_mul, abs_div, abs_two, abs_mul,
      abs_of_pos (by positivity : 0 < π / 180)]
    nlinarith [pi_pos]
  have chord : (2 / π * c) ^ 2 * (x ^ 2 + y ^ 2) ≤ halfChordSquare a b := by
    have first := sq_le_sin_sq latitude
    have second := mul_le_mul product (sq_le_sin_sq longitude) (sq_nonneg _)
      (mul_nonneg ha.cos_north_nonneg hb.cos_north_nonneg)
    have narrow : (2 / π * c) ^ 2 * x ^ 2 ≤ (2 / π * x) ^ 2 := by
      rw [mul_pow, mul_pow, mul_right_comm]
      exact mul_le_of_le_one_right (by positivity) (pow_le_one₀ width unit)
    rw [halfChordSquare_eq, ← hx, ← hy]
    linarith
  have angle : 2 / π * c * √(x ^ 2 + y ^ 2) ≤ arcsin √(halfChordSquare a b) :=
    mul_sqrt_le_arcsin (mul_nonneg (by positivity) width) (halfChordSquare_le_one ha hb) chord
  calc planarDistance a b * metersPerDegree * (2 / π * c)
      = planarDistance a b * (π / 180) * (2 / π * c) * 6371 * 1000 := by
        rw [metersPerDegree_eq]
        ring
    _ = 2 * (2 / π * c * √(x ^ 2 + y ^ 2)) * 6371 * 1000 := by
      rw [planarDistance_eq_angle, hx, hy]
      ring
    _ ≤ 2 * arcsin √(halfChordSquare a b) * 6371 * 1000 := by gcongr
    _ = distanceMeters a b := (distanceMeters_eq ha hb).symm

/-- Along a great circle of the map a distance is that on the flat map. -/
theorem distanceMeters_of_circle {z : ℝ} (hz : |z| ≤ π)
    (chord : halfChordSquare a b = sin (z / 2) ^ 2)
    (flat : planarDistance a b * (π / 180) = |z|) :
    distanceMeters a b = planarDistance a b * metersPerDegree := by
  have half : |z / 2| = |z| / 2 := by rw [abs_div, abs_two]
  have angle : arcsin √(halfChordSquare a b) = |z| / 2 := by
    rw [chord, sqrt_sq_eq_abs, abs_sin_eq_sin_abs_of_abs_le_pi (by linarith [abs_nonneg z]), half,
      arcsin_sin (by linarith [abs_nonneg z, pi_pos]) (by linarith)]
  rw [distanceMeters_eq ha hb, angle, metersPerDegree_eq, ← mul_assoc, ← mul_assoc, flat]
  ring

theorem distanceMeters_of_meridian (h : a.longitude = b.longitude) :
    distanceMeters a b = planarDistance a b * metersPerDegree := by
  refine distanceMeters_of_circle ha hb (z := b.north - a.north) ?_ ?_ ?_
  · exact (abs_sub _ _).trans (by linarith [ha.abs_north_le, hb.abs_north_le])
  · rw [halfChordSquare_eq, show b.east = a.east by rw [Point.east_eq, Point.east_eq, h]]
    simp
  · rw [planarDistance_eq_angle, show b.east = a.east by rw [Point.east_eq, Point.east_eq, h],
      sub_self, zero_div, zero_pow two_ne_zero, add_zero, sqrt_sq_eq_abs, abs_div, abs_two]
    ring

/-- Along the equator a distance across at most half the globe is that on the flat map. -/
theorem distanceMeters_of_equator (h : a.latitude = 0) (h' : b.latitude = 0)
    (near : |b.longitude - a.longitude| ≤ 180) :
    distanceMeters a b = planarDistance a b * metersPerDegree := by
  have north : a.north = 0 ∧ b.north = 0 := by simp [Point.north_eq, h, h']
  refine distanceMeters_of_circle ha hb (z := b.east - a.east) ?_ ?_ ?_
  · rw [Point.east_eq, Point.east_eq, ← sub_mul, abs_mul, abs_of_pos (by positivity : 0 < π / 180)]
    calc _ ≤ 180 * (π / 180) := by gcongr
      _ = π := by ring
  · rw [halfChordSquare_eq, north.1, north.2]
    simp
  · rw [planarDistance_eq_angle, north.1, north.2, sub_self, zero_div, zero_pow two_ne_zero,
      zero_add, sqrt_sq_eq_abs, abs_div, abs_two]
    ring

end Straight

end Geotrack
