import Geotrack.Proofs.Plane.Exact

/-!
# Distances on the exact sphere

With exact numbers the distance between two positions is the angle between them at the center of
the Earth times its radius. The cosine of the angle tells which of two positions is farther.
-/

namespace Geotrack

open Real

namespace Point

/-- The latitude in radians. -/
noncomputable def north (p : Point ℝ) : ℝ := p.latitude * Scalar.degree

/-- The longitude in radians. -/
noncomputable def east (p : Point ℝ) : ℝ := p.longitude * Scalar.degree

theorem north_eq (p : Point ℝ) : p.north = p.latitude * (π / 180) := rfl

theorem east_eq (p : Point ℝ) : p.east = p.longitude * (π / 180) := rfl

/-- Whether a position lies on the globe. -/
structure OnGlobe (p : Point ℝ) : Prop where
  longitude : |p.longitude| ≤ 180
  latitude : |p.latitude| ≤ 90

theorem isValid_iff {p : Point ℝ} : p.isValid = true ↔ p.OnGlobe := by
  simp only [isValid, Scalar.finite, Scalar.le, Scalar.ofInt, Bool.and_eq_true, decide_eq_true_eq]
  constructor
  · rintro ⟨⟨⟨⟨-, west⟩, east⟩, south⟩, north⟩
    exact ⟨abs_le.mpr ⟨by simpa using west, by simpa using east⟩,
      abs_le.mpr ⟨by simpa using south, by simpa using north⟩⟩
  · rintro ⟨longitude, latitude⟩
    obtain ⟨west, east⟩ := abs_le.mp longitude
    obtain ⟨south, north⟩ := abs_le.mp latitude
    exact ⟨⟨⟨⟨⟨trivial, trivial⟩, by simpa using west⟩, by simpa using east⟩, by simpa using south⟩,
      by simpa using north⟩

theorem OnGlobe.abs_north_le {p : Point ℝ} (h : p.OnGlobe) : |p.north| ≤ π / 2 := by
  rw [north_eq, abs_mul, abs_of_pos (by positivity : (0 : ℝ) < π / 180)]
  calc |p.latitude| * (π / 180) ≤ 90 * (π / 180) := by gcongr; exact h.latitude
    _ = π / 2 := by ring

theorem OnGlobe.cos_north_nonneg {p : Point ℝ} (h : p.OnGlobe) : 0 ≤ cos p.north := by
  obtain ⟨south, north⟩ := abs_le.mp h.abs_north_le
  exact cos_nonneg_of_neg_pi_div_two_le_of_le (by linarith) north

end Point

variable {a b p q : Point ℝ}

/-- The cosine of the angle between two positions. -/
noncomputable def centralCos (a b : Point ℝ) : ℝ :=
  sin a.north * sin b.north + cos a.north * cos b.north * cos (b.east - a.east)

theorem halfChordSquare_eq (a b : Point ℝ) :
    halfChordSquare a b = sin ((b.north - a.north) / 2) ^ 2 +
      cos a.north * cos b.north * sin ((b.east - a.east) / 2) ^ 2 := by
  simp only [halfChordSquare, square, Scalar.radians, Scalar.sin, Scalar.cos, Scalar.degree,
    Scalar.ofInt, Point.north_eq, Point.east_eq, Int.cast_ofNat]
  ring

theorem sin_half_sq (x : ℝ) : sin (x / 2) ^ 2 = (1 - cos x) / 2 := by
  rw [sin_sq_eq_half_sub, mul_div_cancel₀ x two_ne_zero]
  ring

theorem halfChordSquare_eq_cos (a b : Point ℝ) :
    halfChordSquare a b = (1 - centralCos a b) / 2 := by
  rw [halfChordSquare_eq, sin_half_sq, sin_half_sq, cos_sub, centralCos]
  ring

section OnGlobe

variable (ha : a.OnGlobe) (hb : b.OnGlobe)
include ha hb

theorem halfChordSquare_nonneg : 0 ≤ halfChordSquare a b := by
  rw [halfChordSquare_eq]
  have := mul_nonneg ha.cos_north_nonneg hb.cos_north_nonneg
  positivity

theorem halfChordSquare_le_one : halfChordSquare a b ≤ 1 := by
  have product := mul_nonneg ha.cos_north_nonneg hb.cos_north_nonneg
  have opposite : -1 ≤ centralCos a b := by
    have sum := cos_add a.north b.north
    have := cos_le_one (a.north + b.north)
    have := mul_le_mul_of_nonneg_left (neg_one_le_cos (b.east - a.east)) product
    rw [centralCos]
    linarith
  rw [halfChordSquare_eq_cos]
  linarith

theorem distanceMeters_eq :
    distanceMeters a b = 2 * arcsin √(halfChordSquare a b) * 6371 * 1000 := by
  have clamp : Scalar.clamp Scalar.zero Scalar.one (halfChordSquare a b) = halfChordSquare a b := by
    simp [Scalar.clamp, Scalar.lt, Scalar.zero, Scalar.one, Scalar.ofInt,
      (halfChordSquare_nonneg ha hb).not_gt, (halfChordSquare_le_one ha hb).not_gt]
  simp only [distanceMeters, distanceKm, clamp, earthRadiusKm, Scalar.asin, Scalar.sqrt,
    Scalar.ofInt, Int.cast_ofNat]

end OnGlobe

theorem distanceMeters_nonneg (a b : Point ℝ) : 0 ≤ distanceMeters a b := by
  have := arcsin_nonneg.mpr
    (sqrt_nonneg (Scalar.clamp Scalar.zero Scalar.one (halfChordSquare a b)))
  simp only [distanceMeters, distanceKm, earthRadiusKm, Scalar.asin, Scalar.sqrt, Scalar.ofInt,
    Int.cast_ofNat]
  positivity

/-- The angle between two positions is at least that between their latitudes. -/
theorem centralCos_le (ha : a.OnGlobe) (hb : b.OnGlobe) :
    centralCos a b ≤ cos (b.north - a.north) := by
  have := mul_le_mul_of_nonneg_left (cos_le_one (b.east - a.east))
    (mul_nonneg ha.cos_north_nonneg hb.cos_north_nonneg)
  rw [centralCos, cos_sub b.north]
  linarith

/-- The larger the angle, the longer the distance. -/
theorem distanceMeters_lt_iff (ha : a.OnGlobe) (hb : b.OnGlobe) (hp : p.OnGlobe) (hq : q.OnGlobe) :
    distanceMeters a b < distanceMeters p q ↔ centralCos p q < centralCos a b := by
  have unit {a b : Point ℝ} (ha : a.OnGlobe) (hb : b.OnGlobe) :
      √(halfChordSquare a b) ∈ Set.Icc (-1) 1 :=
    ⟨by linarith [sqrt_nonneg (halfChordSquare a b)],
      sqrt_le_one.mpr (halfChordSquare_le_one ha hb)⟩
  rw [distanceMeters_eq ha hb, distanceMeters_eq hp hq, mul_lt_mul_iff_left₀ (by norm_num),
    mul_lt_mul_iff_left₀ (by norm_num), mul_lt_mul_iff_right₀ two_pos,
    strictMonoOn_arcsin.lt_iff_lt (unit ha hb) (unit hp hq),
    sqrt_lt_sqrt_iff (halfChordSquare_nonneg ha hb), halfChordSquare_eq_cos, halfChordSquare_eq_cos]
  constructor <;> intro h <;> linarith

end Geotrack
