import Geotrack.Proofs.Geodesy.Haversine

/-!
# Edges that lead outward

An edge is straight in degrees, and the distance from its start is not always larger farther along
it: across more than half the globe it shrinks again. On an edge that spans at most a quarter of
the longitudes it always grows, `Edge.outward_of_spans`.
-/

namespace Geotrack

open Real

/-! ### How the angle grows -/

section Growth

variable {φ x y : ℝ}

theorem mul_cos_le_sin (h0 : 0 ≤ x) (hx : x ≤ π / 2) : x * cos x ≤ sin x := by
  rcases hx.eq_or_lt with rfl | hx
  · rw [cos_pi_div_two, sin_pi_div_two, mul_zero]
    exact zero_le_one
  · have positive : 0 < cos x := cos_pos_of_mem_Ioo ⟨by linarith, hx⟩
    have tangent := le_tan h0 hx
    rwa [tan_eq_sin_div_cos, le_div_iff₀ positive] at tangent

theorem mul_sin_eq_abs (y : ℝ) : y * sin y = |y| * sin |y| := by
  rcases abs_choice y with h | h
  · rw [h]
  · rw [h, sin_neg, neg_mul_neg]

theorem one_sub_cos_le (hy : |y| ≤ π / 2) : 1 - cos y ≤ y * sin y := by
  have small : 2 / π * |y| ≤ sin |y| := mul_le_sin (abs_nonneg y) hy
  have half : 1 / 2 ≤ 2 / π := by
    rw [le_div_iff₀ pi_pos]
    linarith [pi_le_four]
  calc 1 - cos y ≤ y ^ 2 / 2 := by linarith [one_sub_sq_div_two_le_cos (x := y)]
    _ = 1 / 2 * (|y| * |y|) := by rw [abs_mul_abs_self]; ring
    _ ≤ 2 / π * (|y| * |y|) := by gcongr
    _ = |y| * (2 / π * |y|) := by ring
    _ ≤ |y| * sin |y| := by gcongr
    _ = y * sin y := (mul_sin_eq_abs y).symm

/-- What the angle from a position at latitude `φ` grows by on the way, times the way, after `x` of
latitude and `y` of longitude. -/
noncomputable def growth (φ x y : ℝ) : ℝ :=
  x * sin x - x * (cos φ * sin (φ + x)) * (1 - cos y) + cos φ * cos (φ + x) * (y * sin y)

/-- On the other hemisphere the angle grows as on this. -/
theorem growth_mirror (φ x y : ℝ) : growth (-φ) (-x) y = growth φ x y := by
  rw [growth, growth, ← neg_add, sin_neg, sin_neg, cos_neg, cos_neg]
  ring

theorem mul_sin_le_cos (hφ : |φ| ≤ π / 2) (hx : 0 ≤ x) (hφx : φ + x ≤ π / 2) :
    x * sin φ ≤ cos φ := by
  obtain ⟨south, north⟩ := abs_le.mp hφ
  rcases le_total φ 0 with h | h
  · have width : 0 ≤ cos φ := cos_nonneg_of_neg_pi_div_two_le_of_le (by linarith) north
    have : sin φ ≤ 0 := sin_nonpos_of_nonpos_of_neg_pi_le h (by linarith [pi_pos])
    nlinarith
  · have : 0 ≤ sin φ := sin_nonneg_of_nonneg_of_le_pi h (by linarith [pi_pos])
    have complement := mul_cos_le_sin (x := π / 2 - φ) (by linarith) (by linarith)
    rw [cos_pi_div_two_sub, sin_pi_div_two_sub] at complement
    nlinarith

section Positive

variable (hφ : |φ| ≤ π / 2) (hφx : |φ + x| ≤ π / 2) (hy : |y| < π / 2)
include hφ hφx hy

theorem growth_pos_of_north (hx : 0 < x) (hx' : x < π) : 0 < growth φ x y := by
  obtain ⟨south, north⟩ := abs_le.mp hφ
  obtain ⟨south', north'⟩ := abs_le.mp hφx
  have slope : 0 < x * sin x := mul_pos hx (sin_pos_of_pos_of_lt_pi hx hx')
  have width : 0 ≤ cos φ := cos_nonneg_of_neg_pi_div_two_le_of_le (by linarith) north
  have width' : 0 ≤ cos (φ + x) := cos_nonneg_of_neg_pi_div_two_le_of_le (by linarith) north'
  have turn := one_sub_cos_le hy.le
  have versine : 0 ≤ 1 - cos y := by linarith [cos_le_one y]
  have bend : 1 - cos y < 1 := by
    have : 0 < cos y := cos_pos_of_mem_Ioo ⟨by linarith [abs_lt.mp hy], (abs_lt.mp hy).2⟩
    linarith
  have lower : x * sin x - x * (cos φ * sin (φ + x)) * (1 - cos y) +
      cos φ * cos (φ + x) * (1 - cos y) ≤ growth φ x y := by
    rw [growth]
    gcongr
  refine lt_of_lt_of_le ?_ lower
  rcases le_total (sin (φ + x)) 0 with hsin | hsin
  · have : x * (cos φ * sin (φ + x)) ≤ 0 :=
      mul_nonpos_of_nonneg_of_nonpos hx.le (mul_nonpos_of_nonneg_of_nonpos width hsin)
    nlinarith [mul_nonneg (mul_nonneg width width') versine]
  · -- between no turn and a quarter turn the bound is linear in the versine
    have quarter : 0 ≤ cos φ - x * sin φ := sub_nonneg.mpr (mul_sin_le_cos hφ hx.le north')
    have sum : sin x = sin (φ + x) * cos φ - cos (φ + x) * sin φ := by
      rw [← sin_sub, add_sub_cancel_left]
    have split : x * sin x - x * (cos φ * sin (φ + x)) * (1 - cos y) +
        cos φ * cos (φ + x) * (1 - cos y) =
        (1 - (1 - cos y)) * (x * sin x) + (1 - cos y) * (cos (φ + x) * (cos φ - x * sin φ)) := by
      rw [sum]
      ring
    rw [split]
    have := mul_nonneg versine (mul_nonneg width' quarter)
    have := mul_pos (sub_pos.mpr bend) slope
    linarith

theorem growth_pos (hx : |x| < π) (moves : x ≠ 0 ∨ 0 < cos φ ∧ y ≠ 0) : 0 < growth φ x y := by
  rcases lt_trichotomy x 0 with h | rfl | h
  · rw [← growth_mirror]
    refine growth_pos_of_north (by rwa [abs_neg]) (by rwa [← neg_add, abs_neg]) hy
      (neg_pos.mpr h) ?_
    linarith [(abs_lt.mp hx).1]
  · obtain ⟨width, turns⟩ := moves.resolve_left (by simp)
    have turn : 0 < y * sin y := by
      rw [mul_sin_eq_abs]
      exact mul_pos (abs_pos.mpr turns)
        (sin_pos_of_pos_of_lt_pi (abs_pos.mpr turns) (by linarith [pi_pos]))
    rw [growth, add_zero, zero_mul, zero_mul, zero_mul, sub_zero, zero_add]
    exact mul_pos (mul_pos width width) turn
  · exact growth_pos_of_north hφ hφx hy h (abs_lt.mp hx).2

end Positive

/-- The cosine of the angle falls by the growth. -/
theorem hasDerivAt_angle (φ δ l : ℝ) {t : ℝ} (ht : t ≠ 0) :
    HasDerivAt (fun t => sin φ * sin (φ + t * δ) + cos φ * cos (φ + t * δ) * cos (t * l))
      (-growth φ (t * δ) (t * l) / t) t := by
  have north : HasDerivAt (fun t => φ + t * δ) δ t := by
    simpa using ((hasDerivAt_id t).mul_const δ).const_add φ
  have east : HasDerivAt (fun t => t * l) l t := by
    simpa using (hasDerivAt_id t).mul_const l
  refine ((north.sin.const_mul (sin φ)).add
    ((north.cos.const_mul (cos φ)).mul east.cos)).congr_deriv ?_
  have sum : sin (t * δ) = sin (φ + t * δ) * cos φ - cos (φ + t * δ) * sin φ := by
    rw [← sin_sub, add_sub_cancel_left]
  rw [growth, sum]
  field_simp
  ring

end Growth

/-! ### Along an edge -/

namespace Edge

variable {e : Edge ℝ}

/-- Whether the distance from the start grows all along an edge. -/
def Outward (e : Edge ℝ) : Prop :=
  ∀ s t, 0 ≤ s → s < t → t ≤ 1 →
    distanceMeters e.start (e.pointAt s) < distanceMeters e.start (e.pointAt t)

/-- Whether an edge spans at most a quarter of the longitudes, and more than a pole. -/
structure Spans90 (e : Edge ℝ) : Prop where
  longitude : |e.finish.longitude - e.start.longitude| ≤ 90
  moves : e.start.latitude ≠ e.finish.latitude ∨
    e.start.longitude ≠ e.finish.longitude ∧ |e.start.latitude| < 90

theorem north_pointAt (e : Edge ℝ) (t : ℝ) :
    (e.pointAt t).north = e.start.north + t * (e.finish.north - e.start.north) := by
  simp only [pointAt, Point.north_eq]
  ring

theorem east_pointAt (e : Edge ℝ) (t : ℝ) :
    (e.pointAt t).east - e.start.east = t * (e.finish.east - e.start.east) := by
  simp only [pointAt, Point.east_eq]
  ring

theorem centralCos_pointAt (e : Edge ℝ) (t : ℝ) : centralCos e.start (e.pointAt t) =
    sin e.start.north * sin (e.start.north + t * (e.finish.north - e.start.north)) +
      cos e.start.north * cos (e.start.north + t * (e.finish.north - e.start.north)) *
        cos (t * (e.finish.east - e.start.east)) := by
  rw [centralCos, east_pointAt, north_pointAt]

theorem onGlobe_pointAt (hs : e.start.OnGlobe) (hf : e.finish.OnGlobe) {t : ℝ} (h0 : 0 ≤ t)
    (h1 : t ≤ 1) : (e.pointAt t).OnGlobe := by
  have within {a b c : ℝ} (ha : |a| ≤ c) (hb : |b| ≤ c) : |a + t * (b - a)| ≤ c := by
    obtain ⟨ha, ha'⟩ := abs_le.mp ha
    obtain ⟨hb, hb'⟩ := abs_le.mp hb
    exact abs_le.mpr ⟨by nlinarith, by nlinarith⟩
  exact ⟨within hs.longitude hf.longitude, within hs.latitude hf.latitude⟩

theorem growth_pos_of_spans (hs : e.start.OnGlobe) (hf : e.finish.OnGlobe) (h : e.Spans90) {t : ℝ}
    (h0 : 0 < t) (h1 : t < 1) : 0 < growth e.start.north (t * (e.finish.north - e.start.north))
      (t * (e.finish.east - e.start.east)) := by
  have degree : (0 : ℝ) < π / 180 := by positivity
  have latitude : |e.finish.north - e.start.north| ≤ π :=
    (abs_sub _ _).trans (by linarith [hs.abs_north_le, hf.abs_north_le])
  have longitude : |e.finish.east - e.start.east| ≤ π / 2 := by
    rw [Point.east_eq, Point.east_eq, ← sub_mul, abs_mul, abs_of_pos degree]
    calc _ ≤ 90 * (π / 180) := by gcongr; exact h.longitude
      _ = π / 2 := by ring
  have point := (onGlobe_pointAt hs hf h0.le h1.le).abs_north_le
  rw [north_pointAt] at point
  have part {x c : ℝ} (hx : |x| ≤ c) (hc : 0 < c) : |t * x| < c := by
    rw [abs_mul, abs_of_pos h0]
    nlinarith [abs_nonneg x]
  refine growth_pos hs.abs_north_le point (part longitude (by positivity)) (part latitude pi_pos) ?_
  rcases h.moves with moves | ⟨moves, inner⟩
  · left
    refine mul_ne_zero h0.ne' ?_
    rw [Point.north_eq, Point.north_eq, ← sub_mul]
    exact mul_ne_zero (sub_ne_zero.mpr moves.symm) degree.ne'
  · refine .inr ⟨?_, mul_ne_zero h0.ne' ?_⟩
    · have : |e.start.north| < π / 2 := by
        rw [Point.north_eq, abs_mul, abs_of_pos degree]
        calc _ < 90 * (π / 180) := by gcongr
          _ = π / 2 := by ring
      exact cos_pos_of_mem_Ioo (abs_lt.mp this)
    · rw [Point.east_eq, Point.east_eq, ← sub_mul]
      exact mul_ne_zero (sub_ne_zero.mpr moves.symm) degree.ne'

/-- An edge that spans at most a quarter of the longitudes leads outward. -/
theorem outward_of_spans (hs : e.start.OnGlobe) (hf : e.finish.OnGlobe) (h : e.Spans90) :
    e.Outward := by
  have falls : StrictAntiOn (fun t => centralCos e.start (e.pointAt t)) (Set.Icc 0 1) := by
    refine strictAntiOn_of_deriv_neg (convex_Icc 0 1) ?_ fun t ht => ?_
    · simp only [centralCos_pointAt]
      fun_prop
    · rw [interior_Icc] at ht
      obtain ⟨h0, h1⟩ := ht
      simp only [centralCos_pointAt]
      rw [(hasDerivAt_angle e.start.north (e.finish.north - e.start.north)
        (e.finish.east - e.start.east) h0.ne').deriv, neg_div, neg_lt_zero]
      exact div_pos (growth_pos_of_spans hs hf h h0 h1) h0
  intro s t h0 hst h1
  rw [distanceMeters_lt_iff hs (onGlobe_pointAt hs hf h0 (hst.le.trans h1)) hs
    (onGlobe_pointAt hs hf (h0.trans hst.le) h1)]
  exact falls ⟨h0, hst.le.trans h1⟩ ⟨h0.trans hst.le, h1⟩ hst

end Edge

end Geotrack
