import Geotrack.Proofs.Plane.Ray

/-!
# Slight tilts

A tilt that is slight enough for some points makes no two of them equally high and leaves every
winding step about them as it is, so that what holds for heights holds for latitudes.
-/

namespace Geotrack

variable {δ : ℝ} {d e : Edge ℝ} {es : List (Edge ℝ)} {points : List (Point ℝ)} {p q : Point ℝ}

/-- A tilt that leaves the order of latitudes as it is. Among points of one latitude, those farther
east are lower. -/
structure Slight (δ : ℝ) (points : List (Point ℝ)) : Prop where
  pos : 0 < δ
  height_lt : ∀ p ∈ points, ∀ q ∈ points, p.latitude < q.latitude → height δ p < height δ q

open Filter Topology in
theorem exists_slight (points : List (Point ℝ)) : ∃ δ, Slight δ points := by
  have hpair (p q : Point ℝ) :
      ∀ᶠ δ in 𝓝[>] (0 : ℝ), p.latitude < q.latitude → height δ p < height δ q := by
    by_cases hlt : p.latitude < q.latitude
    · have hgap : 0 < (q.latitude - p.latitude) / (|q.longitude - p.longitude| + 1) :=
        div_pos (by linarith) (by positivity)
      filter_upwards [Ioo_mem_nhdsGT hgap] with δ hδ _
      have hle := mul_le_mul_of_nonneg_left (le_abs_self (q.longitude - p.longitude)) hδ.1.le
      have hδ' := (lt_div_iff₀ (by positivity)).mp hδ.2
      simp only [height]
      linarith [hδ.1]
    · exact .of_forall fun _ h => absurd h hlt
  have hall : ∀ᶠ δ in 𝓝[>] (0 : ℝ), ∀ p ∈ {p | p ∈ points}, ∀ q ∈ {q | q ∈ points},
      p.latitude < q.latitude → height δ p < height δ q := by
    rw [eventually_all_finite points.finite_toSet]
    intro p _
    rw [eventually_all_finite points.finite_toSet]
    exact fun q _ => hpair p q
  obtain ⟨δ, hδ, hpos⟩ := (hall.and self_mem_nhdsWithin).exists
  exact ⟨δ, hpos, hδ⟩

namespace Slight

variable (hδ : Slight δ points)
include hδ

theorem height_lt_of_east (hlat : p.latitude = q.latitude) (hlon : q.longitude < p.longitude) :
    height δ p < height δ q := by
  have := mul_lt_mul_of_pos_left hlon hδ.pos
  simp only [height]
  linarith

theorem height_ne (hp : p ∈ points) (hq : q ∈ points) (hne : p ≠ q) : height δ p ≠ height δ q := by
  rcases lt_trichotomy p.latitude q.latitude with h | h | h
  · exact (hδ.height_lt p hp q hq h).ne
  · rcases lt_trichotomy p.longitude q.longitude with k | k | k
    · exact (hδ.height_lt_of_east h.symm k).ne'
    · obtain ⟨x, y⟩ := p
      obtain ⟨x', y'⟩ := q
      exact absurd (Point.mk.injEq _ _ _ _ ▸ ⟨k, h⟩) hne
    · exact (hδ.height_lt_of_east h k).ne
  · exact (hδ.height_lt q hq p hp h).ne'

theorem le_of_height_lt (hp : p ∈ points) (hq : q ∈ points) (h : height δ p < height δ q) :
    p.latitude < q.latitude ∨ (p.latitude = q.latitude ∧ q.longitude < p.longitude) := by
  rcases lt_trichotomy p.latitude q.latitude with k | k | k
  · exact .inl k
  · refine .inr ⟨k, ?_⟩
    by_contra hle
    have := mul_le_mul_of_nonneg_left (not_lt.mp hle) hδ.pos.le
    simp only [height] at h
    linarith
  · exact absurd (hδ.height_lt q hq p hp k) h.not_gt

end Slight

/-! ### Winding steps -/

theorem side_of_start_latitude (h : e.start.latitude = p.latitude) :
    e.side p = (e.finish.latitude - e.start.latitude) * (e.start.longitude - p.longitude) := by
  simp only [Edge.side, cross]
  rw [← h]
  ring

theorem side_of_finish_latitude (h : e.finish.latitude = p.latitude) :
    e.side p = (e.finish.latitude - e.start.latitude) * (e.finish.longitude - p.longitude) := by
  simp only [Edge.side, cross]
  rw [← h]
  ring

/-- Left of an edge a slight tilt keeps whether the edge rises past a point. -/
theorem rises_iff (hδ : Slight δ points) (hp : p ∈ points) (hs : e.start ∈ points)
    (hf : e.finish ∈ points) (hside : 0 < e.side p) :
    (height δ e.start ≤ height δ p ∧ height δ p < height δ e.finish) ↔
      e.start.latitude ≤ p.latitude ∧ p.latitude < e.finish.latitude := by
  constructor
  · rintro ⟨hle, hlt⟩
    have hne : e.start ≠ p := by
      rintro rfl
      rw [e.side_start] at hside
      exact lt_irrefl 0 hside
    have hstart : e.start.latitude ≤ p.latitude := by
      rcases hδ.le_of_height_lt hs hp (lt_of_le_of_ne hle (hδ.height_ne hs hp hne)) with h | ⟨h, -⟩
      · exact h.le
      · exact h.le
    refine ⟨hstart, ?_⟩
    rcases hδ.le_of_height_lt hp hf hlt with h | ⟨h, hlon⟩
    · exact h
    · rw [side_of_finish_latitude h.symm] at hside
      nlinarith
  · rintro ⟨hle, hlt⟩
    refine ⟨?_, hδ.height_lt p hp _ hf hlt⟩
    rcases hle.eq_or_lt with h | h
    · rw [side_of_start_latitude h, mul_pos_iff_of_pos_left (by linarith), sub_pos] at hside
      exact (hδ.height_lt_of_east h hside).le
    · exact (hδ.height_lt _ hs p hp h).le

/-- The winding step of an edge about a point off it is what the edge adds in a slight tilt. -/
theorem windingStep?_eq (hδ : Slight δ points) (hp : p ∈ points) (hs : e.start ∈ points)
    (hf : e.finish ∈ points) (hoff : e.holds p = false) :
    Ring.windingStep? p e = some (turnsAbout δ p e) := by
  unfold Ring.windingStep?
  simp only [Scalar.le, Scalar.eq, decide_eq_true_eq]
  rcases lt_trichotomy (e.side p) 0 with hside | hside | hside
  · have hfalls := rises_iff (e := e.reverse) hδ hp hf hs (by rw [e.side_reverse]; linarith)
    simp only [Edge.reverse] at hfalls
    have hturns : turnsAbout δ p e =
        if e.finish.latitude ≤ p.latitude ∧ p.latitude < e.start.latitude then -1 else 0 := by
      rw [turnsAbout, if_neg fun h => h.2.2.not_gt hside]
      simp only [hside, and_true, hfalls]
    have hturn : e.turnTo p = .right := turnOf_right_iff.mpr hside
    rw [hturns, hturn]
    by_cases h : e.start.latitude ≤ p.latitude
    · simp [h, h.not_gt]
    · by_cases k : e.finish.latitude ≤ p.latitude <;> simp [h, k, not_le.mp h]
  · have honly (hlat : Scalar.between p.latitude e.start.latitude e.finish.latitude = true) :
        Scalar.between p.longitude e.start.longitude e.finish.longitude = false := by
      by_contra h
      rw [(Edge.holds_eq e p).mpr ⟨hside, by simpa using h, hlat⟩] at hoff
      cases hoff
    have hturn : e.turnTo p = .straight := turnOf_straight_iff.mpr hside
    rw [turnsAbout_of_side_eq_zero hside, hturn]
    by_cases h : e.start.latitude ≤ p.latitude
    · by_cases k : p.latitude ≤ e.finish.latitude
      · simp [h, k, honly (Edge.between_iff.mpr (.inl ⟨h, k⟩))]
      · simp [h, k]
    · by_cases k : e.finish.latitude ≤ p.latitude
      · simp [h, k, honly (Edge.between_iff.mpr (.inr ⟨k, (not_le.mp h).le⟩))]
      · simp [h, k]
  · have hturns : turnsAbout δ p e =
        if e.start.latitude ≤ p.latitude ∧ p.latitude < e.finish.latitude then 1 else 0 := by
      simp only [turnsAbout, hside, and_true, rises_iff hδ hp hs hf hside, hside.not_gt, and_false,
        if_false]
    have hturn : e.turnTo p = .left := turnOf_left_iff.mpr hside
    rw [hturns, hturn]
    by_cases h : e.start.latitude ≤ p.latitude
    · rcases lt_trichotomy p.latitude e.finish.latitude with k | k | k
      · simp [h, k, k.le, k.ne']
      · simp [k]
      · simp [k.not_ge, k.not_gt]
    · simp [h]

/-! ### Rings -/

theorem winding?_eq (hδ : Slight δ points) (hp : p ∈ points)
    (hmem : ∀ e ∈ es, e.start ∈ points ∧ e.finish ∈ points) (hoff : ∀ e ∈ es, e.holds p = false) :
    Ring.winding? p es = some (windingAbout δ p es) :=
  winding?_of_steps fun e he =>
    windingStep?_eq hδ hp (hmem e he).1 (hmem e he).2 (hoff e he)

end Geotrack
