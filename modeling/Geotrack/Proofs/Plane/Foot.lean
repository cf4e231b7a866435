import Geotrack.Proofs.Plane.Exact
import Geotrack.Proofs.Plane.Nearest

/-!
# Feet of perpendiculars

With exact numbers the point of an edge nearest to a position is the foot of the perpendicular,
kept between the ends, and no point of the edge is nearer: `Edge.nearest_least`. So a shape has a
point as near as any point that stands by itself and any end of an edge, `Shape.isWithin_nearest`.
-/

namespace Geotrack

open Real

variable {e : Edge ℝ} {p position : Point ℝ} {d t : ℝ}

namespace Edge

/-- The square of the length of an edge. -/
noncomputable def lengthSquare (e : Edge ℝ) : ℝ :=
  (e.finish.longitude - e.start.longitude) * (e.finish.longitude - e.start.longitude) +
    (e.finish.latitude - e.start.latitude) * (e.finish.latitude - e.start.latitude)

/-- Where along the line of an edge the perpendicular from a position meets it. -/
noncomputable def footShare (e : Edge ℝ) (p : Point ℝ) : ℝ :=
  ((p.longitude - e.start.longitude) * (e.finish.longitude - e.start.longitude) +
    (p.latitude - e.start.latitude) * (e.finish.latitude - e.start.latitude)) / e.lengthSquare

theorem hasLength_iff : e.hasLength = true ↔ 0 < e.lengthSquare := by
  have nonneg : 0 ≤ e.lengthSquare := add_nonneg (mul_self_nonneg _) (mul_self_nonneg _)
  have square : (e.start.longitude - e.finish.longitude) ^ 2 +
      (e.start.latitude - e.finish.latitude) ^ 2 = e.lengthSquare := by
    rw [lengthSquare]
    ring
  simp only [hasLength, Scalar.eq, Scalar.zero, Scalar.ofInt, Int.cast_zero, Bool.not_eq_true',
    decide_eq_false_iff_not, planarDistance_eq, square, sqrt_eq_zero nonneg]
  exact nonneg.lt_iff_ne'.symm

theorem nearest_eq (h : e.hasLength = true) : e.nearest p =
    if e.footShare p < 0 then .apart e.start
    else if 1 < e.footShare p then .apart e.finish
    else if e.holds p then .touching (e.pointAt (e.footShare p))
    else .apart (e.pointAt (e.footShare p)) := by
  have foot : e.pointAt (e.footShare p) =
      ⟨e.start.longitude + (e.finish.longitude - e.start.longitude) * e.footShare p,
        e.start.latitude + (e.finish.latitude - e.start.latitude) * e.footShare p⟩ := by
    rw [pointAt, mul_comm, mul_comm (e.footShare p)]
  rw [hasLength, Bool.not_eq_true'] at h
  rw [foot, nearest, h]
  simp only [Bool.false_eq_true, if_false, Scalar.lt, Scalar.zero, Scalar.one, Scalar.ofInt,
    Int.cast_zero, Int.cast_one, decide_eq_true_eq]
  rfl

/-- By Pythagoras: how far a point along the line of an edge is from a position. -/
theorem square_eq (h : e.hasLength = true) (t : ℝ) (p : Point ℝ) :
    ((e.pointAt t).longitude - p.longitude) ^ 2 + ((e.pointAt t).latitude - p.latitude) ^ 2 =
      e.lengthSquare * (t - e.footShare p) ^ 2 +
        (((e.pointAt (e.footShare p)).longitude - p.longitude) ^ 2 +
          ((e.pointAt (e.footShare p)).latitude - p.latitude) ^ 2) := by
  have share : e.footShare p * e.lengthSquare =
      (p.longitude - e.start.longitude) * (e.finish.longitude - e.start.longitude) +
        (p.latitude - e.start.latitude) * (e.finish.latitude - e.start.latitude) :=
    div_mul_cancel₀ _ (hasLength_iff.mp h).ne'
  rw [lengthSquare] at share ⊢
  simp only [pointAt]
  linear_combination (2 * t - 2 * e.footShare p) * share

/-- Of the points of an edge the one nearest to where the foot is is the nearest. -/
theorem planarDistance_pointAt_le (h : e.hasLength = true) {s : ℝ}
    (near : |s - e.footShare p| ≤ |t - e.footShare p|) :
    planarDistance (e.pointAt s) p ≤ planarDistance (e.pointAt t) p := by
  rw [planarDistance_eq, planarDistance_eq, square_eq h s, square_eq h t]
  have := sq_le_sq.mpr near
  have := (hasLength_iff.mp h).le
  gcongr

theorem nearest_of_share (h : e.hasLength = true) (h0 : 0 ≤ e.footShare p) (h1 : e.footShare p ≤ 1)
    (apart : e.side p ≠ 0) : e.nearest p = .apart (e.pointAt (e.footShare p)) := by
  rw [nearest_eq h, if_neg h0.not_gt, if_neg h1.not_gt,
    if_neg fun holds => apart (side_of_holds holds)]

/-- The nearest point of an edge with a length is touched or apart, and no point of the edge is
nearer. -/
theorem nearest_least (h : e.hasLength = true) (p : Point ℝ) :
    ∃ q, (e.nearest p = .touching q ∨ e.nearest p = .apart q) ∧
      ∀ t, 0 ≤ t → t ≤ 1 → planarDistance q p ≤ planarDistance (e.pointAt t) p := by
  have foot : ∃ s, (e.nearest p = .touching (e.pointAt s) ∨ e.nearest p = .apart (e.pointAt s)) ∧
      ∀ t, 0 ≤ t → t ≤ 1 → |s - e.footShare p| ≤ |t - e.footShare p| := by
    rw [nearest_eq h]
    split_ifs with below above touches
    · refine ⟨0, .inr (by simp), fun t h0 _ => ?_⟩
      rw [abs_of_pos (by linarith), abs_of_pos (by linarith)]
      linarith
    · refine ⟨1, .inr (by simp), fun t _ h1 => ?_⟩
      rw [abs_of_neg (by linarith), abs_of_neg (by linarith)]
      linarith
    · exact ⟨_, .inl rfl, fun t _ _ => by rw [sub_self, abs_zero]; exact abs_nonneg _⟩
    · exact ⟨_, .inr rfl, fun t _ _ => by rw [sub_self, abs_zero]; exact abs_nonneg _⟩
  obtain ⟨s, hs, near⟩ := foot
  exact ⟨e.pointAt s, hs, fun t h0 h1 => planarDistance_pointAt_le h (near t h0 h1)⟩

end Edge

/-- Whether the nearest point of a shape is a point at most so far from a position. -/
def Nearest.IsWithin (position : Point ℝ) (d : ℝ) : Nearest ℝ → Prop
  | .none => False
  | .touching _ => True
  | .apart q => planarDistance q position ≤ d

theorem Nearest.lasting_isWithin (position : Point ℝ) (d : ℝ) :
    Lasting position (IsWithin position d) where
  touching _ := trivial
  left a b ha := by
    cases a with
    | none => cases ha
    | touching p => trivial
    | apart p =>
      cases b with
      | none => exact ha
      | touching q => trivial
      | apart q =>
        simp only [better, Scalar.le, decide_eq_true_eq]
        split
        case isTrue => exact ha
        case isFalse h => exact (le_of_not_ge h).trans ha
  right a b hb := by
    cases b with
    | none => cases hb
    | touching q => cases a <;> trivial
    | apart q =>
      cases a with
      | none => exact hb
      | touching p => trivial
      | apart p =>
        simp only [better, Scalar.le, decide_eq_true_eq]
        split
        case isTrue h => exact h.trans hb
        case isFalse => exact hb

theorem Point.isWithin_nearest (p position : Point ℝ) :
    (p.nearest position).IsWithin position (planarDistance p position) := by
  rw [Point.nearest]
  split
  · trivial
  · exact le_rfl

/-- An edge with a length has a point as near as any of its points. -/
theorem Edge.isWithin_nearest (h : e.hasLength = true) (h0 : 0 ≤ t) (h1 : t ≤ 1)
    (position : Point ℝ) :
    (e.nearest position).IsWithin position (planarDistance (e.pointAt t) position) := by
  obtain ⟨q, hq | hq, least⟩ := nearest_least h position <;> rw [hq]
  · trivial
  · exact least t h0 h1

namespace Shape

/-- Whether a point stands by itself in a shape or is an end of an edge with a length. -/
def IsCorner (shape : Shape ℝ) (v : Point ℝ) : Prop :=
  v ∈ shape.spots ∨ ∃ e ∈ shape.edges, e.hasLength = true ∧ (v = e.start ∨ v = e.finish)

/-- A shape has a point as near as any of its corners. -/
theorem isWithin_nearest {shape : Shape ℝ} {v : Point ℝ} (h : shape.IsCorner v)
    (position : Point ℝ) :
    (shape.nearest position).IsWithin position (planarDistance v position) := by
  refine nearest_of_part (Nearest.lasting_isWithin position _) shape ?_
  rcases h with hv | ⟨e, he, length, rfl | rfl⟩
  · exact .inl ⟨v, hv, v.isWithin_nearest position⟩
  · refine .inr (.inl ⟨e, he, ?_⟩)
    simpa using Edge.isWithin_nearest length le_rfl zero_le_one position
  · refine .inr (.inl ⟨e, he, ?_⟩)
    simpa using Edge.isWithin_nearest length zero_le_one le_rfl position

end Shape

end Geotrack
