import Geotrack.Proofs.Number.Share
import Geotrack.Proofs.Plane.Nearest
import Geotrack.Proofs.Plane.Outside

/-!
# Lengths and touched edges

The rounded length of an edge is zero only where its ends are the same, and an edge with a length
is touched at every point that it holds: rounding does not carry the foot of the perpendicular past
an end.
-/

namespace Geotrack

open Binary64

variable {p q : Point Float} {e : Edge Float}

theorem planarDistance_eq_zero (hp : p.IsFinite) (hq : q.IsFinite) :
    Scalar.eq (planarDistance p q) Scalar.zero = p.same q := by
  have side_sub_eq_none {a b : Float} (ha : finite a = true) (hb : finite b = true) :
      side (a - b) = none ↔ value a = value b := by
    refine ⟨fun h => ?_, side_eq_none_of_sub ha hb⟩
    by_contra hne
    obtain ⟨s, hs⟩ := sub_side ha hb hne
    rw [h] at hs
    cases hs
  have length :=
    hypotenuse_eq_zero_iff (sub_rounded hp.1 hq.1).ne_nan (sub_rounded hp.2 hq.2).ne_nan
  rw [side_sub_eq_none hp.1 hq.1, side_sub_eq_none hp.2 hq.2] at length
  rw [Bool.eq_iff_iff, Point.same, scalar_eq_eq hp.1 hq.1, scalar_eq_eq hp.2 hq.2,
    Bool.and_eq_true, decide_eq_true_eq, decide_eq_true_eq]
  exact length

namespace Edge

/-- An edge has a length unless its ends are the same. -/
theorem hasLength_eq (he : e.IsFinite) : e.hasLength = !e.start.same e.finish := by
  rw [hasLength, planarDistance_eq_zero he.1 he.2]

theorem partOf_of_between {x a b : Float} (hx : finite x = true) (ha : finite a = true)
    (hb : finite b = true) (h : Scalar.between x a b = true) :
    PartOf (value x - value a) (value b - value a) := by
  simp only [Scalar.between, scalar_lt_eq ha hb, scalar_le_eq ha hx, scalar_le_eq hx hb,
    scalar_le_eq hb hx, scalar_le_eq hx ha] at h
  split at h
  · simp only [Bool.and_eq_true, decide_eq_true_eq] at h
    exact .inl ⟨by linarith, by linarith⟩
  · simp only [Bool.and_eq_true, decide_eq_true_eq] at h
    exact .inr ⟨by linarith, by linarith⟩

/-- An edge with a length is touched where it holds a point. -/
theorem isTouching_nearest (he : e.IsFinite) (hp : p.IsFinite) (length : e.hasLength = true)
    (h : e.holds p = true) : (e.nearest p).IsTouching := by
  have between := h
  simp only [holds, Bool.and_eq_true] at between
  obtain ⟨⟨-, longitude⟩, latitude⟩ := between
  obtain ⟨below, above⟩ := (isShare_of_parts he.1.1 hp.1 he.2.1 he.1.2 hp.2 he.2.2
    (partOf_of_between hp.1 he.1.1 he.2.1 longitude)
    (partOf_of_between hp.2 he.1.2 he.2.2 latitude)).not_lt
  rw [hasLength, Bool.not_eq_true'] at length
  simp only [nearest, length, Bool.false_eq_true, if_false, below, above, h, if_true]
  trivial

end Edge

end Geotrack
