import Geotrack.Proofs.Number.Gap
import Geotrack.Proofs.Plane.Contacts
import Geotrack.Proofs.Plane.Outside

/-!
# Distinct meeting points

Points that are reported for a segment are kept one after the other unless they are near one that is
kept. Being near is not transitive, so that what is kept depends on the order; yet every finite
point is near a kept one and no two kept points are near each other: `meetingPointsBy_distinct`.
Infinite points are near nothing, not even themselves, and each of them is kept.
-/

namespace Geotrack

open Binary64

/-! ### Kept points -/

section Kept

variable {K : Type}

/-- Whether a point is reported for an edge of a boundary: it is the single point that a segment has
in common with the edge, or an end of the stretch that both share. -/
def IsReported (meet : Edge K → Edge K → Option (Meeting K)) (segment : Edge K)
    (boundary : Boundary K) (p : Point K) : Prop :=
  ∃ e ∈ boundary.edges, ∃ m, meet segment e = some m ∧ p ∈ m.points

variable {kept points : List (Point K)} {p q start finish : Point K} {boundary : Boundary K}
  {meet : Edge K → Edge K → Option (Meeting K)}

theorem mem_reported {segment : Edge K} :
    p ∈ (boundary.edges.flatMap fun e => ((meet segment e).map Meeting.points).getD []) ↔
      IsReported meet segment boundary p := by
  rw [List.mem_flatMap]
  refine exists_congr fun e => and_congr_right fun _ => ?_
  cases meet segment e <;> simp

variable [Scalar K]

/-- No kept point is near a point that is kept later. -/
theorem distinctPoints_apart : (distinctPoints points).Pairwise fun p q => p.near q = false := by
  have fold (kept points : List (Point K)) (h : kept.Pairwise fun p q => p.near q = false) :
      (points.foldl addDistinct kept).Pairwise fun p q => p.near q = false := by
    induction points generalizing kept with
    | nil => exact h
    | cons p rest ih =>
      refine ih (addDistinct kept p) ?_
      rw [addDistinct]
      split
      case isTrue => exact h
      case isFalse new =>
        refine List.pairwise_append.mpr ⟨h, List.pairwise_singleton _ _, fun q hq r hr => ?_⟩
        obtain rfl := List.mem_singleton.mp hr
        simpa using fun near => new (List.any_eq_true.mpr ⟨q, hq, near⟩)
  exact fold [] points .nil

theorem isReported_of_mem (h : p ∈ meetingPointsBy meet start finish boundary) :
    IsReported meet ⟨start, finish⟩ boundary p := by
  rw [meetingPointsBy] at h
  split at h
  · cases h
  · rw [mem_sortByDistance] at h
    exact mem_reported.mp (mem_of_mem_distinctPoints h)

theorem exists_kept (moves : start.same finish = false)
    (h : IsReported meet ⟨start, finish⟩ boundary p) :
    ∃ q ∈ meetingPointsBy meet start finish boundary, q.StandsFor p := by
  obtain ⟨q, hq, stands⟩ := exists_standsFor (mem_reported.mpr h)
  refine ⟨q, ?_, stands⟩
  rw [meetingPointsBy, if_neg (by simp [moves])]
  exact mem_sortByDistance.mpr hq

theorem meetingPointsBy_ordered [Scalar.Sorts K] :
    (meetingPointsBy meet start finish boundary).Pairwise start.Precedes := by
  rw [meetingPointsBy]
  split
  · exact .nil
  · exact sortByDistance_ordered start _

/-- The order of the kept points does not matter where being near is symmetric. -/
theorem meetingPointsBy_apart (symm : ∀ p q : Point K, p.near q = q.near p) :
    (meetingPointsBy meet start finish boundary).Pairwise fun p q => p.near q = false := by
  rw [meetingPointsBy]
  split
  · exact .nil
  · refine distinctPoints_apart.perm (List.mergeSort_perm _ _).symm ?_
    intro p q h
    rwa [symm]

end Kept

/-! ### Nearness of floats -/

namespace Point

variable {p q : Point Float}

/-- Whether two points are finite and less than `t` degrees apart in both coordinates. -/
def Within (t : ℚ) (p q : Point Float) : Prop :=
  (p.IsFinite ∧ q.IsFinite) ∧ |value p.longitude - value q.longitude| < t ∧
    |value p.latitude - value q.latitude| < t

theorem near_eq (p q : Point Float) : p.near q =
    (Scalar.lt (gap p.longitude q.longitude) samePointTolerance &&
      Scalar.lt (gap p.latitude q.latitude) samePointTolerance) := rfl

theorem near_comm (p q : Point Float) : p.near q = q.near p := by
  rw [near_eq, near_eq, gap_comm, gap_comm p.latitude]

theorem tolerance_finite : finite (samePointTolerance : Float) = true := by decide +kernel

/-- The tolerance as it is rounded: a little more than `1 / 10 ^ 9`. -/
theorem value_tolerance :
    value (samePointTolerance : Float) = (4835703278458517 : ℤ) * 2 ^ (-82 : ℤ) := by decide +kernel

/-- Points that are near are less than `1 / 10 ^ 9` degrees apart. -/
theorem within_of_near (h : p.near q = true) : p.Within (1 / 10 ^ 9) q := by
  rw [near_eq, Bool.and_eq_true] at h
  obtain ⟨⟨hpx, hqx⟩, hx⟩ := abs_sub_le_of_gap_lt (by norm_num) (by norm_num) (by norm_num)
    tolerance_finite value_tolerance h.1
  obtain ⟨⟨hpy, hqy⟩, hy⟩ := abs_sub_le_of_gap_lt (by norm_num) (by norm_num) (by norm_num)
    tolerance_finite value_tolerance h.2
  have half : (((4835703278458517 : ℤ) : ℚ) - 1 / 2) * 2 ^ (-82 : ℤ) < 1 / 10 ^ 9 := by norm_num
  exact ⟨⟨⟨hpx, hpy⟩, hqx, hqy⟩, hx.trans_lt half, hy.trans_lt half⟩

/-- Points that are less than `1 / 10 ^ 9` degrees apart are near, up to the rounding of the
differences. -/
theorem near_of_within (h : p.Within (1 / 10 ^ 9 - 2 ^ (-84 : ℤ)) q) : p.near q = true := by
  have half : (1 / 10 ^ 9 - 2 ^ (-84 : ℤ) : ℚ) <
      (((4835703278458517 : ℤ) : ℚ) - 1 / 2) * 2 ^ (-82 : ℤ) := by norm_num
  have close {a b : Float} (ha : finite a = true) (hb : finite b = true)
      (hlt : |value a - value b| < 1 / 10 ^ 9 - 2 ^ (-84 : ℤ)) :
      Scalar.lt (gap a b) samePointTolerance = true := by
    by_contra hnot
    have hge := le_abs_sub_of_not_gap_lt (by norm_num) (by norm_num) (by norm_num)
      tolerance_finite value_tolerance ha hb (Bool.eq_false_iff.mpr hnot)
    exact absurd (hlt.trans half) (not_lt.mpr hge)
  obtain ⟨⟨hp, hq⟩, hx, hy⟩ := h
  rw [near_eq, close hp.1 hq.1 hx, close hp.2 hq.2 hy]
  rfl

theorem near_self_of_finite (h : p.IsFinite) : p.near p = true := by
  refine near_of_within ⟨⟨h, h⟩, ?_, ?_⟩ <;> norm_num

end Point

/-! ### Meeting points -/

/-- Points that are kept of those that are reported, by their distance from a start. -/
structure Represents (start : Point Float) (Reported : Point Float → Prop)
    (kept : List (Point Float)) : Prop where
  reported : ∀ p ∈ kept, Reported p
  covered : ∀ p, Reported p → p.IsFinite → ∃ q ∈ kept, q.near p = true ∧ q.Within (1 / 10 ^ 9) p
  /-- What is not finite is near nothing, and stands for itself. -/
  mem_of_infinite : ∀ p, Reported p → ¬ p.IsFinite → p ∈ kept
  /-- Differences are rounded before they are compared, hence the slack. -/
  apart : kept.Pairwise fun p q =>
    p.near q = false ∧ ¬ p.Within (1 / 10 ^ 9 - 2 ^ (-84 : ℤ)) q
  ordered : kept.Pairwise start.Precedes

/-- Whatever is reported for the edges of a boundary, the meeting points of a segment with a length
are some of it, no two near each other, and every finite point of it is near one of them. -/
theorem meetingPointsBy_distinct (meet : Edge Float → Edge Float → Option (Meeting Float))
    {start finish : Point Float} (moves : start.same finish = false) (boundary : Boundary Float) :
    Represents start (IsReported meet ⟨start, finish⟩ boundary)
      (meetingPointsBy meet start finish boundary) := by
  refine ⟨fun p => isReported_of_mem, fun p hp hfinite => ?_, fun p hp infinite => ?_, ?_,
    meetingPointsBy_ordered⟩
  · obtain ⟨q, hq, stands⟩ := exists_kept moves hp
    have near : q.near p = true := by
      rcases stands with rfl | near
      · exact Point.near_self_of_finite hfinite
      · exact near
    exact ⟨q, hq, near, Point.within_of_near near⟩
  · obtain ⟨q, hq, rfl | near⟩ := exists_kept moves hp
    · exact hq
    · exact absurd (Point.within_of_near near).1.2 infinite
  · refine (meetingPointsBy_apart Point.near_comm).imp fun {p q} far => ⟨far, fun within => ?_⟩
    rw [Point.near_of_within within] at far
    cases far

/-- Three gates of which the middle one is near both others, which are not near each other. -/
def closeGates : Boundary Float :=
  [[⟨5e-10, -1⟩, ⟨5e-10, 1⟩], [⟨0, -1⟩, ⟨0, 1⟩], [⟨1.45e-9, -1⟩, ⟨1.45e-9, 1⟩]]

theorem meetingPointsBy_distinct_closeGates :
    (⟨-1, 0⟩ : Point Float).same ⟨1, 0⟩ = false ∧
      Represents ⟨-1, 0⟩ (IsReported Edge.meet? ⟨⟨-1, 0⟩, ⟨1, 0⟩⟩ closeGates)
        (meetingPointsBy Edge.meet? ⟨-1, 0⟩ ⟨1, 0⟩ closeGates) := by
  have moves : (⟨-1, 0⟩ : Point Float).same ⟨1, 0⟩ = false := by decide +kernel
  exact ⟨moves, meetingPointsBy_distinct Edge.meet? moves closeGates⟩

/-! ### Points that are kept beside equal or close ones -/

/-- A point that is infinitely far east. -/
def farPoint : Point Float := ⟨1 / 0, 0⟩

instance (t : ℚ) (p q : Point Float) : Decidable (p.Within t q) :=
  inferInstanceAs (Decidable (_ ∧ _))

/-- Two posts less than `1 / 10 ^ 9` degrees apart, though their rounded difference is no less. -/
def posts : Boundary Float := [[⟨8e-26, 0⟩, ⟨8e-26, 1⟩], [⟨1e-9, 0⟩, ⟨1e-9, 1⟩]]

/-- An infinite point is kept each time, for it is near nothing, and points that are apart only by
the rounding of their difference are both kept. -/
theorem farPoint_kept_twice_and_posts_kept :
    (IsReported Edge.meet? ⟨⟨0, 0⟩, farPoint⟩ [[farPoint, farPoint]] farPoint ∧
      meetingPoints ⟨0, 0⟩ farPoint [[farPoint, farPoint]] = [farPoint, farPoint] ∧
      farPoint.near farPoint = false) ∧
    ∃ p q : Point Float, (meetingPoints ⟨-1, 0⟩ ⟨1, 0⟩ posts).Perm [p, q] ∧
      p.Within (1 / 10 ^ 9) q := by
  have moves : (⟨0, 0⟩ : Point Float).same farPoint = false := by decide +kernel
  have far : distinctPoints (Edge.contacts ⟨⟨0, 0⟩, farPoint⟩ [[farPoint, farPoint]]) =
      [farPoint, farPoint] := by decide +kernel
  have moves' : (⟨-1, 0⟩ : Point Float).same ⟨1, 0⟩ = false := by decide +kernel
  have close : distinctPoints (Edge.contacts ⟨⟨-1, 0⟩, ⟨1, 0⟩⟩ posts) =
      [⟨8e-26, 0⟩, ⟨1e-9, 0⟩] := by decide +kernel
  -- distances from the start are not known, but two equal points have one order only
  have twice : meetingPoints ⟨0, 0⟩ farPoint [[farPoint, farPoint]] = [farPoint, farPoint] := by
    rw [meetingPoints_eq moves, far, sortByDistance]
    exact (List.perm_replicate (n := 2)).mp (List.mergeSort_perm [farPoint, farPoint] _)
  have mem : farPoint ∈ meetingPoints ⟨0, 0⟩ farPoint [[farPoint, farPoint]] := by
    rw [twice]
    exact List.mem_cons_self
  refine ⟨⟨isReported_of_mem mem, twice, by decide +kernel⟩,
    ⟨8e-26, 0⟩, ⟨1e-9, 0⟩, ?_, by decide +kernel⟩
  rw [meetingPoints_eq moves', close, sortByDistance]
  exact List.mergeSort_perm _ _

end Geotrack
