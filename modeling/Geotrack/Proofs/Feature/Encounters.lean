import Mathlib.Data.List.Forall2
import Geotrack.Feature.Approach
import Geotrack.Proofs.Plane.Contacts
import Geotrack.Proofs.Plane.Touching
import Geotrack.Proofs.Track.Order

/-!
# Encounters

Each leg of each trajectory encounters each feature, in this order, and `approaches` gives one
approach for each encounter that is not lost. A leg at rest is lost on a shape that does not cover
it and has nothing but edges without length. A leg that meets the outline of a feature comes to
distance zero at the first point where it does.
-/

namespace Geotrack

open Binary64

/-- A leg of a subject and a feature that it passes. -/
structure Encounter (K : Type) where
  subject : Uuid
  leg : Leg K
  feature : Feature K

/-- The encounters of some trajectories with some features. -/
def encounters {K : Type} (features : List (Feature K)) (trajectories : List (Trajectory K)) :
    List (Encounter K) :=
  trajectories.flatMap fun t =>
    t.legs.flatMap fun leg =>
      features.map fun feature => ⟨t.subject, leg, feature⟩

theorem approaches_eq {K : Type} [Scalar K] (features : List (Feature K))
    (trajectories : List (Trajectory K)) :
    approaches features trajectories = (encounters features trajectories).filterMap fun e =>
      e.leg.approach? e.subject e.feature := by
  simp only [approaches, encounters, List.filterMap_flatMap, List.filterMap_map]
  rfl

/-! ### Candidates -/

namespace Candidate

variable {K : Type} [Scalar K] {shape : Shape K} {p : Point K} {edge : Edge K}

theorem ofEnd?_eq_none_iff : ofEnd? shape p = none ↔ shape.nearest p = .none := by
  rw [ofEnd?]
  cases shape.nearest p <;> simp

theorem ofEnd?_of_touching (h : (shape.nearest p).IsTouching) :
    ofEnd? shape p = some ⟨p, Scalar.zero⟩ := by
  rw [ofEnd?]
  cases hn : shape.nearest p with
  | touching q => rfl
  | _ => rw [hn] at h; cases h

theorem ofVertex?_eq_none_iff : ofVertex? edge p = none ↔ edge.hasLength = false := by
  refine Iff.trans (b := edge.nearest p = .none) ?_ Edge.nearest_eq_none_iff
  rw [ofVertex?, Option.map_eq_none_iff]
  cases edge.nearest p <;> simp [Nearest.point?]

theorem best?_eq_none_iff {candidates : List (Candidate K)} :
    best? candidates = none ↔ candidates = [] := by
  cases candidates <;> simp [best?]

end Candidate

namespace Leg

variable {K : Type} [Scalar K]

/-- Whether the leg ends where it starts. -/
def rests (leg : Leg K) : Bool := leg.start.point.same leg.finish.point

/-- Whether a leg at rest is lost on a shape: the shape does not cover it and has neither points
that stand by themselves nor edges with a length. -/
def isLost (leg : Leg K) (shape : Shape K) : Bool :=
  leg.rests && shape.spots.isEmpty && shape.edges.all (!·.hasLength) &&
    !shape.covers leg.start.point && !shape.covers leg.finish.point

variable {leg : Leg K} {shape : Shape K}

theorem closest?_of_apart (h : meetingPoints leg.start.point leg.finish.point shape.outline = []) :
    leg.closest? shape = Candidate.best?
      ([leg.start.point, leg.finish.point].filterMap (Candidate.ofEnd? shape) ++
        shape.vertices.filterMap (Candidate.ofVertex? leg.edge)) := by
  rw [closest?, h]
  rfl

theorem isLost_iff : leg.isLost shape = true ↔ leg.rests = true ∧
    shape.nearest leg.start.point = .none ∧ shape.nearest leg.finish.point = .none := by
  simp only [isLost, Shape.nearest_eq_none_iff, Bool.and_eq_true, List.isEmpty_iff,
    List.all_eq_true, Bool.not_eq_true']
  tauto

/-- A leg comes near a shape with vertices unless it is lost on it. -/
theorem closest?_eq_none_iff (length : leg.edge.hasLength = !leg.rests)
    (vertices : shape.vertices ≠ []) : leg.closest? shape = none ↔ leg.isLost shape = true := by
  rw [isLost_iff]
  constructor
  · intro none
    have apart : meetingPoints leg.start.point leg.finish.point shape.outline = [] := by
      rw [closest?] at none
      split at none
      · cases none
      · assumption
    rw [closest?_of_apart apart, Candidate.best?_eq_none_iff, List.append_eq_nil_iff,
      List.filterMap_eq_nil_iff, List.filterMap_eq_nil_iff] at none
    obtain ⟨ends, vertex⟩ := none
    simp only [List.forall_mem_cons, Candidate.ofEnd?_eq_none_iff] at ends
    obtain ⟨v, hv⟩ := List.exists_mem_of_ne_nil _ vertices
    have still := Candidate.ofVertex?_eq_none_iff.mp (vertex v hv)
    rw [length, Bool.not_eq_false'] at still
    exact ⟨still, ends.1, ends.2.1⟩
  · rintro ⟨still, start, finish⟩
    have short : leg.edge.hasLength = false := by rw [length, still]; rfl
    rw [closest?_of_apart (meetingPoints_of_same still), Candidate.best?_eq_none_iff,
      List.append_eq_nil_iff, List.filterMap_eq_nil_iff, List.filterMap_eq_nil_iff]
    simp only [List.forall_mem_cons, Candidate.ofEnd?_eq_none_iff, Candidate.ofVertex?_eq_none_iff]
    exact ⟨⟨start, finish, by simp⟩, fun _ _ => short⟩

/-- A leg that meets the outline comes to distance zero at the first meeting point. -/
theorem closest?_of_meeting {p : Point K} {rest : List (Point K)}
    (h : meetingPoints leg.start.point leg.finish.point shape.outline = p :: rest) :
    leg.closest? shape = some ⟨p, Scalar.zero⟩ := by
  rw [closest?, h]

/-- A leg at rest that touches the shape comes to distance zero where it rests. -/
theorem closest?_of_touching (still : leg.rests = true) (short : leg.edge.hasLength = false)
    (irrefl : Scalar.lt (Scalar.zero : K) Scalar.zero = false)
    (start : (shape.nearest leg.start.point).IsTouching)
    (finish : (shape.nearest leg.finish.point).IsTouching) :
    leg.closest? shape = some ⟨leg.start.point, Scalar.zero⟩ := by
  have vertices : shape.vertices.filterMap (Candidate.ofVertex? leg.edge) = [] :=
    List.filterMap_eq_nil_iff.mpr fun _ _ => Candidate.ofVertex?_eq_none_iff.mpr short
  rw [closest?_of_apart (meetingPoints_of_same still), vertices]
  simp [Candidate.ofEnd?_of_touching start, Candidate.ofEnd?_of_touching finish, Candidate.best?,
    irrefl]

end Leg

/-- Whether an edge with a length of the outline of a shape holds a point. -/
def Shape.OutlineHolds (shape : Shape Float) (p : Point Float) : Prop :=
  ∃ e ∈ Boundary.edges shape.outline, e.IsFinite ∧ e.hasLength = true ∧ e.holds p = true

theorem Shape.OutlineHolds.isTouching {shape : Shape Float} {p : Point Float}
    (h : shape.OutlineHolds p) (hp : p.IsFinite) : (shape.nearest p).IsTouching := by
  obtain ⟨e, he, hfinite, length, holds⟩ := h
  refine nearest_of_part (Nearest.lasting_isTouching p) shape (.inr (.inl ⟨e, ?_, ?_⟩))
  · exact shape.outline_edges_subset he
  · exact Edge.isTouching_nearest hfinite hp length holds

/-- What an approach tells of an encounter: who passed which feature, where and how fast. Where the
leg meets the outline of the feature the distance is zero, at a contact that no other one comes
before. -/
structure Encounter.Told (e : Encounter Float) (a : Approach Float) : Prop where
  subject : a.subject = e.subject
  feature : a.featureId = e.feature.id ∧ a.featureName = e.feature.name
  leg : a.speed = e.leg.speed ∧ a.heading = e.leg.heading ∧ a.fix = e.leg.fixAt a.fix.point
  meeting : e.leg.rests = false → e.leg.edge.contacts e.feature.shape.outline ≠ [] →
    a.distanceMeters = Scalar.zero ∧
    a.fix.point ∈ e.leg.edge.contacts e.feature.shape.outline ∧
    ∀ q ∈ e.leg.edge.contacts e.feature.shape.outline,
      ∃ r ∈ e.leg.edge.contacts e.feature.shape.outline,
        r.StandsFor q ∧ e.leg.start.point.Precedes a.fix.point r
  resting : e.leg.rests = true → e.feature.shape.OutlineHolds e.leg.start.point →
    e.feature.shape.OutlineHolds e.leg.finish.point →
    a.distanceMeters = Scalar.zero ∧ a.fix.point = e.leg.start.point

section Told

variable {e : Encounter Float} {a : Approach Float} (finite : e.leg.edge.IsFinite)
include finite

theorem Encounter.told (h : e.leg.approach? e.subject e.feature = some a) : e.Told a := by
  obtain ⟨c, hc, rfl⟩ := Option.map_eq_some_iff.mp h
  refine ⟨rfl, ⟨rfl, rfl⟩, ⟨rfl, rfl, rfl⟩, fun moves meets => ?_, fun rests start finish => ?_⟩
  · rw [ne_eq, Leg.edge, ← meetingPoints_eq_nil_iff moves] at meets
    obtain ⟨p, rest, first⟩ := List.exists_cons_of_ne_nil meets
    rw [Leg.closest?_of_meeting first] at hc
    cases hc
    exact ⟨rfl, meetingPoints_first moves first⟩
  · have short : e.leg.edge.hasLength = false := by
      rw [Edge.hasLength_eq finite]
      exact congrArg (!·) rests
    rw [Leg.closest?_of_touching rests short (by decide +kernel) (start.isTouching finite.1)
      (finish.isTouching finite.2)] at hc
    cases hc
    exact ⟨rfl, rfl⟩

theorem Encounter.approach?_eq_none_iff (vertices : e.feature.shape.vertices ≠ []) :
    e.leg.approach? e.subject e.feature = none ↔ e.leg.isLost e.feature.shape = true := by
  rw [Leg.approach?, Option.map_eq_none_iff]
  exact Leg.closest?_eq_none_iff (Edge.hasLength_eq finite) vertices

end Told

/-- The values of a partial function that has none for just the elements that are skipped. -/
theorem forall₂_filter_filterMap {α β : Type} {R : α → β → Prop} {f : α → Option β}
    {skip : α → Bool} {xs : List α} (skipped : ∀ x ∈ xs, f x = none ↔ skip x = true)
    (mapped : ∀ x ∈ xs, ∀ y, f x = some y → R x y) :
    List.Forall₂ R (xs.filter (!skip ·)) (xs.filterMap f) := by
  induction xs with
  | nil => exact .nil
  | cons x rest ih =>
    obtain ⟨hskip, skipped⟩ := List.forall_mem_cons.mp skipped
    obtain ⟨hmap, mapped⟩ := List.forall_mem_cons.mp mapped
    have ih := ih skipped mapped
    cases hx : f x with
    | none =>
      rw [List.filterMap_cons_none hx, List.filter_cons_of_neg (by simp [hskip.mp hx])]
      exact ih
    | some y =>
      have kept : skip x = false := by simpa [hx] using hskip
      rw [List.filterMap_cons_some hx, List.filter_cons_of_pos (by simp [kept])]
      exact .cons (hmap y hx) ih

/-- Each encounter that is not lost has one approach, in the order of the encounters. -/
theorem approaches_told (features : List (Feature Float)) (trajectories : List (Trajectory Float))
    (vertices : ∀ feature ∈ features, feature.shape.vertices ≠ [])
    (finite : ∀ t ∈ trajectories, ∀ fix ∈ t.fixes, fix.point.IsFinite) :
    List.Forall₂ Encounter.Told
      ((encounters features trajectories).filter fun e => !e.leg.isLost e.feature.shape)
      (approaches features trajectories) := by
  have known : ∀ e ∈ encounters features trajectories,
      e.leg.edge.IsFinite ∧ e.feature.shape.vertices ≠ [] := by
    intro e he
    obtain ⟨t, ht, he⟩ := List.mem_flatMap.mp he
    obtain ⟨leg, hleg, he⟩ := List.mem_flatMap.mp he
    obtain ⟨feature, hfeature, rfl⟩ := List.mem_map.mp he
    obtain ⟨start, finish⟩ := Leg.ends_mem leg hleg
    exact ⟨⟨finite t ht _ start, finite t ht _ finish⟩, vertices feature hfeature⟩
  rw [approaches_eq]
  refine forall₂_filter_filterMap (fun e he => ?_) (fun e he a => ?_)
  · exact Encounter.approach?_eq_none_iff (known e he).1 (known e he).2
  · exact Encounter.told (known e he).1

/-- A trail that is drawn with one position twice. -/
def trail : Feature Float := ⟨"trail", "Trail", .path [⟨36.8, -1.3⟩, ⟨36.8, -1.3⟩]⟩

def waterhole : Feature Float := ⟨"waterhole", "Water hole", .point ⟨36.8, -1.2⟩⟩

/-- An hour at the trail. -/
def restingLeg : Leg Float := ⟨⟨⟨36.8, -1.3⟩, .epoch⟩, ⟨⟨36.8, -1.3⟩, .ofNanos 3600000000000⟩⟩

def restingTrack : Trajectory Float := ⟨.nil, [restingLeg.start, restingLeg.finish], by decide⟩

theorem restingTrack_finite :
    ∀ t ∈ [restingTrack], ∀ fix ∈ t.fixes, fix.point.IsFinite := by
  decide +kernel

/-- Of the trail and the water hole only the water hole is approached. -/
theorem approaches_told_restingTrack : List.Forall₂ Encounter.Told
    [⟨.nil, restingLeg, waterhole⟩] (approaches [trail, waterhole] [restingTrack]) := by
  have vertices : ∀ feature ∈ [trail, waterhole], feature.shape.vertices ≠ [] := by
    simp [trail, waterhole, Shape.vertices]
  have lost : restingLeg.isLost trail.shape = true ∧ restingLeg.isLost waterhole.shape = false := by
    decide +kernel
  have kept : (encounters [trail, waterhole] [restingTrack]).filter
      (fun e => !e.leg.isLost e.feature.shape) = [⟨.nil, restingLeg, waterhole⟩] := by
    change [Encounter.mk _ restingLeg trail, ⟨.nil, restingLeg, waterhole⟩].filter _ = _
    simp [lost]
  exact kept ▸ approaches_told [trail, waterhole] [restingTrack] vertices restingTrack_finite

/-- A leg that rests on a trail drawn with one position twice encounters it, and there is no
approach. -/
theorem restingTrack_misses_trail : trail.shape.vertices ≠ [] ∧
    (∀ fix ∈ restingTrack.fixes, fix.point.IsFinite) ∧
    (encounters [trail] [restingTrack]).length = 1 ∧ approaches [trail] [restingTrack] = [] := by
  have vertices : trail.shape.vertices ≠ [] := by simp [trail, Shape.vertices]
  have finite := restingTrack_finite restingTrack (by simp)
  refine ⟨vertices, finite, rfl, ?_⟩
  have none := (Encounter.approach?_eq_none_iff (e := ⟨.nil, restingLeg, trail⟩)
    ⟨finite restingLeg.start (by simp [restingTrack]),
      finite restingLeg.finish (by simp [restingTrack])⟩ vertices).mpr (by decide +kernel)
  rw [approaches_eq]
  exact List.filterMap_eq_nil_iff.mpr (List.forall_mem_singleton.mpr none)

end Geotrack
