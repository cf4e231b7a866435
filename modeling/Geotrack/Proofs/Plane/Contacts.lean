import Mathlib.Data.List.Nodup
import Geotrack.Fence.Crossing

/-!
# Contacts and meeting points

The contacts of an edge with a boundary are the points that `Edge.meet?` reports; for exact numbers
`Edge.contacts_eq_nil_iff` tells when there are any. The meeting points of a segment are contacts of
it in the order of their distances from its start, and each contact is one of them or near one.
-/

namespace Geotrack

variable {K : Type} [Scalar K]

/-- Numbers that their order for sorting orders. -/
class Scalar.Sorts (K : Type) [Scalar K] : Prop where
  trans : ∀ a b c : K, sortKeyLe a b = true → sortKeyLe b c = true → sortKeyLe a c = true
  total : ∀ a b : K, sortKeyLe a b = true ∨ sortKeyLe b a = true

instance : Scalar.Sorts Float where
  trans _ _ _ h h' := decide_eq_true (Int.le_trans (of_decide_eq_true h) (of_decide_eq_true h'))
  total a b := by simpa [Scalar.sortKeyLe] using Int.le_total _ _

namespace Point

/-- Whether a point is sorted before another one, or as far from the start as that. -/
def Precedes (start p q : Point K) : Prop :=
  Scalar.sortKeyLe (distanceMeters start p) (distanceMeters start q) = true

theorem Precedes.refl [Scalar.Sorts K] (start p : Point K) : Precedes start p p :=
  (Scalar.Sorts.total (distanceMeters start p) (distanceMeters start p)).elim id id

/-- Whether a point that is kept stands for another one. -/
def StandsFor (p q : Point K) : Prop := p = q ∨ p.near q = true

end Point

/-! ### Distinct points -/

section Distinct

variable {kept points : List (Point K)} {p q : Point K}

theorem mem_addDistinct (h : q ∈ addDistinct kept p) : q ∈ kept ∨ q = p := by
  rw [addDistinct] at h
  split at h
  · exact .inl h
  · simpa using h

theorem subset_addDistinct : kept ⊆ addDistinct kept p := by
  rw [addDistinct]
  split
  · exact List.Subset.refl kept
  · exact List.subset_append_left kept [p]

theorem standsFor_addDistinct (kept : List (Point K)) (p : Point K) :
    ∃ q ∈ addDistinct kept p, q.StandsFor p := by
  rw [addDistinct]
  split
  case isTrue h =>
    obtain ⟨q, hq, near⟩ := List.any_eq_true.mp h
    exact ⟨q, hq, .inr near⟩
  case isFalse => exact ⟨p, by simp, .inl rfl⟩

theorem mem_of_mem_distinctPoints (h : p ∈ distinctPoints points) : p ∈ points := by
  have fold (kept points : List (Point K)) (h : p ∈ points.foldl addDistinct kept) :
      p ∈ kept ∨ p ∈ points := by
    induction points generalizing kept with
    | nil => exact .inl h
    | cons q rest ih =>
      rcases ih (addDistinct kept q) h with h | h
      · rcases mem_addDistinct h with h | rfl
        · exact .inl h
        · exact .inr List.mem_cons_self
      · exact .inr (List.mem_cons_of_mem q h)
  simpa using fold [] points h

/-- Each point of a list is kept, or one that stands for it is. -/
theorem exists_standsFor (h : p ∈ points) : ∃ q ∈ distinctPoints points, q.StandsFor p := by
  have fold (kept points : List (Point K)) (h : p ∈ points ∨ ∃ q ∈ kept, q.StandsFor p) :
      ∃ q ∈ points.foldl addDistinct kept, q.StandsFor p := by
    induction points generalizing kept with
    | nil => simpa using h
    | cons r rest ih =>
      refine ih (addDistinct kept r) ?_
      rcases h with h | ⟨q, hq, stands⟩
      · rcases List.mem_cons.mp h with rfl | h
        · exact .inr (standsFor_addDistinct kept p)
        · exact .inl h
      · exact .inr ⟨q, subset_addDistinct hq, stands⟩
  exact fold [] points (.inl h)

/-- No point is kept twice where each is near itself. -/
theorem distinctPoints_nodup (near_self : ∀ p ∈ points, p.near p = true) :
    (distinctPoints points).Nodup := by
  have fold (kept points : List (Point K)) (near_self : ∀ p ∈ points, p.near p = true)
      (h : kept.Nodup) : (points.foldl addDistinct kept).Nodup := by
    induction points generalizing kept with
    | nil => exact h
    | cons p rest ih =>
      obtain ⟨hp, hrest⟩ := List.forall_mem_cons.mp near_self
      refine ih (addDistinct kept p) hrest ?_
      rw [addDistinct]
      split
      case isTrue => exact h
      case isFalse hnot =>
        rw [← List.concat_eq_append, List.nodup_concat]
        exact ⟨fun hmem => hnot (List.any_eq_true.mpr ⟨p, hmem, hp⟩), h⟩
  exact fold [] points near_self List.nodup_nil

theorem sortByDistance_ordered [Scalar.Sorts K] (start : Point K) (points : List (Point K)) :
    (sortByDistance start points).Pairwise start.Precedes := by
  rw [sortByDistance]
  refine List.pairwise_mergeSort ?_ ?_ points
  · exact fun p q r => Scalar.Sorts.trans _ _ _
  · exact fun p q => (Bool.or_eq_true _ _).mpr (Scalar.Sorts.total _ _)

theorem mem_sortByDistance {start : Point K} : p ∈ sortByDistance start points ↔ p ∈ points :=
  (List.mergeSort_perm points _).mem_iff

end Distinct

/-! ### Meeting points -/

/-- The points that an edge is reported to have in common with the edges of a boundary. -/
def Edge.contacts (d : Edge K) (boundary : Boundary K) : List (Point K) :=
  boundary.edges.flatMap fun e => ((d.meet? e).map Meeting.points).getD []

section Meeting

variable {start finish p q : Point K} {boundary : Boundary K}

theorem meetingPoints_eq (moves : start.same finish = false) : meetingPoints start finish boundary =
    sortByDistance start (distinctPoints (Edge.contacts ⟨start, finish⟩ boundary)) :=
  if_neg (by simp [moves])

theorem meetingPoints_of_same (rests : start.same finish = true) :
    meetingPoints start finish boundary = [] :=
  if_pos rests

theorem meetingPoints_ordered [Scalar.Sorts K] :
    (meetingPoints start finish boundary).Pairwise start.Precedes := by
  cases h : start.same finish with
  | true => simp [meetingPoints_of_same h]
  | false =>
    rw [meetingPoints_eq h]
    exact sortByDistance_ordered start _

theorem meetingPoints_nodup (near_self : ∀ p : Point K, p.near p = true) :
    (meetingPoints start finish boundary).Nodup := by
  cases h : start.same finish with
  | true => simp [meetingPoints_of_same h]
  | false =>
    rw [meetingPoints_eq h]
    exact (List.mergeSort_perm _ _).nodup_iff.mpr (distinctPoints_nodup fun p _ => near_self p)

theorem mem_contacts_of_mem_meetingPoints (h : p ∈ meetingPoints start finish boundary) :
    p ∈ Edge.contacts ⟨start, finish⟩ boundary := by
  cases same : start.same finish with
  | true => simp [meetingPoints_of_same same] at h
  | false =>
    rw [meetingPoints_eq same, mem_sortByDistance] at h
    exact mem_of_mem_distinctPoints h

theorem exists_meetingPoint (moves : start.same finish = false)
    (h : p ∈ Edge.contacts ⟨start, finish⟩ boundary) :
    ∃ q ∈ meetingPoints start finish boundary, q.StandsFor p := by
  obtain ⟨q, hq, stands⟩ := exists_standsFor h
  exact ⟨q, by rwa [meetingPoints_eq moves, mem_sortByDistance], stands⟩

/-- The first meeting point is a contact, and none that stands for a contact is nearer to the
start. -/
theorem meetingPoints_first [Scalar.Sorts K] {rest : List (Point K)}
    (moves : start.same finish = false) (h : meetingPoints start finish boundary = p :: rest) :
    p ∈ Edge.contacts ⟨start, finish⟩ boundary ∧
      ∀ q ∈ Edge.contacts ⟨start, finish⟩ boundary,
        ∃ r ∈ Edge.contacts ⟨start, finish⟩ boundary, r.StandsFor q ∧ start.Precedes p r := by
  refine ⟨mem_contacts_of_mem_meetingPoints (h ▸ List.mem_cons_self), fun q hq => ?_⟩
  obtain ⟨r, hr, stands⟩ := exists_meetingPoint moves hq
  refine ⟨r, mem_contacts_of_mem_meetingPoints hr, stands, ?_⟩
  have ordered : (meetingPoints start finish boundary).Pairwise start.Precedes :=
    meetingPoints_ordered
  rw [h] at hr ordered
  rcases List.mem_cons.mp hr with rfl | hr
  · exact .refl start r
  · exact List.rel_of_pairwise_cons ordered hr

theorem meetingPoints_eq_nil_iff (moves : start.same finish = false) :
    meetingPoints start finish boundary = [] ↔ Edge.contacts ⟨start, finish⟩ boundary = [] := by
  constructor <;> intro h <;> refine List.eq_nil_iff_forall_not_mem.mpr fun p hp => ?_
  · obtain ⟨q, hq, -⟩ := exists_meetingPoint moves hp
    simp [h] at hq
  · simpa [h] using mem_contacts_of_mem_meetingPoints hp

end Meeting

/-! ### Legs -/

namespace Leg

/-- The leg as an edge. -/
def edge {K : Type} (leg : Leg K) : Edge K := ⟨leg.start.point, leg.finish.point⟩

/-- Where a leg crosses a boundary it meets it. -/
theorem crossingPoints_eq_or (leg : Leg K) (boundary : Boundary K) :
    leg.crossingPoints boundary = [] ∨
      leg.crossingPoints boundary = meetingPoints leg.start.point leg.finish.point boundary := by
  rw [crossingPoints]
  exact ite_eq_or_eq _ _ _

theorem crossingPoints_ordered [Scalar.Sorts K] (leg : Leg K) (boundary : Boundary K) :
    (leg.crossingPoints boundary).Pairwise leg.start.point.Precedes := by
  rcases leg.crossingPoints_eq_or boundary with h | h <;> rw [h]
  exacts [.nil, meetingPoints_ordered]

end Leg

end Geotrack
