import Geotrack.Proofs.Geodesy.Outward
import Geotrack.Proofs.Plane.Meeting
import Geotrack.Proofs.Track.Order

/-!
# Positions of crossings

The crossings of a fence by a leg are ordered by the distance of their points from the start of the
leg, and the share told of each is its distance by the length of the leg. Where the leg leads
outward this is the order along the leg, and the shares are at most one.
-/

namespace Geotrack

open Real

instance : Scalar.Sorts ℝ where
  trans _ _ _ h h' := decide_eq_true ((of_decide_eq_true h).trans (of_decide_eq_true h'))
  total a b := by simpa [Scalar.sortKeyLe] using le_total _ _

variable {leg : Leg ℝ} {boundary : Boundary ℝ} {p q start finish : Point ℝ}

theorem Point.precedes_iff :
    start.Precedes p q ↔ distanceMeters start p ≤ distanceMeters start q :=
  decide_eq_true_iff

/-- Points at increasing distances are the sorted form of any order of them. -/
theorem sortByDistance_eq {points sorted : List (Point ℝ)} (perm : sorted.Perm points)
    (increasing : sorted.Pairwise fun p q => distanceMeters start p < distanceMeters start q) :
    sortByDistance start points = sorted := by
  have apart : (sorted.map (distanceMeters start)).Nodup :=
    List.pairwise_map.mpr (increasing.imp fun h => h.ne)
  have back : (sortByDistance start points).Perm sorted :=
    (List.mergeSort_perm points _).trans perm.symm
  refine back.eq_of_pairwise ?_ (sortByDistance_ordered start points)
    (increasing.imp fun h => Point.precedes_iff.mpr h.le)
  intro p q hp hq hpq hqp
  rw [Point.precedes_iff] at hpq hqp
  exact List.inj_on_of_nodup_map apart (back.mem_iff.mp hp) hq (le_antisymm hpq hqp)

/-! ### Points in order along an edge -/

theorem Edge.exists_shares {e : Edge ℝ} {points : List (Point ℝ)}
    (h : ∀ p ∈ points, ∃ s, 0 ≤ s ∧ s ≤ 1 ∧ p = e.pointAt s) :
    ∃ shares : List ℝ, (∀ s ∈ shares, 0 ≤ s ∧ s ≤ 1) ∧ points = shares.map e.pointAt := by
  induction points with
  | nil => exact ⟨[], by simp, rfl⟩
  | cons p rest ih =>
    obtain ⟨⟨s, h0, h1, rfl⟩, hrest⟩ := List.forall_mem_cons.mp h
    obtain ⟨shares, unit, rfl⟩ := ih hrest
    exact ⟨s :: shares, List.forall_mem_cons.mpr ⟨⟨h0, h1⟩, unit⟩, rfl⟩

/-- On an edge that leads outward, different points by distance from the start are in the order of
their shares. -/
theorem Edge.Outward.shares_increase {e : Edge ℝ} (outward : e.Outward) {shares : List ℝ}
    (unit : ∀ s ∈ shares, 0 ≤ s ∧ s ≤ 1) (distinct : (shares.map e.pointAt).Nodup)
    (ordered : (shares.map e.pointAt).Pairwise e.start.Precedes) : shares.Pairwise (· < ·) := by
  have both := (List.pairwise_map.mp ordered).and (List.pairwise_map.mp distinct)
  refine both.imp_of_mem fun {s t} hs ht ⟨before, different⟩ => ?_
  rw [Point.precedes_iff] at before
  rcases lt_trichotomy s t with hlt | rfl | hgt
  · exact hlt
  · exact absurd rfl different
  · exact absurd (outward t s (unit t ht).1 hgt (unit s hs).2) before.not_gt

/-! ### Crossings of one fence -/

namespace Leg

/-- Where the crossings of a fence are on a leg. -/
structure Positions (leg : Leg ℝ) (block : List (Crossing ℝ)) : Prop where
  onLeg : ∀ c ∈ block, ∃ s, 0 ≤ s ∧ s ≤ 1 ∧ c.fix.point = leg.edge.pointAt s
  nonneg : ∀ c ∈ block, 0 ≤ c.fraction
  within : ∀ c ∈ block, c.fraction ≤ 1 ↔ leg.lengthMeters = 0 ∨
    distanceMeters leg.start.point c.fix.point ≤ leg.lengthMeters
  byDistance : block.Pairwise fun c d => c.fraction ≤ d.fraction ∧
    distanceMeters leg.start.point c.fix.point ≤ distanceMeters leg.start.point d.fix.point
  outward : leg.edge.Outward → (∀ c ∈ block, c.fraction ≤ 1) ∧
    ∃ shares : List ℝ, (∀ s ∈ shares, 0 ≤ s ∧ s ≤ 1) ∧ shares.Pairwise (· < ·) ∧
      block.map (·.fix.point) = shares.map leg.edge.pointAt

theorem fractionAt_eq (leg : Leg ℝ) (p : Point ℝ) : leg.fractionAt p =
    if leg.lengthMeters = 0 then 0 else distanceMeters leg.start.point p / leg.lengthMeters := by
  have length : 0 ≤ leg.lengthMeters := distanceMeters_nonneg _ _
  have none : leg.lengthMeters ≤ 0 ↔ leg.lengthMeters = 0 :=
    ⟨fun h => le_antisymm h length, fun h => h.le⟩
  simp [fractionAt, fractionAlong, Scalar.le, Scalar.zero, Scalar.ofInt, Scalar.finite, none]

theorem fractionAt_nonneg (leg : Leg ℝ) (p : Point ℝ) : 0 ≤ leg.fractionAt p := by
  rw [fractionAt_eq]
  split
  · exact le_rfl
  · exact div_nonneg (distanceMeters_nonneg _ _) (distanceMeters_nonneg _ _)

theorem fractionAt_le_one_iff : leg.fractionAt p ≤ 1 ↔ leg.lengthMeters = 0 ∨
    distanceMeters leg.start.point p ≤ leg.lengthMeters := by
  rw [fractionAt_eq]
  split
  case isTrue h => simp [h]
  case isFalse h =>
    have length : 0 < leg.lengthMeters := lt_of_le_of_ne (distanceMeters_nonneg _ _) (Ne.symm h)
    simp [h, div_le_one length]

theorem fractionAt_mono (h : distanceMeters leg.start.point p ≤ distanceMeters leg.start.point q) :
    leg.fractionAt p ≤ leg.fractionAt q := by
  rw [fractionAt_eq, fractionAt_eq]
  split
  · exact le_rfl
  · exact div_le_div_of_nonneg_right h (distanceMeters_nonneg _ _)

theorem crossings_position (leg : Leg ℝ) (subject : Uuid) (fence : Fence ℝ)
    (index : RegionIndex ℝ) :
    Positions leg (leg.crossings subject fence index) := by
  have onLeg : ∀ p ∈ leg.crossingPoints fence.boundary,
      ∃ s, 0 ≤ s ∧ s ≤ 1 ∧ p = leg.edge.pointAt s := by
    intro p hp
    rcases leg.crossingPoints_eq_or fence.boundary with h | h <;> rw [h] at hp
    · cases hp
    · exact Edge.holds_iff.mp (Edge.holds_of_contact (mem_contacts_of_mem_meetingPoints hp))
  have distinct : (leg.crossingPoints fence.boundary).Nodup := by
    rcases leg.crossingPoints_eq_or fence.boundary with h | h <;> rw [h]
    exacts [.nil, meetingPoints_nodup Point.near_self]
  have ordered := leg.crossingPoints_ordered fence.boundary
  refine ⟨?_, ?_, ?_, ?_, fun outward => ⟨?_, ?_⟩⟩
  · exact List.forall_mem_map.mpr onLeg
  · exact List.forall_mem_map.mpr fun p _ => leg.fractionAt_nonneg p
  · exact List.forall_mem_map.mpr fun p _ => fractionAt_le_one_iff
  · refine List.pairwise_map.mpr (ordered.imp fun {p q} before => ?_)
    rw [Point.precedes_iff] at before
    exact ⟨fractionAt_mono before, before⟩
  · refine List.forall_mem_map.mpr fun p hp => fractionAt_le_one_iff.mpr (.inr ?_)
    obtain ⟨s, h0, h1, rfl⟩ := onLeg p hp
    rw [lengthMeters, show leg.finish.point = leg.edge.pointAt 1 from leg.edge.pointAt_one.symm]
    rcases h1.eq_or_lt with rfl | h1
    · exact le_rfl
    · exact (outward s 1 h0 h1 le_rfl).le
  · obtain ⟨shares, unit, points⟩ := Edge.exists_shares onLeg
    rw [points] at distinct ordered
    refine ⟨shares, unit, outward.shares_increase unit distinct ordered, ?_⟩
    rw [Leg.crossings, List.map_map, ← points]
    exact List.map_id _

end Leg

/-- The crossings of each fence by each leg are on the leg, by their distance from its start, and
their fractions are in the same order. Along a leg that leads outward they come one after the other
and within its length, and every leg that spans at most a quarter of the longitudes does so. -/
theorem crossings_positions (fences : List (Fence ℝ)) (regions : List (Region ℝ))
    (trajectories : List (Trajectory ℝ))
    (valid : ∀ t ∈ trajectories, ∀ fix ∈ t.fixes, fix.point.isValid = true) :
    crossings fences regions trajectories =
      (trajectories.flatMap fun t => t.legs.flatMap fun leg => fences.flatMap fun fence =>
        leg.crossings t.subject fence (.ofRegions regions)) ∧
    ∀ t ∈ trajectories, ∀ leg ∈ t.legs,
      (∀ fence ∈ fences, leg.Positions (leg.crossings t.subject fence (.ofRegions regions))) ∧
      (leg.edge.Spans90 → leg.edge.Outward) := by
  refine ⟨rfl, fun t ht leg hleg => ?_⟩
  obtain ⟨start, finish⟩ := Leg.ends_mem leg hleg
  have hs := Point.isValid_iff.mp (valid t ht _ start)
  have hf := Point.isValid_iff.mp (valid t ht _ finish)
  exact ⟨fun fence _ => leg.crossings_position t.subject fence _,
    Edge.outward_of_spans hs hf⟩

/-- Three lines across the equator. -/
def gates : Fence ℝ :=
  ⟨"gates", "Gates", [[⟨-100, -1⟩, ⟨-100, 1⟩], [⟨0, -1⟩, ⟨0, 1⟩], [⟨100, -1⟩, ⟨100, 1⟩]], .warning⟩

/-- A leg along the equator, an hour long. -/
def equatorLeg (west east : ℝ) : Leg ℝ :=
  ⟨⟨⟨west, 0⟩, .epoch⟩, ⟨⟨east, 0⟩, .ofNanos 3600000000000⟩⟩

def equatorTrack (west east : ℝ) : Trajectory ℝ where
  subject := .nil
  fixes := [(equatorLeg west east).start, (equatorLeg west east).finish]
  ordered := by
    have : Instant.epoch ≤ .ofNanos 3600000000000 := by decide
    simpa [equatorLeg] using this

theorem onGlobe_equator {x : ℝ} (h : |x| ≤ 180) : (⟨x, 0⟩ : Point ℝ).OnGlobe := ⟨h, by simp⟩

/-- From 50° West to 30° East the way leads outward. -/
theorem crossings_positions_equatorTrack :
    (∀ t ∈ [equatorTrack (-50) 30], ∀ fix ∈ t.fixes, fix.point.isValid = true) ∧
    (equatorLeg (-50) 30).Positions ((equatorLeg (-50) 30).crossings .nil gates (.ofRegions [])) ∧
    (equatorLeg (-50) 30).edge.Outward := by
  have valid : ∀ t ∈ [equatorTrack (-50) 30], ∀ fix ∈ t.fixes, fix.point.isValid = true := by
    simp only [equatorTrack, List.forall_mem_cons, Point.isValid_iff]
    exact ⟨⟨onGlobe_equator (by norm_num), onGlobe_equator (by norm_num), by simp⟩, by simp⟩
  obtain ⟨positions, outward⟩ := (crossings_positions [gates] [] [equatorTrack (-50) 30] valid).2
    (equatorTrack (-50) 30) List.mem_cons_self (equatorLeg (-50) 30) List.mem_cons_self
  refine ⟨valid, positions gates List.mem_cons_self, outward ⟨?_, .inr ⟨?_, ?_⟩⟩⟩ <;>
    norm_num [Leg.edge, equatorLeg]

section Round

theorem meet?_gate {x : ℝ} (h : |x| ≤ 170) :
    (equatorLeg (-170) 170).edge.meet? ⟨⟨x, -1⟩, ⟨x, 1⟩⟩ = some (.single ⟨x, 0⟩) := by
  obtain ⟨west, east⟩ := abs_le.mp h
  refine Edge.meet?_of_common ?_ (Edge.holds_iff.mpr ⟨(x + 170) / 340, ?_, ?_, ?_⟩)
    (Edge.holds_iff.mpr ⟨1 / 2, ?_, ?_, ?_⟩)
  · norm_num [Edge.side, cross, Leg.edge, equatorLeg]
  · linarith
  · linarith
  · simp only [Edge.pointAt, Leg.edge, equatorLeg, Point.mk.injEq]
    constructor <;> ring
  · norm_num
  · norm_num
  · norm_num [Edge.pointAt]

theorem contacts_gates : (equatorLeg (-170) 170).edge.contacts gates.boundary =
    [⟨-100, 0⟩, ⟨0, 0⟩, ⟨100, 0⟩] := by
  simp only [Edge.contacts, gates, Boundary.edges, Path.edges, List.flatMap_cons, List.flatMap_nil,
    List.nil_append, List.append_nil, List.cons_append]
  rw [meet?_gate (by norm_num), meet?_gate (by norm_num), meet?_gate (by norm_num)]
  simp [Meeting.points]

/-- The cosine of the angle from the start of the leg. -/
theorem centralCos_equator (x : ℝ) :
    centralCos ⟨-170, 0⟩ ⟨x, 0⟩ = cos ((x + 170) * (π / 180)) := by
  simp only [centralCos, Point.north_eq, Point.east_eq, zero_mul, sin_zero, cos_zero, one_mul,
    zero_add]
  congr 1
  ring

/-- From the start the gates are 70°, 270° and 170° away going east, the end 340°. -/
theorem equator_angles : cos ((0 + 170) * (π / 180)) < cos ((100 + 170) * (π / 180)) ∧
    cos ((100 + 170) * (π / 180)) < cos ((-100 + 170) * (π / 180)) ∧
    cos ((-100 + 170) * (π / 180)) < cos ((170 + 170) * (π / 180)) ∧
    cos ((170 + 170) * (π / 180)) < 1 := by
  have quarters : cos ((100 + 170) * (π / 180)) = 0 := by
    rw [show (100 + 170) * (π / 180) = π / 2 + π by ring, cos_add_pi, cos_pi_div_two, neg_zero]
  have around : cos ((170 + 170) * (π / 180)) = cos (π / 9) := by
    rw [show (170 + 170) * (π / 180) = 2 * π - π / 9 by ring, cos_two_pi_sub]
  have := pi_pos
  rw [quarters, around]
  refine ⟨?_, ?_, ?_, ?_⟩
  · exact cos_neg_of_pi_div_two_lt_of_lt (by linarith) (by linarith)
  · exact cos_pos_of_mem_Ioo ⟨by linarith, by linarith⟩
  · exact cos_lt_cos_of_nonneg_of_le_pi_div_two (by linarith) (by linarith) (by linarith)
  · rw [← cos_zero]
    exact cos_lt_cos_of_nonneg_of_le_pi_div_two le_rfl (by linarith) (by linarith)

theorem equator_lt_iff {x y : ℝ} (hx : |x| ≤ 180) (hy : |y| ≤ 180) :
    distanceMeters ⟨-170, 0⟩ ⟨x, 0⟩ < distanceMeters ⟨-170, 0⟩ ⟨y, 0⟩ ↔
      cos ((y + 170) * (π / 180)) < cos ((x + 170) * (π / 180)) := by
  have start : (⟨-170, 0⟩ : Point ℝ).OnGlobe := onGlobe_equator (by norm_num)
  rw [distanceMeters_lt_iff start (onGlobe_equator hx) start (onGlobe_equator hy),
    centralCos_equator, centralCos_equator]

theorem meetingPoints_gates : meetingPoints ⟨-170, 0⟩ ⟨170, 0⟩ gates.boundary =
    [⟨-100, 0⟩, ⟨100, 0⟩, ⟨0, 0⟩] := by
  have moves : (⟨-170, 0⟩ : Point ℝ).same ⟨170, 0⟩ = false := by norm_num [Point.same, Scalar.eq]
  have distinct : distinctPoints [⟨-100, 0⟩, ⟨0, 0⟩, ⟨100, 0⟩] =
      ([⟨-100, 0⟩, ⟨0, 0⟩, ⟨100, 0⟩] : List (Point ℝ)) := by
    norm_num [distinctPoints, addDistinct, Point.near, Scalar.abs, samePointTolerance, Scalar.lt,
      Scalar.zero, Scalar.ofInt, Scalar.decimal]
  obtain ⟨middle, east, -, -⟩ := equator_angles
  rw [← equator_lt_iff (by norm_num) (by norm_num)] at middle east
  have contacts : Edge.contacts ⟨⟨-170, 0⟩, ⟨170, 0⟩⟩ gates.boundary = _ := contacts_gates
  rw [meetingPoints_eq moves, contacts, distinct]
  refine sortByDistance_eq ((List.Perm.swap _ _ _).cons _) ?_
  simpa using ⟨⟨east, east.trans middle⟩, middle⟩

theorem equatorLeg_length : 0 < (equatorLeg (-170) 170).lengthMeters := by
  have nonneg := distanceMeters_nonneg ⟨-170, 0⟩ ⟨-170, 0⟩
  refine nonneg.trans_lt ((equator_lt_iff (by norm_num) (by norm_num)).mpr ?_)
  rw [neg_add_cancel, zero_mul, cos_zero]
  exact equator_angles.2.2.2

/-- Across 340° of longitude the gates are told by their distance from the start, so that the
middle one comes last, each with a fraction larger than one. -/
theorem crossings_gates : (∀ fix ∈ (equatorTrack (-170) 170).fixes, fix.point.isValid = true) ∧
    (crossings [gates] [] [equatorTrack (-170) 170]).map (·.fix.point) =
      [⟨-100, 0⟩, ⟨100, 0⟩, ⟨0, 0⟩] ∧
    ∀ c ∈ crossings [gates] [] [equatorTrack (-170) 170], 1 < c.fraction := by
  have start : (equatorLeg (-170) 170).start.point.OnGlobe := onGlobe_equator (by norm_num)
  have finish : (equatorLeg (-170) 170).finish.point.OnGlobe := onGlobe_equator (by norm_num)
  have block : crossings [gates] [] [equatorTrack (-170) 170] =
      (equatorLeg (-170) 170).crossings .nil gates (.ofRegions []) := by
    change ((equatorLeg (-170) 170).crossings .nil gates (.ofRegions []) ++ []) ++ [] ++ [] = _
    simp
  have points : (equatorLeg (-170) 170).crossingPoints gates.boundary =
      [⟨-100, 0⟩, ⟨100, 0⟩, ⟨0, 0⟩] := by
    change (if (meetingPoints _ _ gates.boundary).length % 2 = 0 then _
      else meetingPoints _ _ _) = _
    rw [show (equatorLeg (-170) 170).start.point = ⟨-170, 0⟩ from rfl,
      show (equatorLeg (-170) 170).finish.point = ⟨170, 0⟩ from rfl, meetingPoints_gates]
    rfl
  refine ⟨?_, ?_, ?_⟩
  · simpa [equatorTrack, Point.isValid_iff] using ⟨start, finish⟩
  · rw [block, Leg.crossings, List.map_map, points]
    rfl
  · rw [block, Leg.crossings, points]
    have beyond {x : ℝ} (hx : |x| ≤ 180)
        (h : cos ((x + 170) * (π / 180)) < cos ((170 + 170) * (π / 180))) :
        1 < (equatorLeg (-170) 170).fractionAt ⟨x, 0⟩ := by
      refine lt_of_not_ge fun hle => ?_
      rcases Leg.fractionAt_le_one_iff.mp hle with hzero | hle
      · exact equatorLeg_length.ne' hzero
      · exact hle.not_gt ((equator_lt_iff (by norm_num) hx).mpr h)
    obtain ⟨middle, east, west, -⟩ := equator_angles
    refine List.forall_mem_map.mpr (List.forall_mem_cons.mpr ⟨?_, List.forall_mem_cons.mpr
      ⟨?_, List.forall_mem_singleton.mpr ?_⟩⟩)
    · exact beyond (by norm_num) west
    · exact beyond (by norm_num) (east.trans west)
    · exact beyond (by norm_num) (middle.trans (east.trans west))

end Round

end Geotrack
