import Mathlib
import Geotrack.Proofs.Feature.Encounters
import Geotrack.Proofs.Geodesy.Flat
import Geotrack.Proofs.Plane.Foot
import Geotrack.Proofs.Plane.Meeting

/-!
# Corners

Whether an approach is at most as far as an end of its leg is from a vertex of the shape. Nearest
points are found on the flat map, and on the flat map no corner beats the approach. On the globe
one can, by no more than the factor that the latitudes bound: `approaches_corners`.
-/

namespace Geotrack

open Real

namespace Candidate

variable {candidates : List (Candidate ℝ)} {c b : Candidate ℝ}

/-- The best candidate is one of them, and none is nearer. -/
theorem best?_spec (h : best? candidates = some b) :
    b ∈ candidates ∧ ∀ c ∈ candidates, b.distanceMeters ≤ c.distanceMeters := by
  have fold (rest : List (Candidate ℝ)) (first : Candidate ℝ) (b : Candidate ℝ)
      (h : rest.foldl (fun best c =>
        if Scalar.lt c.distanceMeters best.distanceMeters then c else best) first = b) :
      b ∈ first :: rest ∧ ∀ c ∈ first :: rest, b.distanceMeters ≤ c.distanceMeters := by
    induction rest generalizing first with
    | nil => simp [← h]
    | cons c rest ih =>
      obtain ⟨mem, least⟩ := ih _ h
      obtain ⟨kept, least⟩ := List.forall_mem_cons.mp least
      simp only [Scalar.lt, decide_eq_true_eq] at mem kept
      split at mem
      case isTrue hlt =>
        rw [if_pos hlt] at kept
        refine ⟨List.mem_cons_of_mem _ mem, ?_⟩
        exact List.forall_mem_cons.mpr ⟨kept.trans hlt.le, List.forall_mem_cons.mpr ⟨kept, least⟩⟩
      case isFalse hlt =>
        rw [if_neg hlt] at kept
        refine ⟨by rcases List.mem_cons.mp mem with rfl | mem <;> simp [*], ?_⟩
        exact List.forall_mem_cons.mpr
          ⟨kept, List.forall_mem_cons.mpr ⟨kept.trans (le_of_not_gt hlt), least⟩⟩
  cases candidates with
  | nil => cases h
  | cons first rest => exact fold rest first b (Option.some.inj h)

end Candidate

namespace Leg

variable {leg : Leg ℝ} {shape : Shape ℝ} {c : Candidate ℝ} {x v : Point ℝ} {d : ℝ}

/-- An end of the leg. -/
def IsEnd (leg : Leg ℝ) (x : Point ℝ) : Prop := x = leg.start.point ∨ x = leg.finish.point

/-- No candidate is nearer than the approach. -/
theorem closest?_le (h : leg.closest? shape = some c) {b : Candidate ℝ}
    (nonneg : 0 ≤ b.distanceMeters)
    (mem : (∃ x, leg.IsEnd x ∧ Candidate.ofEnd? shape x = some b) ∨
      ∃ v ∈ shape.vertices, Candidate.ofVertex? leg.edge v = some b) :
    c.distanceMeters ≤ b.distanceMeters := by
  cases hm : meetingPoints leg.start.point leg.finish.point shape.outline with
  | cons p rest =>
    rw [closest?_of_meeting hm] at h
    cases h
    simpa [Scalar.zero, Scalar.ofInt] using nonneg
  | nil =>
    rw [closest?_of_apart hm] at h
    refine (Candidate.best?_spec h).2 b (List.mem_append.mpr (mem.imp ?_ ?_))
    · rintro ⟨x, end_x, hx⟩
      refine List.mem_filterMap.mpr ⟨x, ?_, hx⟩
      rcases end_x with rfl | rfl <;> simp
    · rintro ⟨v, hv, hc⟩
      exact List.mem_filterMap.mpr ⟨v, hv, hc⟩

theorem le_planar_of_moving (h : leg.closest? shape = some c) (length : leg.edge.hasLength = true)
    (hx : leg.IsEnd x) (hv : v ∈ shape.vertices) :
    c.distanceMeters ≤ planarDistance x v * metersPerDegree := by
  obtain ⟨q, hq, least⟩ := Edge.nearest_least length v
  have candidate : Candidate.ofVertex? leg.edge v = some ⟨q, distanceMeters q v⟩ := by
    rcases hq with hq | hq <;> rw [Candidate.ofVertex?, hq] <;> rfl
  have planar : planarDistance q v ≤ planarDistance x v := by
    rcases hx with rfl | rfl
    · simpa [edge] using least 0 le_rfl zero_le_one
    · simpa [edge] using least 1 zero_le_one le_rfl
  have scale := metersPerDegree_nonneg
  calc c.distanceMeters ≤ distanceMeters q v :=
        closest?_le h (distanceMeters_nonneg q v) (.inr ⟨v, hv, candidate⟩)
    _ ≤ planarDistance q v * metersPerDegree := distanceMeters_le_planar q v
    _ ≤ planarDistance x v * metersPerDegree := by gcongr

theorem le_planar_of_corner (h : leg.closest? shape = some c) (hx : leg.IsEnd x)
    (hv : shape.IsCorner v) : c.distanceMeters ≤ planarDistance x v * metersPerDegree := by
  have scale := metersPerDegree_nonneg
  have within := Shape.isWithin_nearest hv x
  cases hn : shape.nearest x with
  | none =>
    rw [hn] at within
    cases within
  | touching q =>
    have candidate : Candidate.ofEnd? shape x = some ⟨x, Scalar.zero⟩ :=
      Candidate.ofEnd?_of_touching (by rw [hn]; trivial)
    have zero : (Scalar.zero : ℝ) = 0 := Int.cast_zero
    refine (closest?_le h zero.ge (.inl ⟨x, hx, candidate⟩)).trans ?_
    rw [zero, planarDistance_eq]
    positivity
  | apart q =>
    have candidate : Candidate.ofEnd? shape x = some ⟨x, distanceMeters x q⟩ := by
      rw [Candidate.ofEnd?, hn]
    rw [hn] at within
    calc c.distanceMeters ≤ distanceMeters x q :=
          closest?_le h (distanceMeters_nonneg x q) (.inl ⟨x, hx, candidate⟩)
      _ ≤ planarDistance x q * metersPerDegree := distanceMeters_le_planar x q
      _ = planarDistance q x * metersPerDegree := by rw [planarDistance_comm]
      _ ≤ planarDistance v x * metersPerDegree := by gcongr; exact within
      _ = planarDistance x v * metersPerDegree := by rw [planarDistance_comm]

theorem le_of_nearest_in_shape (h : leg.closest? shape = some c) (hx : leg.IsEnd x)
    (near : shape.nearest x = .apart v) : c.distanceMeters ≤ distanceMeters x v := by
  refine closest?_le h (b := ⟨x, distanceMeters x v⟩) (distanceMeters_nonneg x v) (.inl ⟨x, hx, ?_⟩)
  rw [Candidate.ofEnd?, near]

theorem le_of_nearest_in_leg (h : leg.closest? shape = some c) (hv : v ∈ shape.vertices)
    (near : leg.edge.nearest v = .apart x) : c.distanceMeters ≤ distanceMeters x v := by
  refine closest?_le h (b := ⟨x, distanceMeters x v⟩) (distanceMeters_nonneg x v) (.inr ⟨v, hv, ?_⟩)
  rw [Candidate.ofVertex?, near]
  rfl

/-- How far an approach is, by how far an end of the leg is from a vertex of the shape: at most as
far as the two are on the flat map, on the globe where it is as flat between them, and no farther
than they are on the globe where one is the nearest to the other on the flat map. A leg at rest
knows only of the corners of the shape. -/
structure NearCorner (leg : Leg ℝ) (shape : Shape ℝ) (d : ℝ) (x v : Point ℝ) : Prop where
  flat : leg.edge.hasLength = true ∨ shape.IsCorner v →
    d ≤ planarDistance x v * metersPerDegree
  factor : leg.edge.hasLength = true ∨ shape.IsCorner v → |v.longitude - x.longitude| ≤ 180 →
    d * (2 / π * min (cos x.north) (cos v.north)) ≤ distanceMeters x v
  level : leg.edge.hasLength = true ∨ shape.IsCorner v →
    x.longitude = v.longitude ∨
      x.latitude = 0 ∧ v.latitude = 0 ∧ |v.longitude - x.longitude| ≤ 180 →
    d ≤ distanceMeters x v
  ofShape : shape.nearest x = .apart v → d ≤ distanceMeters x v
  ofLeg : leg.edge.nearest v = .apart x → d ≤ distanceMeters x v

theorem nearCorner (h : leg.closest? shape = some c) (hx : leg.IsEnd x) (hv : v ∈ shape.vertices)
    (globe_x : x.OnGlobe) (globe_v : v.OnGlobe) :
    leg.NearCorner shape c.distanceMeters x v := by
  have flat (known : leg.edge.hasLength = true ∨ shape.IsCorner v) :
      c.distanceMeters ≤ planarDistance x v * metersPerDegree :=
    known.elim (le_planar_of_moving h · hx hv) (le_planar_of_corner h hx)
  refine ⟨flat, fun known near => ?_, fun known along => ?_, le_of_nearest_in_shape h hx,
    le_of_nearest_in_leg h hv⟩
  · have width : 0 ≤ 2 / π * min (cos x.north) (cos v.north) :=
      mul_nonneg (by positivity) (le_min globe_x.cos_north_nonneg globe_v.cos_north_nonneg)
    exact (mul_le_mul_of_nonneg_right (flat known) width).trans
      (planar_le_distanceMeters globe_x globe_v near)
  · rcases along with meridian | ⟨equator, equator', near⟩
    · exact (flat known).trans (distanceMeters_of_meridian globe_x globe_v meridian).ge
    · exact (flat known).trans (distanceMeters_of_equator globe_x globe_v equator equator' near).ge

end Leg

/-- Every approach is near every corner, as far as the flat map tells. -/
theorem approaches_corners (features : List (Feature ℝ)) (trajectories : List (Trajectory ℝ))
    (valid : ∀ t ∈ trajectories, ∀ fix ∈ t.fixes, fix.point.isValid = true)
    (vertices : ∀ feature ∈ features, ∀ v ∈ feature.shape.vertices, v.isValid = true) :
    approaches features trajectories =
      (encounters features trajectories).filterMap (fun e => e.leg.approach? e.subject e.feature) ∧
    ∀ e ∈ encounters features trajectories, ∀ a, e.leg.approach? e.subject e.feature = some a →
      ∀ x, e.leg.IsEnd x → ∀ v ∈ e.feature.shape.vertices,
        e.leg.NearCorner e.feature.shape a.distanceMeters x v := by
  refine ⟨approaches_eq features trajectories, fun e he a ha x hx v hv => ?_⟩
  obtain ⟨t, ht, he⟩ := List.mem_flatMap.mp he
  obtain ⟨leg, hleg, he⟩ := List.mem_flatMap.mp he
  obtain ⟨feature, hfeature, rfl⟩ := List.mem_map.mp he
  obtain ⟨c, hc, rfl⟩ := Option.map_eq_some_iff.mp ha
  obtain ⟨start, finish⟩ := Leg.ends_mem leg hleg
  refine Leg.nearCorner hc hx hv ?_ (Point.isValid_iff.mp (vertices feature hfeature v hv))
  rcases hx with rfl | rfl
  exacts [Point.isValid_iff.mp (valid t ht _ start), Point.isValid_iff.mp (valid t ht _ finish)]

/-! ### A corner that is nearer -/

/-- A trail that runs down to the south-west. -/
noncomputable def ridge : Feature ℝ := ⟨"ridge", "Ridge", .path [⟨1.5, 60⟩, ⟨0.5, 59⟩]⟩

theorem ridge_path : ridge.shape = .path [⟨3 / 2, 60⟩, ⟨1 / 2, 59⟩] := by
  norm_num [ridge]

/-- A leg beside the trail, the other way. -/
def slantLeg : Leg ℝ := ⟨⟨⟨0, 60⟩, .epoch⟩, ⟨⟨1, 61⟩, .ofNanos 3600000000000⟩⟩

def slantTrack : Trajectory ℝ := ⟨.nil, [slantLeg.start, slantLeg.finish], by
  have : Instant.epoch ≤ .ofNanos 3600000000000 := by decide
  simpa [slantLeg] using this⟩

theorem slantTrack_encounters :
    encounters [ridge] [slantTrack] = [⟨.nil, slantLeg, ridge⟩] := rfl

theorem slant_valid : (∀ t ∈ [slantTrack], ∀ fix ∈ t.fixes, fix.point.isValid = true) ∧
    ∀ feature ∈ [ridge], ∀ v ∈ feature.shape.vertices, v.isValid = true := by
  simp only [slantTrack, slantLeg, ridge_path, Shape.vertices, List.forall_mem_cons,
    List.not_mem_nil, false_implies, implies_true, and_true, Point.isValid_iff]
  refine ⟨⟨⟨?_, ?_⟩, ⟨?_, ?_⟩⟩, ⟨?_, ?_⟩, ⟨?_, ?_⟩⟩ <;> norm_num [abs_of_pos]

/-- An angle over three quarters of a degree of latitude is larger than one and a half degrees of
longitude at 60° North. -/
theorem corner_lt {a b : Point ℝ} (ha : a.OnGlobe) (hb : b.OnGlobe)
    (h : 3 / 4 ≤ |b.latitude - a.latitude|) :
    distanceMeters ⟨0, 60⟩ ⟨3 / 2, 60⟩ < distanceMeters a b := by
  have west : (⟨0, 60⟩ : Point ℝ).OnGlobe := ⟨by norm_num, by norm_num [abs_of_pos]⟩
  have east : (⟨3 / 2, 60⟩ : Point ℝ).OnGlobe :=
    ⟨by norm_num [abs_of_pos], by norm_num [abs_of_pos]⟩
  rw [distanceMeters_lt_iff west east ha hb]
  obtain ⟨c, hc⟩ : ∃ c, c = cos (π / 240) := ⟨_, rfl⟩
  have corner : centralCos ⟨0, 60⟩ ⟨3 / 2, 60⟩ = (1 + c ^ 2) / 2 := by
    have third : sin (π / 3) ^ 2 = 3 / 4 := by
      rw [sin_sq, cos_pi_div_three]
      norm_num
    simp only [centralCos, Point.north_eq, Point.east_eq]
    rw [show 60 * (π / 180) = π / 3 by ring,
      show 3 / 2 * (π / 180) - 0 * (π / 180) = 2 * (π / 240) by ring, cos_two_mul, ← hc, ← sq,
      third, cos_pi_div_three]
    ring
  have apart : cos (b.north - a.north) ≤ c := by
    have span : |b.north - a.north| = |b.latitude - a.latitude| * (π / 180) := by
      rw [Point.north_eq, Point.north_eq, ← sub_mul, abs_mul,
        abs_of_pos (by positivity : 0 < π / 180)]
    have half : |b.north - a.north| ≤ π :=
      (abs_sub _ _).trans (by linarith [ha.abs_north_le, hb.abs_north_le])
    rw [hc, ← cos_abs (b.north - a.north)]
    refine cos_le_cos_of_nonneg_of_le_pi (by positivity) half ?_
    rw [span]
    nlinarith [pi_pos]
  have less : c < 1 := by
    rw [hc, ← cos_zero]
    exact cos_lt_cos_of_nonneg_of_le_pi_div_two le_rfl (by linarith [pi_pos]) (by positivity)
  have := centralCos_le ha hb
  rw [corner]
  nlinarith

theorem slantLeg_apart :
    meetingPoints slantLeg.start.point slantLeg.finish.point ridge.shape.outline = [] := by
  have moves : slantLeg.start.point.same slantLeg.finish.point = false := by
    norm_num [slantLeg, Point.same, Scalar.eq]
  have differ : slantLeg.start.point ≠ slantLeg.finish.point := by
    rw [ne_eq, ← Point.same_iff, moves]
    exact Bool.false_ne_true
  have edges : Boundary.edges ridge.shape.outline = [⟨⟨3 / 2, 60⟩, ⟨1 / 2, 59⟩⟩] := by
    rw [ridge_path]
    rfl
  rw [meetingPoints_eq_nil_iff moves, Edge.contacts_eq_nil_iff differ, edges,
    List.forall_mem_singleton]
  rintro ⟨x, hleg, hridge⟩
  obtain ⟨s, -, -, rfl⟩ := Edge.holds_iff.mp hleg
  have := Edge.side_of_holds hridge
  norm_num [Edge.side, cross, Edge.pointAt, slantLeg] at this
  linarith

/-- An edge without a neighbour is all there is of a path. -/
theorem Path.nearest_pair {K : Type} [Scalar K] (a b position : Point K) :
    Path.nearest [a, b] position = (Edge.mk a b).nearest position := by
  change Nearest.better position ((Edge.mk a b).nearest position) .none = _
  cases (Edge.mk a b).nearest position <;> rfl

theorem slantLeg_nearest : slantLeg.edge.nearest ⟨3 / 2, 60⟩ = .apart ⟨3 / 4, 243 / 4⟩ ∧
    slantLeg.edge.nearest ⟨1 / 2, 59⟩ = .apart ⟨0, 60⟩ := by
  have length : slantLeg.edge.hasLength = true := by
    norm_num [Edge.hasLength_iff, Edge.lengthSquare, Leg.edge, slantLeg]
  have share : slantLeg.edge.footShare ⟨3 / 2, 60⟩ = 3 / 4 ∧
      slantLeg.edge.footShare ⟨1 / 2, 59⟩ = -1 / 4 := by
    norm_num [Edge.footShare, Edge.lengthSquare, Leg.edge, slantLeg]
  constructor
  · rw [Edge.nearest_of_share length, share.1]
    · norm_num [Edge.pointAt, Leg.edge, slantLeg]
    · norm_num [share]
    · norm_num [share]
    · norm_num [Edge.side, cross, Leg.edge, slantLeg]
  · rw [Edge.nearest_eq length, share.2, if_pos (by norm_num)]
    rfl

theorem ridge_nearest : ridge.shape.nearest ⟨0, 60⟩ = .apart ⟨3 / 4, 237 / 4⟩ ∧
    ridge.shape.nearest ⟨1, 61⟩ = .apart ⟨3 / 2, 60⟩ := by
  have edge (p : Point ℝ) : ridge.shape.nearest p =
      (Edge.mk ⟨3 / 2, 60⟩ ⟨1 / 2, 59⟩).nearest p := by
    rw [ridge_path]
    exact Path.nearest_pair _ _ p
  have length : (Edge.mk (⟨3 / 2, 60⟩ : Point ℝ) ⟨1 / 2, 59⟩).hasLength = true := by
    norm_num [Edge.hasLength_iff, Edge.lengthSquare]
  have share : (Edge.mk (⟨3 / 2, 60⟩ : Point ℝ) ⟨1 / 2, 59⟩).footShare ⟨0, 60⟩ = 3 / 4 ∧
      (Edge.mk (⟨3 / 2, 60⟩ : Point ℝ) ⟨1 / 2, 59⟩).footShare ⟨1, 61⟩ = -1 / 4 := by
    norm_num [Edge.footShare, Edge.lengthSquare]
  constructor
  · rw [edge, Edge.nearest_of_share length, share.1]
    · norm_num [Edge.pointAt]
    · norm_num [share]
    · norm_num [share]
    · norm_num [Edge.side, cross]
  · rw [edge, Edge.nearest_eq length, share.2, if_pos (by norm_num)]

theorem slantLeg_candidates {c : Candidate ℝ} (h : slantLeg.closest? ridge.shape = some c) :
    distanceMeters ⟨0, 60⟩ ⟨3 / 2, 60⟩ < c.distanceMeters := by
  rw [Leg.closest?_of_apart slantLeg_apart] at h
  have mem := (Candidate.best?_spec h).1
  have ends : [slantLeg.start.point, slantLeg.finish.point].filterMap
      (Candidate.ofEnd? ridge.shape) =
      [⟨⟨0, 60⟩, distanceMeters ⟨0, 60⟩ ⟨3 / 4, 237 / 4⟩⟩,
        ⟨⟨1, 61⟩, distanceMeters ⟨1, 61⟩ ⟨3 / 2, 60⟩⟩] := by
    simp [slantLeg, Candidate.ofEnd?, ridge_nearest]
  have vertices : ridge.shape.vertices.filterMap (Candidate.ofVertex? slantLeg.edge) =
      [⟨⟨3 / 4, 243 / 4⟩, distanceMeters ⟨3 / 4, 243 / 4⟩ ⟨3 / 2, 60⟩⟩,
        ⟨⟨0, 60⟩, distanceMeters ⟨0, 60⟩ ⟨1 / 2, 59⟩⟩] := by
    rw [ridge_path]
    change [(⟨3 / 2, 60⟩ : Point ℝ), ⟨1 / 2, 59⟩].filterMap _ = _
    simp [Candidate.ofVertex?, slantLeg_nearest, Nearest.point?, -one_div]
  rw [ends, vertices] at mem
  simp only [List.cons_append, List.nil_append, List.mem_cons, List.not_mem_nil, or_false] at mem
  rcases mem with rfl | rfl | rfl | rfl <;>
    refine corner_lt ⟨?_, ?_⟩ ⟨?_, ?_⟩ ?_ <;> norm_num [abs_le, le_abs]

theorem slantLeg_approach : ∃ a, slantLeg.approach? .nil ridge = some a ∧
    approaches [ridge] [slantTrack] = [a] := by
  have moves : slantLeg.rests = false := by
    norm_num [Leg.rests, slantLeg, Point.same, Scalar.eq]
  have length : slantLeg.edge.hasLength = !slantLeg.rests := by
    rw [moves]
    norm_num [Edge.hasLength_iff, Edge.lengthSquare, Leg.edge, slantLeg]
  have some : slantLeg.approach? .nil ridge ≠ none := by
    rw [Leg.approach?, ne_eq, Option.map_eq_none_iff,
      Leg.closest?_eq_none_iff length (by simp [ridge_path, Shape.vertices]), Leg.isLost_iff, moves]
    simp
  obtain ⟨a, ha⟩ := Option.ne_none_iff_exists'.mp some
  refine ⟨a, ha, ?_⟩
  simp [approaches_eq, slantTrack_encounters, ha]

theorem approaches_corners_slantTrack : ∃ a, approaches [ridge] [slantTrack] = [a] ∧
    slantLeg.NearCorner ridge.shape a.distanceMeters ⟨0, 60⟩ ⟨3 / 2, 60⟩ := by
  obtain ⟨a, ha, single⟩ := slantLeg_approach
  refine ⟨a, single, ?_⟩
  exact (approaches_corners [ridge] [slantTrack] slant_valid.1 slant_valid.2).2
    ⟨.nil, slantLeg, ridge⟩ (by rw [slantTrack_encounters]; exact List.mem_cons_self) a ha
    ⟨0, 60⟩ (.inl rfl) ⟨3 / 2, 60⟩ (by simp [ridge_path, Shape.vertices])

/-- The leg is beaten by a corner: its start is nearer to the upper end of the ridge. -/
theorem slantLeg_beaten :
    (∀ t ∈ [slantTrack], ∀ fix ∈ t.fixes, fix.point.isValid = true) ∧
    (∀ feature ∈ [ridge], ∀ v ∈ feature.shape.vertices, v.isValid = true) ∧
    (⟨3 / 2, 60⟩ : Point ℝ) ∈ ridge.shape.vertices ∧
    ∃ a, approaches [ridge] [slantTrack] = [a] ∧
      distanceMeters slantLeg.start.point ⟨3 / 2, 60⟩ < a.distanceMeters := by
  obtain ⟨a, ha, single⟩ := slantLeg_approach
  obtain ⟨c, hc, distance⟩ : ∃ c, slantLeg.closest? ridge.shape = some c ∧
      c.distanceMeters = a.distanceMeters := by
    obtain ⟨c, hc, rfl⟩ := Option.map_eq_some_iff.mp ha
    exact ⟨c, hc, rfl⟩
  refine ⟨slant_valid.1, slant_valid.2, by simp [ridge_path, Shape.vertices], a, single, ?_⟩
  rw [← distance]
  exact slantLeg_candidates hc

end Geotrack
