import Geotrack.Proofs.Plane.Passage
import Geotrack.Fence.Crossing

/-!
# Crossings of a fence around a simple ring

A leg has crossings where it meets the fence an odd number of times. It begins and ends on different
sides of the fence where an odd number of sides pass it, and where it meets the fence cleanly the
two numbers are the same.
-/

namespace Geotrack

variable {points : Path ℝ} {polygon : Polygon ℝ} {fence : Fence ℝ} {id name : String}
  {level : WarnLevel} {a : Point ℝ}

/-! ### Sound polygons -/

theorem Path.closed_joined (hne : points ≠ []) : ∃ u, Joined u (Path.closed points).edges u := by
  match points, hne with
  | a :: rest, _ =>
    refine ⟨a, ?_⟩
    have hlast : (a :: rest).getLast? = some ((a :: rest).getLast (by simp)) :=
      List.getLast?_eq_some_getLast _
    rw [Path.closed, List.head?_cons, hlast]
    dsimp only
    split
    · rename_i hsame
      have h := Path.edges_joined a rest
      rwa [← Point.same_iff.mp hsame] at h
    · have h := Path.edges_joined a (rest ++ [a])
      simpa using h

theorem Path.subset_closed : points ⊆ Path.closed points := by
  intro p hp
  unfold Path.closed
  split
  · split
    · exact hp
    · exact List.mem_append_left _ hp
  · exact hp

theorem Path.eq_head_of_edges {rest : Path ℝ}
    (h : ∀ e ∈ Path.edges (a :: rest), e.start = e.finish) : ∀ p ∈ a :: rest, p = a := by
  induction rest generalizing a with
  | nil => simp
  | cons b rest ih =>
    rw [Path.edges] at h
    obtain ⟨hab, hrest⟩ := List.forall_mem_cons.mp h
    dsimp only at hab
    subst hab
    intro p hp
    rcases List.mem_cons.mp hp with rfl | hp
    · rfl
    · exact ih hrest p hp

/-- A point and its repetitions are one distinct point. -/
theorem Point.distinct_length_le (h : ∀ p ∈ points, p = a) :
    (Point.distinct points).length ≤ 1 := by
  have hfold (rest seen : Path ℝ) (hrest : ∀ p ∈ rest, p = a) (hseen : seen = [] ∨ seen = [a]) :
      (rest.foldl (fun seen p => if seen.any (·.same p) then seen else seen ++ [p]) seen).length ≤
        1 := by
    induction rest generalizing seen with
    | nil => rcases hseen with rfl | rfl <;> simp
    | cons p rest ih =>
      obtain ⟨rfl, hrest⟩ := List.forall_mem_cons.mp hrest
      refine ih _ hrest ?_
      rcases hseen with rfl | rfl <;> simp
  exact hfold points [] h (.inl rfl)

theorem Polygon.ofPoints_ok (h : Polygon.ofPoints points = .ok polygon) :
    polygon = ⟨Path.closed points, []⟩ ∧ 3 ≤ (Point.distinct points).length := by
  unfold Polygon.ofPoints validPoints at h
  split at h
  · cases h
  · change (if _ then _ else _) = _ at h
    split at h
    · cases h
    · rename_i hlength
      cases h
      exact ⟨rfl, not_lt.mp hlength⟩

/-- The ring of a sound polygon has a side. -/
theorem Polygon.sides_ne_nil (h : Polygon.ofPoints points = .ok polygon) :
    polygon.outer.sides ≠ [] := by
  obtain ⟨rfl, hdistinct⟩ := Polygon.ofPoints_ok h
  intro hnone
  have hlevel : ∀ e ∈ (Path.closed points).edges, e.start = e.finish := by
    intro e he
    by_contra hne
    have : e ∈ (Path.closed points).sides := Path.mem_sides.mpr ⟨he, hne⟩
    rw [hnone] at this
    cases this
  match hclosed : Path.closed points with
  | [] =>
    have : points = [] := List.subset_nil.mp (hclosed ▸ Path.subset_closed)
    rw [this] at hdistinct
    simp [Point.distinct] at hdistinct
  | a :: rest =>
    rw [hclosed] at hlevel
    have hall : ∀ p ∈ points, p = a := fun p hp =>
      Path.eq_head_of_edges hlevel p (hclosed ▸ Path.subset_closed hp)
    have := Point.distinct_length_le hall
    omega

theorem Polygon.closed_joined (h : Polygon.ofPoints points = .ok polygon) :
    ∃ u, Joined u polygon.outer.edges u := by
  obtain ⟨rfl, hdistinct⟩ := Polygon.ofPoints_ok h
  refine Path.closed_joined ?_
  rintro rfl
  simp [Point.distinct] at hdistinct

theorem Polygon.two_le_length (h : Polygon.ofPoints points = .ok polygon) :
    2 ≤ polygon.outer.length := by
  have hne := Polygon.sides_ne_nil h
  match houter : polygon.outer with
  | [] => rw [houter] at hne; exact absurd rfl hne
  | [p] => rw [houter] at hne; exact absurd rfl hne
  | _ :: _ :: _ => simp

/-! ### Crossings -/

theorem Fence.around_boundary (hpolygon : Polygon.ofPoints points = .ok polygon)
    (hfence : Fence.around id name points level = .ok fence) : fence.boundary = polygon.rings := by
  rw [Fence.around, hpolygon] at hfence
  cases hfence
  rfl

namespace Leg

variable {subject : Uuid} {index : RegionIndex ℝ} (leg : Leg ℝ)

theorem crossings_ne_nil_iff : leg.crossings subject fence index ≠ [] ↔
    Odd (meetingPoints leg.start.point leg.finish.point fence.boundary).length := by
  rw [crossings, crossingPoints, ne_eq, List.map_eq_nil_iff, Nat.odd_iff]
  split
  · rename_i heven
    simp [heven]
  · rename_i hodd
    have hne : meetingPoints leg.start.point leg.finish.point fence.boundary ≠ [] := by
      intro h
      rw [h] at hodd
      exact hodd rfl
    simp only [hne, not_false_eq_true, true_iff]
    omega

/-- A leg between points off a simple ring has crossings of the fence around it just when one of
them is inside and the other is not, if and only if the points where it meets the fence and the
sides that pass it are both even or both odd in number. So it is where it meets the fence
cleanly. -/
theorem crossings_tell_sides (hpolygon : Polygon.ofPoints points = .ok polygon)
    (hfence : Fence.around id name points level = .ok fence) (hsimple : polygon.outer.Simple)
    (hstart : polygon.outer.Misses leg.start.point)
    (hfinish : polygon.outer.Misses leg.finish.point) :
    ((leg.crossings subject fence index ≠ [] ↔
        polygon.contains leg.start.point ≠ polygon.contains leg.finish.point) ↔
      (meetingPoints leg.start.point leg.finish.point fence.boundary).length % 2 =
        (passing ⟨leg.start.point, leg.finish.point⟩ polygon.outer.edges).length % 2) ∧
    (polygon.outer.Clean ⟨leg.start.point, leg.finish.point⟩ →
      (leg.crossings subject fence index ≠ [] ↔
        polygon.contains leg.start.point ≠ polygon.contains leg.finish.point)) := by
  obtain ⟨u, hring⟩ := Polygon.closed_joined hpolygon
  have hlength := Polygon.two_le_length hpolygon
  have hsides := Polygon.sides_ne_nil hpolygon
  have hboundary : fence.boundary = [polygon.outer] := by
    rw [Fence.around_boundary hpolygon hfence, (Polygon.ofPoints_ok hpolygon).1]
    rfl
  have hpolygon' : polygon = ⟨polygon.outer, []⟩ := by
    rw [(Polygon.ofPoints_ok hpolygon).1]
  have hcontains : polygon.contains leg.start.point ≠ polygon.contains leg.finish.point ↔
      Odd (passing ⟨leg.start.point, leg.finish.point⟩ polygon.outer.edges).length := by
    rw [hpolygon']
    exact Polygon.contains_ne_iff (d := ⟨leg.start.point, leg.finish.point⟩) hring hlength hsimple
      hstart hfinish
  rw [crossings_ne_nil_iff, hcontains, Nat.odd_iff, Nat.odd_iff]
  refine ⟨by omega, fun hclean => ?_⟩
  by_cases hd : leg.start.point = leg.finish.point
  · have hnone : meetingPoints leg.start.point leg.finish.point fence.boundary = [] := by
      rw [meetingPoints, meetingPointsBy, if_pos (Point.same_iff.mpr hd)]
    have hsame := mt hcontains.mpr (not_not.mpr (by rw [hd]))
    rw [Nat.odd_iff] at hsame
    simp [hnone, hsame]
  · have := hclean.length_meetingPoints hring hsimple hsides hstart hfinish hd
    rw [hboundary]
    dsimp only at this
    rw [this]

end Leg

/-! ### A fence around a diamond -/

/-- A square that stands on a corner. -/
noncomputable def diamond : Path ℝ := [⟨0, 1⟩, ⟨1, 0⟩, ⟨0, -1⟩, ⟨-1, 0⟩]

theorem diamond_closed : Path.closed diamond = [⟨0, 1⟩, ⟨1, 0⟩, ⟨0, -1⟩, ⟨-1, 0⟩, ⟨0, 1⟩] := by
  have h : (Point.mk (0 : ℝ) 1).same ⟨-1, 0⟩ = false := by simp [Point.same, Scalar.eq]
  simp [Path.closed, diamond, h]

theorem diamond_ok : Polygon.ofPoints diamond = .ok ⟨Path.closed diamond, []⟩ := by
  have hvalid : validPoints diamond = .ok diamond := by
    simp [validPoints, diamond, Point.isValid, Scalar.finite, Scalar.le, Scalar.ofInt]
    norm_num
  have hdistinct : (Point.distinct diamond).length = 4 := by
    simp [Point.distinct, diamond, Point.same, Scalar.eq]
    norm_num
  rw [Polygon.ofPoints, hvalid]
  change (if (Point.distinct diamond).length < 3 then _ else _) = _
  rw [hdistinct]
  rfl

theorem diamond_edges : (Path.closed diamond).edges =
    [⟨⟨0, 1⟩, ⟨1, 0⟩⟩, ⟨⟨1, 0⟩, ⟨0, -1⟩⟩, ⟨⟨0, -1⟩, ⟨-1, 0⟩⟩, ⟨⟨-1, 0⟩, ⟨0, 1⟩⟩] := by
  rw [diamond_closed]
  rfl

theorem diamond_sides : (Path.closed diamond).sides = (Path.closed diamond).edges := by
  rw [Path.sides, List.filter_eq_self, diamond_edges]
  simp

/-- The lines of the sides. -/
theorem diamond_lines {x : Point ℝ} :
    ((Edge.mk (⟨0, 1⟩ : Point ℝ) ⟨1, 0⟩).holds x = true → x.longitude + x.latitude = 1) ∧
    ((Edge.mk (⟨1, 0⟩ : Point ℝ) ⟨0, -1⟩).holds x = true → x.longitude - x.latitude = 1) ∧
    ((Edge.mk (⟨0, -1⟩ : Point ℝ) ⟨-1, 0⟩).holds x = true → x.longitude + x.latitude = -1) ∧
    ((Edge.mk (⟨-1, 0⟩ : Point ℝ) ⟨0, 1⟩).holds x = true → x.longitude - x.latitude = -1) := by
  refine ⟨fun h => ?_, fun h => ?_, fun h => ?_, fun h => ?_⟩ <;>
  · have hside := Edge.side_of_holds h
    simp only [Edge.side, cross] at hside
    linarith

theorem diamond_simple : (Path.closed diamond).Simple := by
  rw [Path.Simple, diamond_sides, diamond_edges]
  simp only [List.pairwise_cons, List.mem_cons, List.not_mem_nil, or_false, forall_eq_or_imp,
    forall_eq]
  refine ⟨⟨?_, ?_, ?_⟩, ⟨?_, ?_⟩, ?_, ?_⟩
  on_goal 7 => simp
  all_goals
    rintro ⟨a, b⟩ hd he
    have h₁ := Edge.side_of_holds hd
    have h₂ := Edge.side_of_holds he
    simp only [Edge.side, cross] at h₁ h₂
    simp only [Point.mk.injEq]
  · exact .inl ⟨⟨by linarith, by linarith⟩, by linarith, by linarith⟩
  · linarith
  · exact .inr ⟨⟨by linarith, by linarith⟩, by linarith, by linarith⟩
  · exact .inl ⟨⟨by linarith, by linarith⟩, by linarith, by linarith⟩
  · linarith
  · exact .inl ⟨⟨by linarith, by linarith⟩, by linarith, by linarith⟩

theorem diamond_misses {p : Point ℝ} (h₁ : p.longitude + p.latitude ≠ 1)
    (h₂ : p.longitude - p.latitude ≠ 1) (h₃ : p.longitude + p.latitude ≠ -1)
    (h₄ : p.longitude - p.latitude ≠ -1) : (Path.closed diamond).Misses p := by
  rw [Path.Misses, diamond_edges]
  simp only [List.mem_cons, List.not_mem_nil, or_false, forall_eq_or_imp, forall_eq,
    ← Bool.not_eq_true]
  exact ⟨fun h => h₁ (diamond_lines.1 h), fun h => h₂ (diamond_lines.2.1 h),
    fun h => h₃ (diamond_lines.2.2.1 h), fun h => h₄ (diamond_lines.2.2.2 h)⟩

/-- A leg between two points. -/
def legTo (start finish : Point ℝ) : Leg ℝ := ⟨⟨start, .epoch⟩, ⟨finish, .epoch⟩⟩

theorem leaving_shares {x : Point ℝ}
    (h : (Path.closed diamond).Shares ⟨⟨0, 0⟩, ⟨2, 0⟩⟩ x) : x = ⟨1, 0⟩ := by
  obtain ⟨hx, e, he, hex⟩ := h
  obtain ⟨t, h₀, h₁, rfl⟩ := Edge.holds_iff.mp hx
  rw [diamond_edges] at he
  simp only [List.mem_cons, List.not_mem_nil, or_false] at he
  simp only [Edge.pointAt, Point.mk.injEq]
  rcases he with rfl | rfl | rfl | rfl
  · have := diamond_lines.1 hex
    simp only [Edge.pointAt] at this
    exact ⟨by linarith, by linarith⟩
  · have := diamond_lines.2.1 hex
    simp only [Edge.pointAt] at this
    exact ⟨by linarith, by linarith⟩
  · have := diamond_lines.2.2.1 hex
    simp only [Edge.pointAt] at this
    linarith
  · have := diamond_lines.2.2.2 hex
    simp only [Edge.pointAt] at this
    linarith

theorem leaving_clean : (Path.closed diamond).Clean ⟨⟨0, 0⟩, ⟨2, 0⟩⟩ := by
  refine ⟨?_, fun x y hx hy hne => ?_⟩
  · rw [diamond_sides, diamond_edges]
    intro e he f hf hjoin hx
    have hvertex := leaving_shares ⟨hx, e, diamond_edges ▸ he, e.holds_finish⟩
    simp only [List.mem_cons, List.not_mem_nil, or_false] at he hf
    rcases he with rfl | rfl | rfl | rfl <;> rcases hf with rfl | rfl | rfl | rfl <;>
      norm_num at hjoin <;> norm_num at hvertex
    · refine .inl ⟨turnOf_left_iff.mpr ?_, turnOf_right_iff.mpr ?_⟩ <;> norm_num [cross]
  · exact absurd ((leaving_shares hx).trans (leaving_shares hy).symm) hne

noncomputable def grove : Fence ℝ := ⟨"grove", "Grove", [Path.closed diamond], .warning⟩

theorem grove_ok : Fence.around "grove" "Grove" diamond .warning = .ok grove := by
  rw [Fence.around, diamond_ok]
  rfl

/-- A leg that leaves the grove through a corner. -/
theorem crossings_tell_sides_leaving :
    Polygon.ofPoints diamond = .ok ⟨Path.closed diamond, []⟩ ∧
    Fence.around "grove" "Grove" diamond .warning = .ok grove ∧
    (Path.closed diamond).Simple ∧ (Path.closed diamond).Misses ⟨0, 0⟩ ∧
    (Path.closed diamond).Misses ⟨2, 0⟩ ∧ (Path.closed diamond).Clean ⟨⟨0, 0⟩, ⟨2, 0⟩⟩ ∧
    ((legTo ⟨0, 0⟩ ⟨2, 0⟩).crossings ⟨0, by decide⟩ grove [] ≠ [] ↔
      (Polygon.mk (Path.closed diamond) []).contains ⟨0, 0⟩ ≠
        (Polygon.mk (Path.closed diamond) []).contains ⟨2, 0⟩) := by
  have hstart : (Path.closed diamond).Misses ⟨0, 0⟩ := by
    apply diamond_misses <;> norm_num
  have hfinish : (Path.closed diamond).Misses ⟨2, 0⟩ := by
    apply diamond_misses <;> norm_num
  exact ⟨diamond_ok, grove_ok, diamond_simple, hstart, hfinish, leaving_clean,
    (Leg.crossings_tell_sides (legTo ⟨0, 0⟩ ⟨2, 0⟩) diamond_ok grove_ok diamond_simple hstart
      hfinish).2 leaving_clean⟩

theorem grazing_edges :
    (Edge.mk (⟨1, -1⟩ : Point ℝ) ⟨1, 1⟩).meet? ⟨⟨0, 1⟩, ⟨1, 0⟩⟩ = some (.single ⟨1, 0⟩) ∧
    (Edge.mk (⟨1, -1⟩ : Point ℝ) ⟨1, 1⟩).meet? ⟨⟨1, 0⟩, ⟨0, -1⟩⟩ = some (.single ⟨1, 0⟩) ∧
    ¬(Edge.mk (⟨1, -1⟩ : Point ℝ) ⟨1, 1⟩).Meets ⟨⟨0, -1⟩, ⟨-1, 0⟩⟩ ∧
    ¬(Edge.mk (⟨1, -1⟩ : Point ℝ) ⟨1, 1⟩).Meets ⟨⟨-1, 0⟩, ⟨0, 1⟩⟩ := by
  have hcorner : (Edge.mk (⟨1, -1⟩ : Point ℝ) ⟨1, 1⟩).holds ⟨1, 0⟩ = true :=
    Edge.holds_iff.mpr ⟨1 / 2, by norm_num, by norm_num, by norm_num [Edge.pointAt]⟩
  refine ⟨Edge.meet?_of_common ?_ hcorner (Edge.holds_finish _),
    Edge.meet?_of_common ?_ hcorner (Edge.holds_start _), ?_, ?_⟩
  · norm_num [Edge.side, cross]
  · norm_num [Edge.side, cross]
  · rintro ⟨x, hx, hex⟩
    obtain ⟨t, h₀, h₁, rfl⟩ := Edge.holds_iff.mp hx
    have := diamond_lines.2.2.1 hex
    simp only [Edge.pointAt] at this
    linarith
  · rintro ⟨x, hx, hex⟩
    obtain ⟨t, h₀, h₁, rfl⟩ := Edge.holds_iff.mp hx
    have := diamond_lines.2.2.2 hex
    simp only [Edge.pointAt] at this
    linarith

theorem grazing_meets : (meetingPoints ⟨1, -1⟩ ⟨1, 1⟩ grove.boundary).length = 1 := by
  obtain ⟨h₁, h₂, h₃, h₄⟩ := grazing_edges
  have hne : (⟨1, -1⟩ : Point ℝ).same ⟨1, 1⟩ = false := by
    norm_num [Point.same, Scalar.eq]
  have hnear := Point.near_self (⟨1, 0⟩ : Point ℝ)
  rw [meetingPoints, meetingPointsBy, hne, grove, Boundary.edges, List.flatMap_singleton,
    diamond_edges, sortByDistance]
  simp [h₁, h₂, Edge.meet?_eq_none h₃, Edge.meet?_eq_none h₄, Meeting.points, distinctPoints,
    addDistinct, hnear]

theorem grazing_passing :
    (passing ⟨⟨1, -1⟩, ⟨1, 1⟩⟩ (Path.closed diamond).edges).length = 2 := by
  obtain ⟨h₁, h₂, h₃, h₄⟩ := grazing_edges
  have first : (Edge.mk (⟨1, -1⟩ : Point ℝ) ⟨1, 1⟩).Passes ⟨⟨0, 1⟩, ⟨1, 0⟩⟩ := by
    refine ⟨⟨_, Edge.meet?_sound h₁ ⟨1, 0⟩ (by simp [Meeting.points])⟩, ?_⟩
    norm_num [Edge.turnTo_left_iff, Edge.side, cross]
  have second : (Edge.mk (⟨1, -1⟩ : Point ℝ) ⟨1, 1⟩).Passes ⟨⟨1, 0⟩, ⟨0, -1⟩⟩ := by
    refine ⟨⟨_, Edge.meet?_sound h₂ ⟨1, 0⟩ (by simp [Meeting.points])⟩, ?_⟩
    norm_num [Edge.turnTo_left_iff, Edge.side, cross]
  have third : ¬(Edge.mk (⟨1, -1⟩ : Point ℝ) ⟨1, 1⟩).Passes ⟨⟨0, -1⟩, ⟨-1, 0⟩⟩ := fun h => h₃ h.1
  have fourth : ¬(Edge.mk (⟨1, -1⟩ : Point ℝ) ⟨1, 1⟩).Passes ⟨⟨-1, 0⟩, ⟨0, 1⟩⟩ := fun h => h₄ h.1
  rw [diamond_edges, passing]
  simp [first, second, third, fourth]

/-- A leg that grazes a corner of the grove has a crossing and stays on one side. -/
theorem grazing_crosses :
    Polygon.ofPoints diamond = .ok ⟨Path.closed diamond, []⟩ ∧
    Fence.around "grove" "Grove" diamond .warning = .ok grove ∧
    (Path.closed diamond).Simple ∧ (Path.closed diamond).Misses ⟨1, -1⟩ ∧
    (Path.closed diamond).Misses ⟨1, 1⟩ ∧
    ¬((legTo ⟨1, -1⟩ ⟨1, 1⟩).crossings ⟨0, by decide⟩ grove [] ≠ [] ↔
      (Polygon.mk (Path.closed diamond) []).contains ⟨1, -1⟩ ≠
        (Polygon.mk (Path.closed diamond) []).contains ⟨1, 1⟩) := by
  have hstart : (Path.closed diamond).Misses ⟨1, -1⟩ := by
    apply diamond_misses <;> norm_num
  have hfinish : (Path.closed diamond).Misses ⟨1, 1⟩ := by
    apply diamond_misses <;> norm_num
  refine ⟨diamond_ok, grove_ok, diamond_simple, hstart, hfinish, ?_⟩
  obtain ⟨u, hring⟩ := Polygon.closed_joined diamond_ok
  have hcontains := Polygon.contains_ne_iff (d := ⟨⟨1, -1⟩, ⟨1, 1⟩⟩) hring
    (Polygon.two_le_length diamond_ok) diamond_simple hstart hfinish
  rw [Leg.crossings_ne_nil_iff, hcontains]
  simp only [legTo, grazing_meets, grazing_passing]
  decide

end Geotrack
