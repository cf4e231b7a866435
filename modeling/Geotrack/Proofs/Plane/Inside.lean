import Geotrack.Proofs.Plane.Tilt

/-!
# The inside of a simple ring

A simple ring goes around a point once or not at all. So a point is inside where the winding number
is odd, and of the ends of a segment one is inside and the other is not where an odd number of edges
pass the
segment. -/

namespace Geotrack

/-- The edges of a path, without those between a point and its repetition. -/
noncomputable def Path.sides (path : Path ℝ) : List (Edge ℝ) :=
  path.edges.filter fun e => e.start ≠ e.finish

/-- Whether the sides of a ring touch only where one leads to the next. -/
def Path.Simple (ring : Path ℝ) : Prop := ring.sides.Pairwise Edge.Apart

/-- Whether a point lies on no edge of a path. -/
def Path.Misses (path : Path ℝ) (p : Point ℝ) : Prop := ∀ e ∈ path.edges, e.holds p = false

variable {δ : ℝ} {d : Edge ℝ} {es : List (Edge ℝ)} {points : List (Point ℝ)} {ring : Path ℝ}
  {p q u : Point ℝ}

theorem windingAbout_proper :
    windingAbout δ p (es.filter fun e => e.start ≠ e.finish) = windingAbout δ p es := by
  induction es with
  | nil => rfl
  | cons e es ih =>
    by_cases he : e.start = e.finish
    · have hzero : turnsAbout δ p e = 0 :=
        turnsAbout_of_side_eq_zero (by simp only [Edge.side, cross, he]; ring)
      rw [List.filter_cons_of_neg (by simpa using he), ih, windingAbout_cons, hzero, zero_add]
    · rw [List.filter_cons_of_pos (by simpa using he), windingAbout_cons, windingAbout_cons, ih]

theorem Path.Misses.ne_vertex (h : ring.Misses p) {e : Edge ℝ} (he : e ∈ ring.edges) :
    p ≠ e.start ∧ p ≠ e.finish := by
  have := h e he
  constructor
  · rintro rfl
    rw [e.holds_start] at this
    cases this
  · rintro rfl
    rw [e.holds_finish] at this
    cases this

theorem Path.mem_sides {e : Edge ℝ} : e ∈ ring.sides ↔ e ∈ ring.edges ∧ e.start ≠ e.finish := by
  simp [sides]

theorem Path.Simple.loop (h : ring.Simple) (hring : Joined u ring.edges u) : Loop ring.sides :=
  ⟨⟨u, hring.filter⟩, fun _ he => (mem_sides.mp he).2, h⟩

/-- A simple ring goes around a point at most once. -/
theorem Path.Simple.winding_cases (hring : Joined u ring.edges u) (h : ring.Simple)
    (hδ : Slight δ points) (hp : p ∈ points)
    (hmem : ∀ e ∈ ring.edges, e.start ∈ points ∧ e.finish ∈ points) (hoff : ring.Misses p) :
    windingAbout δ p ring.edges = -1 ∨ windingAbout δ p ring.edges = 0 ∨
      windingAbout δ p ring.edges = 1 := by
  rw [← windingAbout_proper]
  refine (h.loop hring).winding_cases (fun e he => ?_) fun e he => ?_
  · obtain ⟨hmem', hne⟩ := mem_sides.mp he
    exact hδ.height_ne (hmem e hmem').1 (hmem e hmem').2 hne
  · have hmem' := (mem_sides.mp he).1
    obtain ⟨hs, hf⟩ := hoff.ne_vertex hmem'
    exact ⟨hδ.height_ne hp (hmem e hmem').1 hs, hδ.height_ne hp (hmem e hmem').2 hf⟩

namespace Polygon

theorem contains_iff (hlength : 2 ≤ ring.length) {n : ℤ}
    (h : Ring.winding? p ring.edges = some n) :
    (Polygon.mk ring []).contains p = true ↔ n ≠ 0 := by
  have hplace : Ring.place ring p = if n = 0 then .outside else .inside := by
    match ring, hlength with
    | a :: b :: rest, _ =>
      rw [Ring.place, h]
      · simp
      · simp
  rw [contains, place, hplace]
  by_cases hn : n = 0 <;> simp [hn, placeAmongHoles]

theorem contains_iff_odd (hring : Joined u ring.edges u) (hlength : 2 ≤ ring.length)
    (hsimple : ring.Simple) (hδ : Slight δ points) (hp : p ∈ points)
    (hmem : ∀ e ∈ ring.edges, e.start ∈ points ∧ e.finish ∈ points) (hoff : ring.Misses p) :
    (Polygon.mk ring []).contains p = true ↔ Odd (windingAbout δ p ring.edges) := by
  rw [contains_iff hlength (winding?_eq hδ hp hmem hoff)]
  rcases hsimple.winding_cases hring hδ hp hmem hoff with h | h | h <;> rw [h] <;> decide

/-- Of the ends of a segment one is inside a simple ring and the other is not where an odd number
of edges pass the segment. -/
theorem contains_ne_iff (hring : Joined u ring.edges u) (hlength : 2 ≤ ring.length)
    (hsimple : ring.Simple) (hs : ring.Misses d.start) (hf : ring.Misses d.finish) :
    (Polygon.mk ring []).contains d.start ≠ (Polygon.mk ring []).contains d.finish ↔
      Odd (passing d ring.edges).length := by
  by_cases hd : d.start = d.finish
  · have hnone : passing d ring.edges = [] := by
      refine List.eq_nil_iff_forall_not_mem.mpr fun e hmem => ?_
      obtain ⟨he, ⟨x, hx, hex⟩, -⟩ := mem_passing.mp hmem
      obtain ⟨t, -, -, rfl⟩ := Edge.holds_iff.mp hx
      have hstart : d.pointAt t = d.start := by simp [Edge.pointAt, ← hd]
      rw [hstart, hs e he] at hex
      cases hex
    simp [hd, hnone]
  obtain ⟨δ, hδ⟩ := exists_slight
    (d.start :: d.finish :: ring.edges.flatMap fun e => [e.start, e.finish])
  have hmem : ∀ e ∈ ring.edges,
      e.start ∈ d.start :: d.finish :: ring.edges.flatMap (fun e => [e.start, e.finish]) ∧
      e.finish ∈ d.start :: d.finish :: ring.edges.flatMap fun e => [e.start, e.finish] := by
    intro e he
    constructor <;>
      exact List.mem_cons_of_mem _ (List.mem_cons_of_mem _ (List.mem_flatMap.mpr ⟨e, he, by simp⟩))
  have hstart := contains_iff_odd hring hlength hsimple hδ (by simp) hmem hs
  have hfinish := contains_iff_odd hring hlength hsimple hδ (by simp) hmem hf
  have hparity := winding_parity hring hs hf (hδ.height_ne (by simp) (by simp) hd)
  rw [ne_eq, Bool.eq_iff_iff, hstart, hfinish]
  rw [Int.even_add, Int.even_add, ← Int.not_odd_iff_even, ← Int.not_odd_iff_even,
    ← Int.not_odd_iff_even, Int.odd_coe_nat] at hparity
  tauto

end Polygon

end Geotrack
