import Geotrack.Plane.Polygon
import Geotrack.Proofs.Number.Turn
import Geotrack.Proofs.Plane.Chain

/-!
# Points beside a ring

A point that lies north, south, east or west of all points of a closed ring is not inside the ring.
This is told of floats, for rings whose edges east of the point are not so close to it or so large
that the products in the turn toward it vanish or overflow.
-/

namespace Geotrack

open Binary64

variable {p q : Point Float} {e : Edge Float} {es : List (Edge Float)}
  {ring : Path Float}

namespace Point

/-- Whether both coordinates are finite. -/
def IsFinite (p : Point Float) : Prop := finite p.longitude = true ∧ finite p.latitude = true

instance : Decidable p.IsFinite := inferInstanceAs (Decidable (_ ∧ _))

/-- Whether a point lies north of the latitude of another one, counted. -/
def above (p q : Point Float) : ℤ := if value p.latitude < value q.latitude then 1 else 0

end Point

namespace Edge

/-- Whether both ends of an edge are finite. -/
def IsFinite (e : Edge Float) : Prop := e.start.IsFinite ∧ e.finish.IsFinite

/-- Whether an edge reaches from one side of the latitude of a point to the other. -/
def Spans (e : Edge Float) (p : Point Float) : Prop := p.above e.start ≠ p.above e.finish

/-- Whether an edge lies east of a point. -/
def EastOf (e : Edge Float) (p : Point Float) : Prop :=
  value p.longitude < value e.start.longitude ∧ value p.longitude < value e.finish.longitude

/-- Whether an edge lies west of a point. -/
def WestOf (e : Edge Float) (p : Point Float) : Prop :=
  value e.start.longitude < value p.longitude ∧ value e.finish.longitude < value p.longitude

/-- Whether the products in the turn of an edge toward a point are finite and do not both vanish. -/
def Tells (e : Edge Float) (p : Point Float) : Prop :=
  Resolved e.start.longitude e.start.latitude e.finish.longitude e.finish.latitude p.longitude
    p.latitude

instance : Decidable (e.Spans p) := inferInstanceAs (Decidable (_ ≠ _))

instance : Decidable (e.EastOf p) := inferInstanceAs (Decidable (_ ∧ _))

instance : Decidable (e.Tells p) := inferInstanceAs (Decidable (Resolved _ _ _ _ _ _))

end Edge

/-! ### Single edges -/

section Step

variable (hp : p.IsFinite) (he : e.IsFinite)
include hp he

theorem between_eq_false (h : e.EastOf p ∨ e.WestOf p) :
    Scalar.between p.longitude e.start.longitude e.finish.longitude = false := by
  obtain ⟨⟨hs, -⟩, hf, -⟩ := he
  simp only [Scalar.between, scalar_lt_eq hs hf, scalar_le_eq hs hp.1, scalar_le_eq hp.1 hf,
    scalar_le_eq hf hp.1, scalar_le_eq hp.1 hs]
  rcases h with ⟨h1, h2⟩ | ⟨h1, h2⟩ <;> simp [h1.not_ge, h2.not_ge]

/-- What an edge beside a point adds, by the turn toward the point. -/
theorem windingStep?_beside (h : e.EastOf p ∨ e.WestOf p) : Ring.windingStep? p e = some
    (if value e.start.latitude ≤ value p.latitude ∧ value p.latitude < value e.finish.latitude ∧
        e.turnTo p = .left then 1
      else if value e.finish.latitude ≤ value p.latitude ∧
        value p.latitude < value e.start.latitude ∧ e.turnTo p = .right then -1
      else 0) := by
  have hb := between_eq_false hp he h
  obtain ⟨⟨-, hs⟩, -, hf⟩ := he
  simp only [Ring.windingStep?, hb, scalar_le_eq hs hp.2, scalar_le_eq hp.2 hf,
    scalar_le_eq hf hp.2, scalar_eq_eq hf hp.2]
  by_cases h1 : value e.start.latitude ≤ value p.latitude
  · rcases lt_trichotomy (value p.latitude) (value e.finish.latitude) with h2 | h2 | h2
    · cases e.turnTo p <;> simp [h1, h2, h2.le, h2.ne', h2.not_ge]
    · cases e.turnTo p <;> simp [h2, h2 ▸ h1.not_gt]
    · cases e.turnTo p <;> simp [h1.not_gt, h2.not_ge, h2.not_gt]
  · by_cases h2 : value e.finish.latitude ≤ value p.latitude
    · cases e.turnTo p <;> simp [h1, h2, not_le.mp h1]
    · simp [h1, h2]

/-- An edge west of a point turns it neither left on the way north nor right on the way south. -/
theorem windingStep?_of_west (h : e.WestOf p) : Ring.windingStep? p e = some 0 := by
  rw [windingStep?_beside hp he (.inr h)]
  obtain ⟨⟨hsx, hsy⟩, hfx, hfy⟩ := he
  obtain ⟨h1, h2⟩ := h
  rw [if_neg, if_neg]
  · rintro ⟨south, north, hturn⟩
    refine turn_ne_toward (s := .negative) hsx hsy hfx hfy hp.1 hp.2 ?_ ?_ hturn
    · rw [signFactor, neg_one_mul]
      nlinarith [mul_nonneg (sub_nonneg.mpr h1.le) (sub_nonneg.mpr south)]
    · rw [signFactor, neg_one_mul]
      nlinarith [mul_pos (sub_pos.mpr h2) (sub_pos.mpr north)]
  · rintro ⟨south, north, hturn⟩
    refine turn_ne_toward (s := .positive) hsx hsy hfx hfy hp.1 hp.2 ?_ ?_ hturn
    · rw [signFactor, one_mul]
      nlinarith [mul_pos (sub_pos.mpr h1) (sub_pos.mpr north)]
    · rw [signFactor, one_mul]
      nlinarith [mul_nonneg (sub_nonneg.mpr h2.le) (sub_nonneg.mpr south)]

/-- An edge east of a point turns it left on the way north and right on the way south, so that what
it adds is how the side of the latitude changes. -/
theorem windingStep?_of_east (h : e.EastOf p) (tells : e.Spans p → e.Tells p) :
    Ring.windingStep? p e = some (p.above e.finish - p.above e.start) := by
  rw [windingStep?_beside hp he (.inl h)]
  obtain ⟨⟨hsx, hsy⟩, hfx, hfy⟩ := he
  obtain ⟨h1, h2⟩ := h
  unfold Edge.Spans Point.above at *
  by_cases south : value e.start.latitude ≤ value p.latitude <;>
    by_cases south' : value e.finish.latitude ≤ value p.latitude
  · simp [south, south', south.not_gt, south'.not_gt]
  · have north := not_le.mp south'
    have hturn : e.turnTo p = .left := by
      refine turn_eq_toward (s := .positive) hsx hsy hfx hfy hp.1 hp.2 (tells ?_) ?_ ?_
      · simp [north, south.not_gt]
      · rw [signFactor, one_mul]
        nlinarith [mul_pos (sub_pos.mpr h1) (sub_pos.mpr north)]
      · rw [signFactor, one_mul]
        nlinarith [mul_nonneg (sub_nonneg.mpr h2.le) (sub_nonneg.mpr south)]
    simp [south, north, hturn, south.not_gt]
  · have north := not_le.mp south
    have hturn : e.turnTo p = .right := by
      refine turn_eq_toward (s := .negative) hsx hsy hfx hfy hp.1 hp.2 (tells ?_) ?_ ?_
      · simp [north, south'.not_gt]
      · rw [signFactor, neg_one_mul]
        nlinarith [mul_nonneg (sub_nonneg.mpr h1.le) (sub_nonneg.mpr south')]
      · rw [signFactor, neg_one_mul]
        nlinarith [mul_pos (sub_pos.mpr h2) (sub_pos.mpr north)]
    simp [south, south', north, hturn, south'.not_gt]
  · simp [south, south', not_le.mp south, not_le.mp south']

/-- An edge north or south of a point adds nothing. -/
theorem windingStep?_of_latitude
    (h : value p.latitude < value e.start.latitude ∧ value p.latitude < value e.finish.latitude ∨
      value e.start.latitude < value p.latitude ∧ value e.finish.latitude < value p.latitude) :
    Ring.windingStep? p e = some 0 := by
  obtain ⟨⟨-, hs⟩, -, hf⟩ := he
  simp only [Ring.windingStep?, scalar_le_eq hs hp.2, scalar_le_eq hp.2 hf, scalar_le_eq hf hp.2]
  rcases h with ⟨h1, h2⟩ | ⟨h1, h2⟩
  · simp [h1.not_ge, h2.not_ge]
  · simp [h1.le, h2.not_ge]

end Step

/-! ### Rings -/

theorem Path.mem_of_mem_edges {K : Type} {e : Edge K} :
    ∀ {path : Path K}, e ∈ path.edges → e.start ∈ path ∧ e.finish ∈ path
  | a :: b :: rest, h => by
    rcases List.mem_cons.mp h with rfl | h
    · simp
    · obtain ⟨hs, hf⟩ := Path.mem_of_mem_edges h
      exact ⟨List.mem_cons_of_mem a hs, List.mem_cons_of_mem a hf⟩

/-- The ends of a closed path are equally high. -/
theorem above_last {a : Point Float} {rest : Path Float}
    (hfinite : ∀ q ∈ a :: rest, q.IsFinite) (hclosed : Path.closed (a :: rest) = a :: rest) :
    p.above ((a :: rest).getLast (by simp)) = p.above a := by
  have hlast : (a :: rest).getLast? = some ((a :: rest).getLast (by simp)) :=
    List.getLast?_eq_some_getLast _
  simp only [Path.closed, List.head?_cons, hlast] at hclosed
  split at hclosed
  · rename_i hsame
    have hlat := (Bool.and_eq_true_iff.mp hsame).2
    rw [scalar_eq_eq (hfinite a (by simp)).2 (hfinite _ (List.getLast_mem _)).2,
      decide_eq_true_iff] at hlat
    rw [Point.above, Point.above, hlat]
  · exact absurd (congrArg List.length hclosed) (by simp)

/-- Whether all points lie on one side of a point, east, west, north or south. -/
def Point.Beside (p : Point Float) (points : List (Point Float)) : Prop :=
  (∀ q ∈ points, value p.longitude < value q.longitude) ∨
  (∀ q ∈ points, value q.longitude < value p.longitude) ∨
  (∀ q ∈ points, value p.latitude < value q.latitude) ∨
  (∀ q ∈ points, value q.latitude < value p.latitude)

theorem winding?_of_beside {a : Point Float} {rest : Path Float} (hp : p.IsFinite)
    (hfinite : ∀ q ∈ a :: rest, q.IsFinite) (hclosed : Path.closed (a :: rest) = a :: rest)
    (htells : ∀ e ∈ Path.edges (a :: rest), e.EastOf p → e.Spans p → e.Tells p)
    (h : p.Beside (a :: rest)) : Ring.winding? p (Path.edges (a :: rest)) = some 0 := by
  have ends {e : Edge Float} (he : e ∈ Path.edges (a :: rest)) := Path.mem_of_mem_edges he
  have fin {e : Edge Float} (he : e ∈ Path.edges (a :: rest)) : e.IsFinite :=
    ⟨hfinite _ (ends he).1, hfinite _ (ends he).2⟩
  have none (hsteps : ∀ e ∈ Path.edges (a :: rest), Ring.windingStep? p e = some 0) :
      Ring.winding? p (Path.edges (a :: rest)) = some 0 := by
    simpa using winding?_of_steps (f := fun _ => 0) hsteps
  rcases h with h | h | h | h
  · have hsteps := winding?_of_steps (f := fun e => p.above e.finish - p.above e.start)
      fun e he => windingStep?_of_east hp (fin he) ⟨h _ (ends he).1, h _ (ends he).2⟩
        (htells e he ⟨h _ (ends he).1, h _ (ends he).2⟩)
    have hsum := (Path.edges_joined a rest).sum_sub fun q => -p.above q
    simp only [neg_sub_neg, above_last hfinite hclosed, sub_self] at hsum
    rw [hsteps, hsum]
  · exact none fun e he => windingStep?_of_west hp (fin he) ⟨h _ (ends he).1, h _ (ends he).2⟩
  · exact none fun e he =>
      windingStep?_of_latitude hp (fin he) (.inl ⟨h _ (ends he).1, h _ (ends he).2⟩)
  · exact none fun e he =>
      windingStep?_of_latitude hp (fin he) (.inr ⟨h _ (ends he).1, h _ (ends he).2⟩)

/-- A point beside a closed ring is not inside. -/
theorem Ring.place_of_beside (hp : p.IsFinite) (hfinite : ∀ q ∈ ring, q.IsFinite)
    (hclosed : ring.closed = ring)
    (htells : ∀ e ∈ ring.edges, e.EastOf p → e.Spans p → e.Tells p) (h : p.Beside ring) :
    Ring.place ring p ≠ .inside := by
  match ring with
  | [] => simp [Ring.place]
  | [q] =>
    rw [Ring.place]
    split <;> simp
  | a :: b :: rest => simp [Ring.place, winding?_of_beside hp hfinite hclosed htells h]

end Geotrack
