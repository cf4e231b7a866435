import Geotrack.Proofs.Plane.Exact
import Geotrack.Proofs.Plane.Contacts

/-!
# Exact meetings

With exact numbers `Edge.meet?` reports points that both edges hold, and of two edges that are not
on one line it reports their common point. So an edge with a length has contacts with a boundary
just where it meets an edge of it.
-/

namespace Geotrack

variable {d e : Edge ℝ} {a b x y : Point ℝ} {m : Meeting ℝ} {boundary : Boundary ℝ}

theorem Box.holds_spanning : (Box.spanning a b).holds x = true ↔
    Scalar.between x.longitude a.longitude b.longitude = true ∧
      Scalar.between x.latitude a.latitude b.latitude = true := by
  simp only [Box.holds, Box.spanning, Scalar.between, Scalar.lt, Scalar.le]
  by_cases h : a.longitude < b.longitude <;> by_cases k : a.latitude < b.latitude <;>
    simp [h, k] <;> tauto

/-- Boxes that hold a point in common touch. -/
theorem Box.touches_of_holds {p q : Box ℝ} (hp : p.holds x = true) (hq : q.holds x = true) :
    p.touches q = true := by
  simp only [Box.holds, Box.touches, Scalar.lt, Scalar.le, Bool.and_eq_true, decide_eq_true_eq,
    Bool.not_eq_true', Bool.or_eq_false_iff, decide_eq_false_iff_not, not_lt] at hp hq ⊢
  refine ⟨⟨⟨?_, ?_⟩, ?_⟩, ?_⟩ <;> linarith

namespace Edge

theorem box_holds_of_holds (h : e.holds x = true) : e.box.holds x = true :=
  Box.holds_spanning.mpr ((holds_eq e x).mp h).2

theorem holds_of_box_holds (hside : e.side x = 0) (h : e.box.holds x = true) : e.holds x = true :=
  (holds_eq e x).mpr ⟨hside, Box.holds_spanning.mp h⟩

theorem turnTo_straight_iff : d.turnTo x = .straight ↔ d.side x = 0 := turnOf_straight_iff

theorem sameSide_iff : sameSide (d.turnTo x) (d.turnTo y) = true ↔
    ¬Opposite (d.side x) (d.side y) := by
  have left (z : Point ℝ) (h : 0 < d.side z) : d.turnTo z = .left := turnOf_left_iff.mpr h
  have right (z : Point ℝ) (h : d.side z < 0) : d.turnTo z = .right := turnOf_right_iff.mpr h
  have straight (z : Point ℝ) (h : d.side z = 0) : d.turnTo z = .straight :=
    turnOf_straight_iff.mpr h
  rcases lt_trichotomy (d.side x) 0 with hx | hx | hx <;>
    rcases lt_trichotomy (d.side y) 0 with hy | hy | hy
  · simp [right x hx, right y hy, sameSide, Opposite, hx.not_ge, hy.not_ge]
  · simp [right x hx, straight y hy, sameSide, Opposite, hx.le, hy]
  · simp [right x hx, left y hy, sameSide, Opposite, hx.le, hy.le]
  · simp [straight x hx, right y hy, sameSide, Opposite, hx, hy.le]
  · simp [straight x hx, straight y hy, sameSide, Opposite, hx, hy]
  · simp [straight x hx, left y hy, sameSide, Opposite, hx, hy.le]
  · simp [left x hx, right y hy, sameSide, Opposite, hx.le, hy.le]
  · simp [left x hx, straight y hy, sameSide, Opposite, hx.le, hy]
  · simp [left x hx, left y hy, sameSide, Opposite, hx.not_ge, hy.not_ge]

/-- The sides of the ends of two edges differ by the same. -/
theorem side_sub_side (d e : Edge ℝ) :
    e.side d.start - e.side d.finish = d.side e.finish - d.side e.start := by
  simp only [side, cross]
  ring

/-! ### The common point of two edges -/

section Common

variable (hline : ¬(d.side e.start = 0 ∧ d.side e.finish = 0)) (hd : d.holds x = true)
  (he : e.holds x = true)
include hline hd he

theorem sides_ne_of_common : d.side e.start ≠ d.side e.finish := by
  intro heq
  obtain ⟨t, -, -, rfl⟩ := holds_iff.mp he
  have hside := side_of_holds hd
  rw [side_pointAt, ← heq] at hside
  exact hline ⟨by linarith, by linarith⟩

theorem eq_of_common (hd' : d.holds y = true) (he' : e.holds y = true) : x = y := by
  have hne := sides_ne_of_common hline hd he
  obtain ⟨s, -, -, rfl⟩ := holds_iff.mp he
  obtain ⟨t, -, -, rfl⟩ := holds_iff.mp he'
  have hs := side_of_holds hd
  have ht := side_of_holds hd'
  rw [side_pointAt] at hs ht
  have hmul : (s - t) * (d.side e.finish - d.side e.start) = 0 := by linear_combination hs - ht
  rw [sub_eq_zero.mp ((mul_eq_zero.mp hmul).resolve_right (sub_ne_zero.mpr hne.symm))]

theorem eq_start_of_side (h : d.side e.start = 0) : x = e.start := by
  have hne := sides_ne_of_common hline hd he
  obtain ⟨t, -, -, rfl⟩ := holds_iff.mp he
  have hside := side_of_holds hd
  rw [side_pointAt, h, mul_zero, zero_add] at hside
  rw [h] at hne
  rw [(mul_eq_zero.mp hside).resolve_right hne.symm]
  simp [pointAt]

theorem eq_finish_of_side (h : d.side e.finish = 0) : x = e.finish := by
  have hne := sides_ne_of_common hline hd he
  obtain ⟨t, -, -, rfl⟩ := holds_iff.mp he
  have hside := side_of_holds hd
  rw [side_pointAt, h, mul_zero, add_zero] at hside
  rw [h] at hne
  rw [show t = 1 by linarith [(mul_eq_zero.mp hside).resolve_right hne]]
  simp [pointAt]

theorem not_line_symm : ¬(e.side d.start = 0 ∧ e.side d.finish = 0) := by
  rintro ⟨h₁, h₂⟩
  have h := side_sub_side d e
  rw [h₁, h₂, sub_self] at h
  exact sides_ne_of_common hline hd he (by linarith)

end Common

/-- Where the lines of two edges cross in one point, that point is computed exactly. -/
theorem lineCrossing?_eq (hne : d.side e.start ≠ d.side e.finish) (hd : d.side x = 0)
    (he : e.side x = 0) : lineCrossing? d e = some x := by
  have hw : ∀ mx my : ℝ,
      ((d.start.latitude - my) - (d.finish.latitude - my)) *
        ((e.finish.longitude - mx) - (e.start.longitude - mx)) -
      ((e.start.latitude - my) - (e.finish.latitude - my)) *
        ((d.finish.longitude - mx) - (d.start.longitude - mx)) ≠ 0 := by
    intro mx my h
    refine hne ?_
    simp only [side, cross]
    linear_combination -h
  simp only [side, cross] at hd he
  unfold lineCrossing?
  extract_lets middle mx my p1x p1y p2x p2y q1x q1y q2x q2y px py pw qx qy qw w cx cy
  have hw' : w ≠ 0 := hw mx my
  have hx : cx = x.longitude - mx := by
    refine (div_eq_iff hw').mpr ?_
    simp only [w, px, py, pw, qx, qy, qw, p1x, p1y, p2x, p2y, q1x, q1y, q2x, q2y]
    linear_combination (d.finish.longitude - d.start.longitude) * he -
      (e.finish.longitude - e.start.longitude) * hd
  have hy : cy = x.latitude - my := by
    refine (div_eq_iff hw').mpr ?_
    simp only [w, px, py, pw, qx, qy, qw, p1x, p1y, p2x, p2y, q1x, q1y, q2x, q2y]
    linear_combination (d.finish.latitude - d.start.latitude) * he -
      (e.finish.latitude - e.start.latitude) * hd
  rw [if_pos (by simp [Scalar.finite]), hx, hy, sub_add_cancel, sub_add_cancel]

/-- Of two edges that are not on one line the common point is reported. -/
theorem meet?_of_common (hline : ¬(d.side e.start = 0 ∧ d.side e.finish = 0))
    (hd : d.holds x = true) (he : e.holds x = true) : d.meet? e = some (.single x) := by
  have hline' := not_line_symm hline hd he
  obtain ⟨hopposite, hopposite'⟩ := (meets_iff hline).mp ⟨x, hd, he⟩
  have htouch := Box.touches_of_holds (box_holds_of_holds hd) (box_holds_of_holds he)
  have hsame : ¬sameSide (d.turnTo e.start) (d.turnTo e.finish) = true :=
    fun h => sameSide_iff.mp h hopposite
  have hsame' : ¬sameSide (e.turnTo d.start) (e.turnTo d.finish) = true :=
    fun h => sameSide_iff.mp h hopposite'
  unfold meet?
  rw [htouch]
  simp only [Bool.not_true, Bool.false_eq_true, if_false, hsame, hsame', turnTo_straight_iff,
    Point.same_iff, Bool.or_eq_true]
  rw [if_neg fun h => hline ⟨h.1, h.2.1⟩]
  have hcommon {y : Point ℝ} (hy : d.holds y = true) (hy' : e.holds y = true) : y = x :=
    eq_of_common hline hy hy' hd he
  split
  · split_ifs with h₁ h₂ h₃ h₄ h₅
    · rcases h₁ with h | h
      · rw [hcommon d.holds_start (h ▸ e.holds_start)]
      · rw [hcommon d.holds_start (h ▸ e.holds_finish)]
    · rcases h₂ with h | h
      · rw [hcommon d.holds_finish (h ▸ e.holds_start)]
      · rw [hcommon d.holds_finish (h ▸ e.holds_finish)]
    · rw [eq_start_of_side hline hd he h₃]
    · rw [eq_finish_of_side hline hd he h₄]
    · rw [eq_start_of_side hline' he hd h₅]
    · rename_i h
      rw [eq_finish_of_side hline' he hd (by tauto)]
  · rw [properCrossing, lineCrossing?_eq (sides_ne_of_common hline hd he) (side_of_holds hd)
      (side_of_holds he), Option.getD_some,
      if_pos (by rw [box_holds_of_holds hd, box_holds_of_holds he]; rfl)]

/-- What two edges on one line have in common lies on both. -/
theorem overlap?_sound (hs : d.side e.start = 0) (hf : d.side e.finish = 0)
    (hs' : e.side d.start = 0) (hf' : e.side d.finish = 0) (hm : overlap? d e = some m) :
    ∀ x ∈ m.points, d.holds x = true ∧ e.holds x = true := by
  have start (h : d.box.holds e.start = true) : d.holds e.start = true ∧ e.holds e.start = true :=
    ⟨holds_of_box_holds hs h, e.holds_start⟩
  have finish (h : d.box.holds e.finish = true) :
      d.holds e.finish = true ∧ e.holds e.finish = true :=
    ⟨holds_of_box_holds hf h, e.holds_finish⟩
  have start' (h : e.box.holds d.start = true) : d.holds d.start = true ∧ e.holds d.start = true :=
    ⟨d.holds_start, holds_of_box_holds hs' h⟩
  have finish' (h : e.box.holds d.finish = true) :
      d.holds d.finish = true ∧ e.holds d.finish = true :=
    ⟨d.holds_finish, holds_of_box_holds hf' h⟩
  unfold overlap? at hm
  split at hm
  · cases hm
    simp [Meeting.points, *]
  · cases hm
    simp [Meeting.points, *]
  · split at hm <;> cases hm <;> simp [Meeting.points, *]
  · split at hm <;> cases hm <;> simp [Meeting.points, *]
  · split at hm <;> cases hm <;> simp [Meeting.points, *]
  · split at hm <;> cases hm <;> simp [Meeting.points, *]
  · cases hm

/-! ### Edges on one line -/

/-- A point on the line of an edge is some share of the way along it, be it before the start or past
the finish. -/
theorem exists_pointAt (moves : d.start ≠ d.finish) (h : d.side x = 0) : ∃ t, x = d.pointAt t := by
  obtain ⟨⟨a, b⟩, ⟨a', b'⟩⟩ := d
  obtain ⟨x, y⟩ := x
  simp only [side, cross, pointAt, Point.mk.injEq, ne_eq] at *
  by_cases hx : a = a'
  · have hy : b' - b ≠ 0 := sub_ne_zero.mpr fun hy => moves ⟨hx, hy.symm⟩
    subst hx
    refine ⟨(y - b) / (b' - b), ?_, by rw [div_mul_cancel₀ _ hy]; ring⟩
    have : (b' - b) * (x - a) = 0 := by linarith
    linarith [(mul_eq_zero.mp this).resolve_left hy]
  · have hx : a' - a ≠ 0 := sub_ne_zero.mpr (Ne.symm hx)
    refine ⟨(x - a) / (a' - a), by rw [div_mul_cancel₀ _ hx]; ring, ?_⟩
    field_simp
    linarith

theorem pointAt_injective (moves : d.start ≠ d.finish) : Function.Injective d.pointAt := by
  obtain ⟨⟨a, b⟩, ⟨a', b'⟩⟩ := d
  intro s t h
  simp only [pointAt, Point.mk.injEq, add_right_inj, mul_eq_mul_right_iff, sub_eq_zero] at h
  by_contra hne
  exact moves (by rw [h.1.resolve_left hne, h.2.resolve_left hne])

/-- A line that an edge lies on is the line of the edge. -/
theorem side_eq_zero_of_line (moves : d.start ≠ d.finish) (hs : d.side e.start = 0)
    (hf : d.side e.finish = 0) : e.side d.start = 0 := by
  obtain ⟨s, hs⟩ := exists_pointAt moves hs
  obtain ⟨f, hf⟩ := exists_pointAt moves hf
  simp only [side, cross, hs, hf, pointAt]
  ring

theorem meet?_of_line (hs : d.side e.start = 0) (hf : d.side e.finish = 0)
    (hs' : e.side d.start = 0) :
    d.meet? e = if d.box.touches e.box then overlap? d e else none := by
  have hf' : e.side d.finish = 0 := by linarith [side_sub_side d e]
  rw [meet?]
  cases d.box.touches e.box with
  | false => rfl
  | true =>
    simp only [Bool.not_true, Bool.false_eq_true, if_false, if_true]
    rw [if_neg fun h => sameSide_iff.mp h (.inl ⟨hs.le, hf.ge⟩),
      if_neg fun h => sameSide_iff.mp h (.inl ⟨hs'.le, hf'.ge⟩), if_pos]
    simp only [turnTo_straight_iff]
    exact ⟨hs, hf, hs', hf'⟩

/-- Two stretches of a line that share a point end in one another: one at both ends, or each at
one. -/
theorem ends_of_shared {s f t : ℝ} (h0 : 0 ≤ t) (h1 : t ≤ 1)
    (shared : s ≤ t ∧ t ≤ f ∨ f ≤ t ∧ t ≤ s) :
    (0 ≤ s ∧ s ≤ 1) ∧ 0 ≤ f ∧ f ≤ 1 ∨
      (s ≤ 0 ∧ 0 ≤ f ∨ f ≤ 0 ∧ 0 ≤ s) ∧ (s ≤ 1 ∧ 1 ≤ f ∨ f ≤ 1 ∧ 1 ≤ s) ∨
      (0 ≤ s ∧ s ≤ 1 ∨ 0 ≤ f ∧ f ≤ 1) ∧
        ((s ≤ 0 ∧ 0 ≤ f ∨ f ≤ 0 ∧ 0 ≤ s) ∨ s ≤ 1 ∧ 1 ≤ f ∨ f ≤ 1 ∧ 1 ≤ s) := by
  grind

theorem overlap?_of_ends {K : Type} [Scalar K] {d e : Edge K}
    (h : d.box.holds e.start = true ∧ d.box.holds e.finish = true ∨
      e.box.holds d.start = true ∧ e.box.holds d.finish = true ∨
      (d.box.holds e.start = true ∨ d.box.holds e.finish = true) ∧
        (e.box.holds d.start = true ∨ e.box.holds d.finish = true)) :
    overlap? d e ≠ none := by
  intro none
  rw [overlap?] at none
  split at none <;> grind

/-- Edges on one line that share a point have a meeting. -/
theorem overlap?_of_common (moves : d.start ≠ d.finish) (hs : d.side e.start = 0)
    (hf : d.side e.finish = 0) (hd : d.holds x = true) (he : e.holds x = true) :
    overlap? d e ≠ none := by
  obtain ⟨s, hs⟩ := exists_pointAt moves hs
  obtain ⟨f, hf⟩ := exists_pointAt moves hf
  obtain ⟨t, h0, h1, rfl⟩ := holds_iff.mp hd
  obtain ⟨u, u0, u1, hu⟩ := holds_iff.mp he
  have along (v : ℝ) : e.pointAt v = d.pointAt (s + v * (f - s)) := by
    rw [pointAt, hs, hf]
    simp only [pointAt, Point.mk.injEq]
    constructor <;> ring
  rw [along] at hu
  have shared := between_share (a := s) (b := f) u0 u1
  rw [← pointAt_injective moves hu] at shared
  have inner {r : ℝ} {p : Point ℝ} (hp : p = d.pointAt r) (h : 0 ≤ r ∧ r ≤ 1) :
      d.box.holds p = true :=
    box_holds_of_holds (holds_iff.mpr ⟨r, h.1, h.2, hp⟩)
  have outer {r : ℝ} {p : Point ℝ} (hp : p = d.pointAt r) (hr : s ≤ r ∧ r ≤ f ∨ f ≤ r ∧ r ≤ s) :
      e.box.holds p = true := by
    refine box_holds_of_holds (holds_iff.mpr ?_)
    rcases eq_or_ne s f with rfl | hne
    · have : r = s := by rcases hr with h | h <;> linarith
      exact ⟨0, le_rfl, zero_le_one, by rw [hp, along, this]; simp⟩
    · obtain ⟨v, v0, v1, rfl⟩ := exists_share hne hr
      exact ⟨v, v0, v1, by rw [hp, along]⟩
  refine overlap?_of_ends ?_
  rcases ends_of_shared h0 h1 shared with ⟨hs', hf'⟩ | ⟨hs', hf'⟩ | ⟨hin, hout⟩
  · exact .inl ⟨inner hs hs', inner hf hf'⟩
  · exact .inr (.inl ⟨outer d.pointAt_zero.symm hs', outer d.pointAt_one.symm hf'⟩)
  · exact .inr (.inr ⟨hin.imp (inner hs) (inner hf),
      hout.imp (outer d.pointAt_zero.symm) (outer d.pointAt_one.symm)⟩)

/-! ### Meetings -/

/-- Points that are reported lie on both edges. -/
theorem meet?_sound (hm : d.meet? e = some m) :
    ∀ x ∈ m.points, d.holds x = true ∧ e.holds x = true := by
  by_cases hline : d.side e.start = 0 ∧ d.side e.finish = 0
  · have hsub := side_sub_side d e
    rw [hline.1, hline.2, sub_self, sub_eq_zero] at hsub
    by_cases hline' : e.side d.start = 0
    · rw [meet?_of_line hline.1 hline.2 hline'] at hm
      split at hm
      · exact overlap?_sound hline.1 hline.2 hline' (hsub ▸ hline') hm
      · cases hm
    · have hsame : sameSide (e.turnTo d.start) (e.turnTo d.finish) = true := by
        rw [sameSide_iff, ← hsub]
        rintro (⟨h₁, h₂⟩ | ⟨h₁, h₂⟩) <;> exact hline' (by linarith)
      unfold meet? at hm
      simp [hsame] at hm
  · have hmeets : d.Meets e := by
      rw [meets_iff hline]
      constructor <;> by_contra h <;> have hsame := sameSide_iff.mpr h <;> unfold meet? at hm <;>
        simp [hsame] at hm
    obtain ⟨x, hd, he⟩ := hmeets
    rw [meet?_of_common hline hd he] at hm
    cases hm
    simp [Meeting.points, hd, he]

theorem meet?_eq_none (h : ¬d.Meets e) : d.meet? e = none := by
  cases hm : d.meet? e with
  | none => rfl
  | some m =>
    cases m with
    | single p => exact absurd ⟨p, meet?_sound hm p (by simp [Meeting.points])⟩ h
    | stretch s => exact absurd ⟨s.start, meet?_sound hm s.start (by simp [Meeting.points])⟩ h

/-- Nothing that an edge with a length has in common with another edge is missed. -/
theorem meet?_eq_none_iff (moves : d.start ≠ d.finish) : d.meet? e = none ↔ ¬d.Meets e := by
  refine ⟨?_, meet?_eq_none⟩
  rintro none ⟨x, hd, he⟩
  by_cases hline : d.side e.start = 0 ∧ d.side e.finish = 0
  · have touch := Box.touches_of_holds (box_holds_of_holds hd) (box_holds_of_holds he)
    rw [meet?_of_line hline.1 hline.2 (side_eq_zero_of_line moves hline.1 hline.2), if_pos touch]
      at none
    exact overlap?_of_common moves hline.1 hline.2 hd he none
  · rw [meet?_of_common hline hd he] at none
    cases none

theorem holds_of_contact (h : x ∈ d.contacts boundary) : d.holds x = true := by
  obtain ⟨e, -, hx⟩ := List.mem_flatMap.mp h
  cases hm : d.meet? e with
  | none => simp [hm] at hx
  | some m => exact (meet?_sound hm x (by simpa [hm] using hx)).1

/-- An edge with a length has contacts with a boundary unless it meets no edge of it. -/
theorem contacts_eq_nil_iff (moves : d.start ≠ d.finish) :
    d.contacts boundary = [] ↔ ∀ e ∈ boundary.edges, ¬d.Meets e := by
  rw [contacts, List.flatMap_eq_nil_iff]
  refine forall₂_congr fun e _ => ?_
  rw [← meet?_eq_none_iff moves]
  cases d.meet? e with
  | none => simp
  | some m => cases m <;> simp [Meeting.points]

end Edge

/-! ### Distinct points -/

theorem Point.near_self (p : Point ℝ) : p.near p = true := by
  have hpos : (0 : ℝ) < 1 / 10 ^ 9 := by positivity
  simp [Point.near, Scalar.abs, samePointTolerance, Scalar.lt, Scalar.zero, Scalar.ofInt,
    Scalar.decimal]

variable {K : Type} [Scalar K] {points : List (Point K)}

/-- Of points that are near none but themselves each is kept once. -/
theorem distinctPoints_spec (hself : ∀ p ∈ points, p.near p = true)
    (happart : ∀ p ∈ points, ∀ q ∈ points, p ≠ q → p.near q = false) :
    (distinctPoints points).Nodup ∧ ∀ p, p ∈ distinctPoints points ↔ p ∈ points := by
  refine ⟨distinctPoints_nodup hself, fun p => ⟨mem_of_mem_distinctPoints, fun h => ?_⟩⟩
  obtain ⟨q, hq, rfl | near⟩ := exists_standsFor h
  · exact hq
  · by_contra hp
    rw [happart q (mem_of_mem_distinctPoints hq) p h (by rintro rfl; exact hp hq)] at near
    cases near

end Geotrack
