import Mathlib
import Geotrack.Plane.Boundary

/-!
# Exact geometry

The real numbers are `Scalar`s whose operations are exact. The lemmas here say what turns, edges and
boxes mean for them.
-/

namespace Geotrack

open Classical in
/-- The real numbers with exact operations. -/
noncomputable instance : Scalar ℝ where
  ofInt n := n
  decimal digits places := digits / 10 ^ places
  pi := Real.pi
  degree := Real.pi / 180
  radian := 180 / Real.pi
  eq x y := decide (x = y)
  lt x y := decide (x < y)
  le x y := decide (x ≤ y)
  sortKeyLe x y := decide (x ≤ y)
  finite _ := true
  sqrt := Real.sqrt
  sin := Real.sin
  cos := Real.cos
  asin := Real.arcsin
  atan2 y x := Complex.arg ⟨x, y⟩
  fusedMulAdd a b c := a * b + c
  hypotenuse x y := Real.sqrt (x * x + y * y)
  roundInt x := if 0 ≤ x then ⌊x + 1 / 2⌋ else ⌈x - 1 / 2⌉
  truncateInt x := if 0 ≤ x then ⌊x⌋ else ⌈x⌉
  ceilNat x := ⌈x⌉₊
  turn px py qx qy rx ry :=
    .ofSign (compare ((px - rx) * (qy - ry)) ((py - ry) * (qx - rx)))

/-- Twice the area of the triangle of three points, positive where they turn left. -/
noncomputable def cross (p q r : Point ℝ) : ℝ :=
  (q.longitude - p.longitude) * (r.latitude - p.latitude) -
    (q.latitude - p.latitude) * (r.longitude - p.longitude)

theorem turnOf_eq (p q r : Point ℝ) : turnOf p q r = .ofSign (compare (cross p q r) 0) := by
  have h : (p.longitude - r.longitude) * (q.latitude - r.latitude) -
      (p.latitude - r.latitude) * (q.longitude - r.longitude) = cross p q r := by
    rw [cross]
    ring
  change Turn.ofSign (compare ((p.longitude - r.longitude) * (q.latitude - r.latitude))
    ((p.latitude - r.latitude) * (q.longitude - r.longitude))) = _
  congr 1
  rw [← h]
  rcases lt_trichotomy ((p.longitude - r.longitude) * (q.latitude - r.latitude))
    ((p.latitude - r.latitude) * (q.longitude - r.longitude)) with hlt | heq | hgt
  · rw [compare_lt_iff_lt.mpr hlt, compare_lt_iff_lt.mpr (by linarith)]
  · rw [compare_eq_iff_eq.mpr heq, compare_eq_iff_eq.mpr (by linarith)]
  · rw [compare_gt_iff_gt.mpr hgt, compare_gt_iff_gt.mpr (by linarith)]

theorem turnOf_left_iff {p q r : Point ℝ} : turnOf p q r = .left ↔ 0 < cross p q r := by
  rw [turnOf_eq]
  rcases lt_trichotomy (cross p q r) 0 with h | h | h
  · simp [compare_lt_iff_lt.mpr h, Turn.ofSign, h.le]
  · simp [h, Turn.ofSign]
  · simp [compare_gt_iff_gt.mpr h, Turn.ofSign, h]

theorem turnOf_right_iff {p q r : Point ℝ} : turnOf p q r = .right ↔ cross p q r < 0 := by
  rw [turnOf_eq]
  rcases lt_trichotomy (cross p q r) 0 with h | h | h
  · simp [compare_lt_iff_lt.mpr h, Turn.ofSign, h]
  · simp [h, Turn.ofSign]
  · simp [compare_gt_iff_gt.mpr h, Turn.ofSign, h.le]

theorem turnOf_straight_iff {p q r : Point ℝ} : turnOf p q r = .straight ↔ cross p q r = 0 := by
  rw [turnOf_eq]
  rcases lt_trichotomy (cross p q r) 0 with h | h | h
  · simp [compare_lt_iff_lt.mpr h, Turn.ofSign, h.ne]
  · simp [h, Turn.ofSign]
  · simp [compare_gt_iff_gt.mpr h, Turn.ofSign, h.ne']

@[simp] theorem Point.same_iff {p q : Point ℝ} : p.same q = true ↔ p = q := by
  obtain ⟨x, y⟩ := p
  obtain ⟨x', y'⟩ := q
  simp [Point.same, Scalar.eq]

theorem planarDistance_eq (a b : Point ℝ) : planarDistance a b =
    Real.sqrt ((a.longitude - b.longitude) ^ 2 + (a.latitude - b.latitude) ^ 2) := by
  simp only [planarDistance, Scalar.hypotenuse, sq]

theorem planarDistance_comm (a b : Point ℝ) : planarDistance a b = planarDistance b a := by
  rw [planarDistance_eq, planarDistance_eq, ← neg_sub b.longitude, ← neg_sub b.latitude, neg_sq,
    neg_sq]

namespace Edge

/-- The point a share of the way along an edge. -/
noncomputable def pointAt (e : Edge ℝ) (t : ℝ) : Point ℝ :=
  ⟨e.start.longitude + t * (e.finish.longitude - e.start.longitude),
    e.start.latitude + t * (e.finish.latitude - e.start.latitude)⟩

@[simp] theorem pointAt_zero (e : Edge ℝ) : e.pointAt 0 = e.start := by
  simp [pointAt]

@[simp] theorem pointAt_one (e : Edge ℝ) : e.pointAt 1 = e.finish := by
  simp [pointAt]

theorem between_iff {x a b : ℝ} :
    Scalar.between x a b = true ↔ (a ≤ x ∧ x ≤ b) ∨ (b ≤ x ∧ x ≤ a) := by
  have h : Scalar.between x a b = true ↔ if a < b then a ≤ x ∧ x ≤ b else b ≤ x ∧ x ≤ a := by
    by_cases hab : a < b <;> simp [Scalar.between, Scalar.lt, Scalar.le, hab]
  rw [h]
  split
  · constructor
    · exact .inl
    · rintro (h | ⟨h₁, h₂⟩)
      · exact h
      · constructor <;> linarith
  · constructor
    · exact .inr
    · rintro (⟨h₁, h₂⟩ | h)
      · constructor <;> linarith
      · exact h

/-- A number between two different ones is a share of the way from one to the other. -/
theorem exists_share {x a b : ℝ} (hab : a ≠ b) (h : (a ≤ x ∧ x ≤ b) ∨ (b ≤ x ∧ x ≤ a)) :
    ∃ t, 0 ≤ t ∧ t ≤ 1 ∧ x = a + t * (b - a) := by
  have hne : b - a ≠ 0 := sub_ne_zero.mpr hab.symm
  refine ⟨(x - a) / (b - a), ?_, ?_, by field_simp; ring⟩
  · rcases h with ⟨h₁, h₂⟩ | ⟨h₁, h₂⟩
    · exact div_nonneg (by linarith) (by linarith)
    · exact div_nonneg_of_nonpos (by linarith) (by linarith)
  · rcases h with ⟨h₁, h₂⟩ | ⟨h₁, h₂⟩
    · exact div_le_one_of_le₀ (by linarith) (by linarith)
    · rw [← neg_div_neg_eq]
      exact div_le_one_of_le₀ (by linarith) (by linarith)

theorem between_share {a b t : ℝ} (h₀ : 0 ≤ t) (h₁ : t ≤ 1) :
    (a ≤ a + t * (b - a) ∧ a + t * (b - a) ≤ b) ∨
      (b ≤ a + t * (b - a) ∧ a + t * (b - a) ≤ a) := by
  rcases le_total a b with h | h
  · exact .inl ⟨by nlinarith, by nlinarith⟩
  · exact .inr ⟨by nlinarith, by nlinarith⟩

theorem holds_eq (e : Edge ℝ) (x : Point ℝ) : e.holds x = true ↔ cross e.start e.finish x = 0 ∧
    Scalar.between x.longitude e.start.longitude e.finish.longitude = true ∧
    Scalar.between x.latitude e.start.latitude e.finish.latitude = true := by
  rw [holds, Bool.and_eq_true, Bool.and_eq_true, decide_eq_true_eq, turnTo, turnOf_straight_iff,
    and_assoc]

/-- A point lies on an edge when it is some share of the way along it. -/
theorem holds_iff {e : Edge ℝ} {x : Point ℝ} :
    e.holds x = true ↔ ∃ t, 0 ≤ t ∧ t ≤ 1 ∧ x = e.pointAt t := by
  obtain ⟨⟨a, b⟩, ⟨c, d⟩⟩ := e
  obtain ⟨x, y⟩ := x
  simp only [holds_eq, between_iff, cross, pointAt, Point.mk.injEq]
  constructor
  · rintro ⟨hcross, hx, hy⟩
    by_cases hac : a = c
    · by_cases hbd : b = d
      · subst hac hbd
        exact ⟨0, le_rfl, zero_le_one, by simp; rcases hx with h | h <;> linarith,
          by simp; rcases hy with h | h <;> linarith⟩
      · obtain ⟨t, h₀, h₁, ht⟩ := exists_share hbd hy
        refine ⟨t, h₀, h₁, ?_, ht⟩
        subst hac
        have : (d - b) * (x - a) = 0 := by linarith
        rcases mul_eq_zero.mp this with h | h
        · exact absurd (sub_eq_zero.mp h).symm hbd
        · linarith
    · obtain ⟨t, h₀, h₁, ht⟩ := exists_share hac hx
      refine ⟨t, h₀, h₁, ht, ?_⟩
      have hne : c - a ≠ 0 := sub_ne_zero.mpr (Ne.symm hac)
      have : (c - a) * (y - (b + t * (d - b))) = 0 := by
        rw [ht] at hcross
        linear_combination hcross
      rcases mul_eq_zero.mp this with h | h
      · exact absurd h hne
      · linarith
  · rintro ⟨t, h₀, h₁, rfl, rfl⟩
    exact ⟨by ring, between_share h₀ h₁, between_share h₀ h₁⟩

/-- Twice the area between an edge and a point, positive where the point lies left of the edge. -/
noncomputable def side (e : Edge ℝ) (x : Point ℝ) : ℝ := cross e.start e.finish x

theorem side_start (e : Edge ℝ) : e.side e.start = 0 := by
  rw [side, cross]
  ring

theorem side_pointAt (d e : Edge ℝ) (t : ℝ) :
    d.side (e.pointAt t) = (1 - t) * d.side e.start + t * d.side e.finish := by
  simp only [side, cross, pointAt]
  ring

theorem side_of_holds {e : Edge ℝ} {x : Point ℝ} (h : e.holds x = true) : e.side x = 0 :=
  ((holds_eq e x).mp h).1

theorem holds_start (e : Edge ℝ) : e.holds e.start = true :=
  holds_iff.mpr ⟨0, le_rfl, zero_le_one, by simp [pointAt]⟩

theorem holds_finish (e : Edge ℝ) : e.holds e.finish = true :=
  holds_iff.mpr ⟨1, zero_le_one, le_rfl, by simp [pointAt]⟩

/-! ### Edges that meet -/

/-- Two edges meet when they have a point in common. -/
def Meets (d e : Edge ℝ) : Prop := ∃ x, d.holds x = true ∧ e.holds x = true

/-- Neither both numbers are positive nor both negative. -/
def Opposite (a b : ℝ) : Prop := (a ≤ 0 ∧ 0 ≤ b) ∨ (0 ≤ a ∧ b ≤ 0)

theorem opposite_of_share {a b t : ℝ} (h₀ : 0 ≤ t) (h₁ : t ≤ 1) (h : (1 - t) * a + t * b = 0) :
    Opposite a b := by
  rcases le_total a 0 with ha | ha <;> rcases le_total b 0 with hb | hb
  · have h2 : (1 - t) * a = 0 := by nlinarith
    have h3 : t * b = 0 := by linarith
    rcases mul_eq_zero.mp h2 with ht | ha'
    · have hb' : b = 0 := by rw [show t = 1 by linarith] at h3; linarith
      exact .inl ⟨ha, hb'.ge⟩
    · exact .inr ⟨ha'.ge, hb⟩
  · exact .inl ⟨ha, hb⟩
  · exact .inr ⟨ha, hb⟩
  · have h2 : (1 - t) * a = 0 := by nlinarith
    have h3 : t * b = 0 := by linarith
    rcases mul_eq_zero.mp h2 with ht | ha'
    · have hb' : b = 0 := by rw [show t = 1 by linarith] at h3; linarith
      exact .inr ⟨ha, hb'.le⟩
    · exact .inl ⟨ha'.le, hb⟩

theorem Opposite.share {a b : ℝ} (h : Opposite a b) :
    0 ≤ a / (a - b) ∧ a / (a - b) ≤ 1 := by
  rcases h with ⟨ha, hb⟩ | ⟨ha, hb⟩
  · refine ⟨div_nonneg_of_nonpos ha (by linarith), ?_⟩
    rw [← neg_div_neg_eq]
    exact div_le_one_of_le₀ (by linarith) (by linarith)
  · exact ⟨div_nonneg ha (by linarith), div_le_one_of_le₀ (by linarith) (by linarith)⟩

/-- Two edges that are not on one line meet when each has its ends on both sides of the other. -/
theorem meets_iff {d e : Edge ℝ} (h : ¬(d.side e.start = 0 ∧ d.side e.finish = 0)) :
    d.Meets e ↔ Opposite (d.side e.start) (d.side e.finish) ∧
      Opposite (e.side d.start) (e.side d.finish) := by
  constructor
  · rintro ⟨x, hd, he⟩
    obtain ⟨s, hs₀, hs₁, hs⟩ := holds_iff.mp hd
    obtain ⟨t, ht₀, ht₁, ht⟩ := holds_iff.mp he
    refine ⟨opposite_of_share ht₀ ht₁ ?_, opposite_of_share hs₀ hs₁ ?_⟩
    · rw [← side_pointAt, ← ht, side_of_holds hd]
    · rw [← side_pointAt, ← hs, side_of_holds he]
  · rintro ⟨hd, he⟩
    have hne : d.side e.start ≠ d.side e.finish := by
      intro heq
      rcases hd with ⟨h₁, h₂⟩ | ⟨h₁, h₂⟩
      · exact h ⟨by linarith, by linarith⟩
      · exact h ⟨by linarith, by linarith⟩
    have hcross : e.side d.start - e.side d.finish = d.side e.finish - d.side e.start := by
      simp only [side, cross]
      ring
    obtain ⟨ht₀, ht₁⟩ := hd.share
    obtain ⟨hs₀, hs₁⟩ := he.share
    refine ⟨e.pointAt _, holds_iff.mpr ⟨_, hs₀, hs₁, ?_⟩, holds_iff.mpr ⟨_, ht₀, ht₁, rfl⟩⟩
    have hsub : d.side e.start - d.side e.finish ≠ 0 := sub_ne_zero.mpr hne
    rw [hcross, ← neg_div_neg_eq (e.side d.start), neg_sub]
    simp only [pointAt, Point.mk.injEq]
    constructor
    · field_simp
      simp only [side, cross]
      ring
    · field_simp
      simp only [side, cross]
      ring

end Edge

end Geotrack
