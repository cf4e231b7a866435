import Geotrack.Proofs.Plane.Exact

/-!
# Winding numbers and segments

`turnsAbout` is what an edge adds to the winding number of a point. It is told with a height that
may be tilted, so that no two points in question need to be equally high. `edge_jump` compares what
an edge adds at the two ends of a segment; along a closed ring all of it cancels but the passes of
the segment itself.
-/

namespace Geotrack

/-- The height of a point over a line through the origin of a small slope. -/
noncomputable def height (δ : ℝ) (x : Point ℝ) : ℝ := x.latitude - δ * x.longitude

variable {δ : ℝ} {d e : Edge ℝ} {x p q : Point ℝ}

theorem height_pointAt (e : Edge ℝ) (t : ℝ) :
    height δ (e.pointAt t) = height δ e.start + t * (height δ e.finish - height δ e.start) := by
  simp only [height, Edge.pointAt]
  ring

namespace Edge

/-- A point on the line of an edge lies on the edge when its height is between those of the ends. -/
theorem holds_of_height (hx : e.side x = 0) (hne : height δ e.start ≠ height δ e.finish)
    (hb : (height δ e.start ≤ height δ x ∧ height δ x ≤ height δ e.finish) ∨
      (height δ e.finish ≤ height δ x ∧ height δ x ≤ height δ e.start)) : e.holds x = true := by
  obtain ⟨t, h₀, h₁, ht⟩ := exists_share hne hb
  refine holds_iff.mpr ⟨t, h₀, h₁, ?_⟩
  have hsub : height δ e.finish - height δ e.start ≠ 0 := sub_ne_zero.mpr hne.symm
  obtain ⟨x, y⟩ := x
  simp only [side, cross] at hx
  simp only [height] at ht hsub
  rw [pointAt, Point.mk.injEq]
  constructor
  · refine mul_left_cancel₀ hsub ?_
    linear_combination (-hx + (e.finish.longitude - e.start.longitude) * ht)
  · refine mul_left_cancel₀ hsub ?_
    linear_combination (-δ * hx + (e.finish.latitude - e.start.latitude) * ht)

theorem height_le_of_holds (hx : e.holds x = true) :
    (height δ e.start ≤ height δ x ∧ height δ x ≤ height δ e.finish) ∨
      (height δ e.finish ≤ height δ x ∧ height δ x ≤ height δ e.start) := by
  obtain ⟨t, h₀, h₁, rfl⟩ := holds_iff.mp hx
  rw [height_pointAt]
  exact between_share h₀ h₁

/-- On the line of an edge that is not level a point is known by its height. -/
theorem eq_of_height (hx : e.side x = 0) (hp : e.side p = 0)
    (hne : height δ e.start ≠ height δ e.finish) (h : height δ x = height δ p) : x = p := by
  have hsub : height δ e.finish - height δ e.start ≠ 0 := sub_ne_zero.mpr hne.symm
  obtain ⟨x, y⟩ := x
  obtain ⟨x', y'⟩ := p
  simp only [side, cross, height] at hx hp hsub h
  have hlon : x = x' := by
    refine mul_left_cancel₀ hsub ?_
    linear_combination hp - hx + (e.finish.longitude - e.start.longitude) * h
  rw [Point.mk.injEq]
  exact ⟨hlon, by linear_combination h + δ * hlon⟩

/-! ### The signs of four points -/

theorem height_cross_start (d e : Edge ℝ) (δ : ℝ) :
    d.side e.finish * (height δ e.start - height δ d.start) -
      d.side e.start * (height δ e.finish - height δ d.start) =
        e.side d.start * (height δ d.finish - height δ d.start) := by
  simp only [side, cross, height]
  ring

theorem height_cross_finish (d e : Edge ℝ) (δ : ℝ) :
    d.side e.finish * (height δ e.start - height δ d.finish) -
      d.side e.start * (height δ e.finish - height δ d.finish) =
        e.side d.finish * (height δ d.finish - height δ d.start) := by
  simp only [side, cross, height]
  ring

/-- The ends of a segment that is not level lie on the line of an edge on its line. -/
theorem sides_of_line (hs : d.side e.start = 0) (hf : d.side e.finish = 0)
    (hne : height δ d.start ≠ height δ d.finish) : e.side d.start = 0 ∧ e.side d.finish = 0 := by
  have hk : height δ d.finish - height δ d.start ≠ 0 := sub_ne_zero.mpr hne.symm
  have hstart := height_cross_start d e δ
  have hfinish := height_cross_finish d e δ
  rw [hs, hf, zero_mul, zero_mul, sub_zero] at hstart hfinish
  exact ⟨(mul_eq_zero.mp hstart.symm).resolve_right hk,
    (mul_eq_zero.mp hfinish.symm).resolve_right hk⟩

theorem opposite_comm {a b : ℝ} : Opposite a b ↔ Opposite b a :=
  ⟨fun h => h.elim (fun h => .inr ⟨h.2, h.1⟩) fun h => .inl ⟨h.2, h.1⟩,
    fun h => h.elim (fun h => .inr ⟨h.2, h.1⟩) fun h => .inl ⟨h.2, h.1⟩⟩

section Signs

/-! In the lemmas of this section an edge of heights `a` and `b` and a segment of heights `y` and
`z` are given by numbers: `L` and `K` tell on which side of the segment the ends of the edge lie,
`C` and `D` on which side of the edge the ends of the segment lie, and `r` and `s` are 1 where `L`
and `K` are negative and 0 where they are positive. -/

variable {a b y z L K C D : ℝ} {r s : ℤ} {M : Prop} [Decidable M]

/-- The edge begins below the segment and ends beside it. -/
theorem jump_below (hyz : y < z) (ha : a ≤ y) (hb : y ≤ b) (hbz : b ≤ z)
    (hC : C = K * (a - y) - L * (b - y)) (hD : D = K * (a - z) - L * (b - z))
    (hLK : ¬(L = 0 ∧ K = 0)) (hne : C ≠ 0) (hM : M ↔ Opposite L K ∧ Opposite C D)
    (hr : (L < 0 → r = 1) ∧ (0 < L → r = 0)) (hs : (K < 0 → s = 1) ∧ (0 < K → s = 0)) :
    (if 0 < C then 1 else 0 : ℤ) = if M then r else s := by
  rcases lt_trichotomy L 0 with hL | hL | hL <;> rcases lt_trichotomy K 0 with hK | hK | hK
  · have hpos : 0 < C := lt_of_le_of_ne (by nlinarith) hne.symm
    simp [hpos, hr.1 hL, hs.1 hK]
  · have hpos : 0 < C := lt_of_le_of_ne (by nlinarith) hne.symm
    have hD' : D ≤ 0 := by nlinarith
    have hM' : M := hM.mpr ⟨.inl ⟨hL.le, hK.ge⟩, .inr ⟨hpos.le, hD'⟩⟩
    simp [hpos, hM', hr.1 hL]
  · have hD' : D < 0 := by nlinarith
    have hM' : M ↔ 0 < C := by
      rw [hM]
      constructor
      · rintro ⟨-, ⟨-, h⟩ | ⟨h, -⟩⟩
        · linarith
        · exact lt_of_le_of_ne h hne.symm
      · exact fun h => ⟨.inl ⟨hL.le, hK.le⟩, .inr ⟨h.le, hD'.le⟩⟩
    simp [hM', hr.1 hL, hs.2 hK]
  · have hpos : 0 < C := lt_of_le_of_ne (by nlinarith) hne.symm
    have hD' : 0 < D := by nlinarith
    have hM' : ¬M := by
      rw [hM]
      rintro ⟨-, ⟨h, -⟩ | ⟨-, h⟩⟩ <;> linarith
    simp [hpos, hM', hs.1 hK]
  · exact absurd ⟨hL, hK⟩ hLK
  · have hneg : C < 0 := lt_of_le_of_ne (by nlinarith) hne
    have hD' : D < 0 := by nlinarith
    have hM' : ¬M := by
      rw [hM]
      rintro ⟨-, ⟨-, h⟩ | ⟨h, -⟩⟩ <;> linarith
    simp [hneg.not_gt, hM', hs.2 hK]
  · have hD' : 0 < D := by nlinarith
    have hM' : M ↔ ¬0 < C := by
      rw [hM]
      constructor
      · rintro ⟨-, ⟨h, -⟩ | ⟨-, h⟩⟩ <;> linarith
      · exact fun h => ⟨.inr ⟨hL.le, hK.le⟩, .inl ⟨not_lt.mp h, hD'.le⟩⟩
    by_cases h : 0 < C <;> simp [hM', h, hr.2 hL, hs.1 hK]
  · have hneg : C < 0 := lt_of_le_of_ne (by nlinarith) hne
    have hD' : 0 ≤ D := by nlinarith
    have hM' : M := hM.mpr ⟨.inr ⟨hL.le, hK.le⟩, .inl ⟨hneg.le, hD'⟩⟩
    simp [hneg.not_gt, hM', hr.2 hL]
  · have hneg : C < 0 := lt_of_le_of_ne (by nlinarith) hne
    simp [hneg.not_gt, hr.2 hL, hs.2 hK]

/-- The edge begins beside the segment and ends above it. Upside down it is one that begins
below. -/
theorem jump_above (hyz : y < z) (hya : y ≤ a) (ha : a ≤ z) (hb : z ≤ b)
    (hC : C = K * (a - y) - L * (b - y)) (hD : D = K * (a - z) - L * (b - z))
    (hLK : ¬(L = 0 ∧ K = 0)) (hne : D ≠ 0) (hM : M ↔ Opposite L K ∧ Opposite C D)
    (hr : (L < 0 → r = 1) ∧ (0 < L → r = 0)) (hs : (K < 0 → s = 1) ∧ (0 < K → s = 0)) :
    (if 0 < D then 1 else 0 : ℤ) = if M then s else r := by
  refine jump_below (a := -b) (b := -a) (y := -z) (z := -y) (L := K) (K := L) (C := D) (D := C)
    (by linarith) (by linarith) (by linarith) (by linarith) (by linarith) (by linarith)
    (fun h => hLK ⟨h.2, h.1⟩) hne ?_ hs hr
  rw [hM, opposite_comm, opposite_comm (a := C)]

/-- The edge begins below the segment and ends above it. -/
theorem jump_across (hyz : y < z) (ha : a ≤ y) (hb : z ≤ b)
    (hC : C = K * (a - y) - L * (b - y)) (hD : D = K * (a - z) - L * (b - z))
    (hneC : C ≠ 0) (hneD : D ≠ 0) (hM : M ↔ Opposite L K ∧ Opposite C D)
    (hr : (L < 0 → r = 1) ∧ (0 < L → r = 0)) (hs : (K < 0 → s = 1) ∧ (0 < K → s = 0)) :
    (if 0 < D then 1 else 0 : ℤ) - (if 0 < C then 1 else 0) + (if M then r - s else 0) = 0 := by
  have hL : D * (y - a) - C * (z - a) = L * ((b - a) * (z - y)) := by rw [hC, hD]; ring
  have hK : D * (b - y) - C * (b - z) = -(K * ((b - a) * (z - y))) := by rw [hC, hD]; ring
  have hpos : 0 < (b - a) * (z - y) := mul_pos (by linarith) (by linarith)
  rcases hneC.lt_or_gt with h | h <;> rcases hneD.lt_or_gt with k | k
  · have hM' : ¬M := by
      rw [hM]
      rintro ⟨-, ⟨-, h'⟩ | ⟨h', -⟩⟩ <;> linarith
    simp [h.not_gt, k.not_gt, hM']
  · have hL' : 0 < L := by
      refine (mul_pos_iff_of_pos_right hpos).mp ?_
      rw [← hL]
      nlinarith
    have hK' : K < 0 := by
      have : 0 < -K := by
        refine (mul_pos_iff_of_pos_right hpos).mp ?_
        rw [neg_mul, ← hK]
        nlinarith
      linarith
    have hM' : M := hM.mpr ⟨.inr ⟨hL'.le, hK'.le⟩, .inl ⟨h.le, k.le⟩⟩
    simp [h.not_gt, k, hM', hr.2 hL', hs.1 hK']
  · have hL' : L < 0 := by
      have : 0 < -L := by
        refine (mul_pos_iff_of_pos_right hpos).mp ?_
        rw [neg_mul, ← hL]
        nlinarith
      linarith
    have hK' : 0 < K := by
      refine (mul_pos_iff_of_pos_right hpos).mp ?_
      have : 0 < -(D * (b - y) - C * (b - z)) := by nlinarith
      linarith
    have hM' : M := hM.mpr ⟨.inl ⟨hL'.le, hK'.le⟩, .inr ⟨h.le, k.le⟩⟩
    simp [h, k.not_gt, hM', hr.1 hL', hs.2 hK']
  · have hM' : ¬M := by
      rw [hM]
      rintro ⟨-, ⟨h', -⟩ | ⟨-, h'⟩⟩ <;> linarith
    simp [h, k, hM']

/-- The edge lies beside the segment. -/
theorem jump_beside (hya : y ≤ a) (haz : a ≤ z) (hyb : y ≤ b) (hbz : b ≤ z)
    (hC : C = K * (a - y) - L * (b - y)) (hD : D = K * (a - z) - L * (b - z))
    (hM : M ↔ Opposite L K ∧ Opposite C D) (hr : (L < 0 → r = 1) ∧ (0 < L → r = 0))
    (hs : (K < 0 → s = 1) ∧ (0 < K → s = 0)) : (if M then r - s else 0) = r - s := by
  by_cases hopposite : Opposite L K
  · have hM' : M := by
      refine hM.mpr ⟨hopposite, ?_⟩
      rcases hopposite with ⟨hL, hK⟩ | ⟨hL, hK⟩
      · exact .inr ⟨by nlinarith, by nlinarith⟩
      · exact .inl ⟨by nlinarith, by nlinarith⟩
    rw [if_pos hM']
  · have hM' : ¬M := fun h => hopposite (hM.mp h).1
    rw [if_neg hM']
    rcases lt_trichotomy L 0 with hL | hL | hL <;> rcases lt_trichotomy K 0 with hK | hK | hK
    · rw [hr.1 hL, hs.1 hK, sub_self]
    · exact absurd (.inl ⟨hL.le, hK.ge⟩) hopposite
    · exact absurd (.inl ⟨hL.le, hK.le⟩) hopposite
    · exact absurd (.inr ⟨hL.ge, hK.le⟩) hopposite
    · exact absurd (.inl ⟨hL.le, hK.ge⟩) hopposite
    · exact absurd (.inl ⟨hL.le, hK.le⟩) hopposite
    · exact absurd (.inr ⟨hL.le, hK.le⟩) hopposite
    · exact absurd (.inr ⟨hL.le, hK.le⟩) hopposite
    · rw [hr.2 hL, hs.2 hK, sub_self]

theorem opposite_mul_iff {k : ℝ} (hk : 0 < k) : Opposite (C * k) (D * k) ↔ Opposite C D := by
  have nonpos (c : ℝ) : c * k ≤ 0 ↔ c ≤ 0 := by
    rw [← not_lt, ← not_lt, mul_pos_iff_of_pos_right hk]
  simp only [Opposite, nonpos, mul_nonneg_iff_of_pos_right hk]

end Signs

end Edge

/-! ### What an edge adds to a winding number -/

/-- What an edge adds to the winding number of a point: 1 where it rises on the point's right, -1
where it falls there. Of its ends only the lower one counts. -/
noncomputable def turnsAbout (δ : ℝ) (p : Point ℝ) (e : Edge ℝ) : ℤ :=
  if height δ e.start ≤ height δ p ∧ height δ p < height δ e.finish ∧ 0 < e.side p then 1
  else if height δ e.finish ≤ height δ p ∧ height δ p < height δ e.start ∧ e.side p < 0 then -1
  else 0

/-- The value of a function beside a segment, zero above and below it. -/
noncomputable def beside (δ : ℝ) (d : Edge ℝ) (R : Point ℝ → ℤ) (x : Point ℝ) : ℤ :=
  if height δ d.start < height δ x ∧ height δ x ≤ height δ d.finish then R x else 0

/-- A function that is 1 on the right of an edge and 0 on its left. -/
def TellsRight (d : Edge ℝ) (R : Point ℝ → ℤ) : Prop :=
  ∀ x, (d.side x < 0 → R x = 1) ∧ (0 < d.side x → R x = 0)

theorem turnsAbout_of_le (h : height δ e.start ≤ height δ e.finish) :
    turnsAbout δ p e =
      if height δ e.start ≤ height δ p ∧ height δ p < height δ e.finish ∧ 0 < e.side p then 1
      else 0 := by
  unfold turnsAbout
  split
  · rfl
  · rw [if_neg]
    rintro ⟨h₁, h₂, -⟩
    linarith

theorem turnsAbout_of_ge (h : height δ e.finish ≤ height δ e.start) :
    turnsAbout δ p e =
      if height δ e.finish ≤ height δ p ∧ height δ p < height δ e.start ∧ e.side p < 0 then -1
      else 0 := by
  unfold turnsAbout
  rw [if_neg]
  rintro ⟨h₁, h₂, -⟩
  linarith

theorem turnsAbout_of_side_eq_zero (h : e.side p = 0) : turnsAbout δ p e = 0 := by
  simp [turnsAbout, h]

theorem not_meets_of_below (hp : e.holds d.start = false)
    (hd : height δ d.start < height δ d.finish) (hs : height δ e.start ≤ height δ d.start)
    (hf : height δ e.finish ≤ height δ d.start) : ¬d.Meets e := by
  rintro ⟨x, hdx, hex⟩
  have hx : height δ x = height δ d.start := by
    rcases Edge.height_le_of_holds (δ := δ) hdx with h | h <;>
      rcases Edge.height_le_of_holds (δ := δ) hex with k | k <;> linarith
  have : x = d.start := Edge.eq_of_height (Edge.side_of_holds hdx) d.side_start hd.ne hx
  rw [this, hp] at hex
  cases hex

theorem not_meets_of_above (hd : height δ d.start < height δ d.finish)
    (hs : height δ d.finish < height δ e.start) (hf : height δ d.finish < height δ e.finish) :
    ¬d.Meets e := by
  rintro ⟨x, hdx, hex⟩
  rcases Edge.height_le_of_holds (δ := δ) hdx with h | h <;>
    rcases Edge.height_le_of_holds (δ := δ) hex with k | k <;> linarith

/-- A point off an edge is not on its line between the heights of its ends. -/
theorem side_ne_zero (hx : e.holds x = false) (hne : height δ e.start < height δ e.finish)
    (h₁ : height δ e.start ≤ height δ x) (h₂ : height δ x ≤ height δ e.finish) : e.side x ≠ 0 := by
  intro h
  rw [Edge.holds_of_height h hne.ne (.inl ⟨h₁, h₂⟩)] at hx
  cases hx

open Classical in
/-- An edge on the line of the segment. -/
theorem edge_jump_of_line (hp : e.holds d.start = false) (hq : e.holds d.finish = false)
    (hd : height δ d.start < height δ d.finish) (R : Point ℝ → ℤ)
    (hle : height δ e.start ≤ height δ e.finish) (hs : d.side e.start = 0)
    (hf : d.side e.finish = 0) :
    e.side d.start = 0 ∧ e.side d.finish = 0 ∧
      (if d.Meets e then R e.start - R e.finish else 0) =
        beside δ d R e.start - beside δ d R e.finish := by
  obtain ⟨hp', hq'⟩ := Edge.sides_of_line hs hf hd.ne
  refine ⟨hp', hq', ?_⟩
  rcases hle.eq_or_lt with heq | hlt
  · rw [Edge.eq_of_height hs hf hd.ne heq]
    simp
  have outside {x : Point ℝ} (hx : e.side x = 0) (hne : e.holds x = false) :
      height δ x < height δ e.start ∨ height δ e.finish < height δ x := by
    by_contra! h
    exact side_ne_zero hne hlt h.1 h.2 hx
  unfold beside
  rcases outside hp' hp with h₁ | h₁
  · rcases outside hq' hq with h₂ | h₂
    · rw [if_neg (not_meets_of_above hd h₂ (h₂.trans hlt)), if_neg (by simp [h₂.not_ge]),
        if_neg (by simp [(h₂.trans hlt).not_ge]), sub_zero]
    · have hM : d.Meets e := ⟨e.start,
        Edge.holds_of_height hs hd.ne (.inl ⟨h₁.le, (hlt.trans h₂).le⟩), e.holds_start⟩
      rw [if_pos hM, if_pos ⟨h₁, (hlt.trans h₂).le⟩, if_pos ⟨h₁.trans hlt, h₂.le⟩]
  · rw [if_neg (not_meets_of_below hp hd (hlt.trans h₁).le h₁.le),
      if_neg (by simp [(hlt.trans h₁).not_gt]), if_neg (by simp [h₁.not_gt]), sub_zero]

open Classical in
/-- `edge_jump` for an edge that does not fall. -/
theorem edge_jump_of_le (hp : e.holds d.start = false) (hq : e.holds d.finish = false)
    (hd : height δ d.start < height δ d.finish) {R : Point ℝ → ℤ} (hR : TellsRight d R)
    (hle : height δ e.start ≤ height δ e.finish) :
    turnsAbout δ d.finish e - turnsAbout δ d.start e +
      (if d.Meets e then R e.start - R e.finish else 0) =
        beside δ d R e.start - beside δ d R e.finish := by
  rw [turnsAbout_of_le hle, turnsAbout_of_le hle]
  by_cases hline : d.side e.start = 0 ∧ d.side e.finish = 0
  · obtain ⟨hp', hq', h⟩ := edge_jump_of_line hp hq hd R hle hline.1 hline.2
    simp [hp', hq', h]
  have hk : 0 < height δ d.finish - height δ d.start := by linarith
  have hM : d.Meets e ↔ Edge.Opposite (d.side e.start) (d.side e.finish) ∧
      Edge.Opposite (e.side d.start * (height δ d.finish - height δ d.start))
        (e.side d.finish * (height δ d.finish - height δ d.start)) := by
    rw [Edge.meets_iff hline, Edge.opposite_mul_iff hk]
  have hC := (Edge.height_cross_start d e δ).symm
  have hD := (Edge.height_cross_finish d e δ).symm
  have hpos (c : ℝ) : 0 < c * (height δ d.finish - height δ d.start) ↔ 0 < c :=
    mul_pos_iff_of_pos_right hk
  have hr := hR e.start
  have hs := hR e.finish
  unfold beside
  by_cases hbelow : height δ e.finish ≤ height δ d.start
  · have h₁ : ¬height δ d.finish < height δ e.finish := by linarith
    have h₂ : ¬height δ d.start < height δ e.start := by linarith
    simp [h₁, h₂, hbelow.not_gt, not_meets_of_below hp hd (hle.trans hbelow) hbelow]
  by_cases habove : height δ d.finish < height δ e.start
  · have h₁ : ¬height δ e.start ≤ height δ d.start := by linarith
    have h₂ : ¬height δ e.finish ≤ height δ d.finish := by linarith
    simp [h₁, h₂, habove.not_ge, not_meets_of_above hd habove (by linarith)]
  have hbelow' := not_le.mp hbelow
  have habove' := not_lt.mp habove
  by_cases hstart : height δ e.start ≤ height δ d.start <;>
    by_cases hfinish : height δ e.finish ≤ height δ d.finish
  · have hne := side_ne_zero hp (by linarith) hstart (by linarith)
    have := Edge.jump_below hd hstart (by linarith) hfinish hC hD hline
      (mul_ne_zero hne hk.ne') hM hr hs
    rw [if_congr (hpos _) rfl rfl] at this
    simp only [hstart, hbelow', hfinish.not_gt, hfinish, hstart.not_gt, true_and, false_and,
      and_false, if_false, and_true, if_true, this]
    split <;> omega
  · have hfinish' := not_le.mp hfinish
    have hneC := side_ne_zero hp (by linarith) hstart (by linarith)
    have hneD := side_ne_zero hq (by linarith) habove' (by linarith)
    have := Edge.jump_across hd hstart hfinish'.le hC hD (mul_ne_zero hneC hk.ne')
      (mul_ne_zero hneD hk.ne') hM hr hs
    rw [if_congr (hpos _) rfl rfl, if_congr (hpos _) rfl rfl] at this
    simp only [hstart, habove', hbelow', hfinish', hfinish, hstart.not_gt, true_and, false_and,
      and_false, if_false]
    exact this
  · have hstart' := not_le.mp hstart
    have := Edge.jump_beside hstart'.le habove' hbelow'.le hfinish hC hD hM hr hs
    simp only [hstart, hfinish.not_gt, false_and, and_false, if_false, hstart', hbelow', habove',
      hfinish, true_and, if_true]
    rw [this]
    simp
  · have hstart' := not_le.mp hstart
    have hfinish' := not_le.mp hfinish
    have hne := side_ne_zero hq (by linarith) habove' (by linarith)
    have := Edge.jump_above hd hstart'.le habove' hfinish'.le hC hD hline
      (mul_ne_zero hne hk.ne') hM hr hs
    rw [if_congr (hpos _) rfl rfl] at this
    simp only [hstart, habove', hfinish', hfinish, hstart', true_and, false_and, and_false,
      if_false, if_true, and_true, this]
    split <;> omega

namespace Edge

/-- The edge the other way around. -/
def reverse {K : Type} (e : Edge K) : Edge K := ⟨e.finish, e.start⟩

theorem side_reverse (e : Edge ℝ) (x : Point ℝ) : e.reverse.side x = -e.side x := by
  simp only [reverse, side, cross]
  ring

theorem holds_reverse (e : Edge ℝ) (x : Point ℝ) : e.reverse.holds x = e.holds x := by
  refine Bool.eq_iff_iff.mpr ?_
  simp only [holds_iff]
  have flip (e : Edge ℝ) (t : ℝ) : e.reverse.pointAt t = e.pointAt (1 - t) := by
    simp only [pointAt, reverse, Point.mk.injEq]
    exact ⟨by ring, by ring⟩
  constructor
  · rintro ⟨t, h₀, h₁, rfl⟩
    exact ⟨1 - t, by linarith, by linarith, flip e t⟩
  · rintro ⟨t, h₀, h₁, rfl⟩
    exact ⟨1 - t, by linarith, by linarith, by rw [flip, sub_sub_cancel]⟩

theorem meets_reverse (d e : Edge ℝ) : d.Meets e.reverse ↔ d.Meets e := by
  simp only [Meets, holds_reverse]

end Edge

theorem turnsAbout_reverse (δ : ℝ) (p : Point ℝ) (e : Edge ℝ) :
    turnsAbout δ p e.reverse = -turnsAbout δ p e := by
  simp only [turnsAbout, Edge.side_reverse]
  by_cases h : height δ e.start ≤ height δ p ∧ height δ p < height δ e.finish ∧ 0 < e.side p
  · have h' : ¬height δ e.finish ≤ height δ p := h.2.1.not_ge
    simp [Edge.reverse, h, h']
  · by_cases k : height δ e.finish ≤ height δ p ∧ height δ p < height δ e.start ∧ e.side p < 0
    · have k' : ¬height δ e.start ≤ height δ p := k.2.1.not_ge
      simp [Edge.reverse, k, k']
    · simp only [Edge.reverse, Left.neg_pos_iff, Left.neg_neg_iff, if_neg h, if_neg k, neg_zero]

open Classical in
/-- From one end of a segment to the other, what an edge adds changes by its passes of the segment,
up to a part that only the ends of the edge determine. -/
theorem edge_jump (hp : e.holds d.start = false) (hq : e.holds d.finish = false)
    (hd : height δ d.start < height δ d.finish) {R : Point ℝ → ℤ} (hR : TellsRight d R) :
    turnsAbout δ d.finish e - turnsAbout δ d.start e +
      (if d.Meets e then R e.start - R e.finish else 0) =
        beside δ d R e.start - beside δ d R e.finish := by
  rcases le_total (height δ e.start) (height δ e.finish) with hle | hle
  · exact edge_jump_of_le hp hq hd hR hle
  · have h := edge_jump_of_le (e := e.reverse) (by rwa [Edge.holds_reverse])
      (by rwa [Edge.holds_reverse]) hd hR hle
    rw [turnsAbout_reverse, turnsAbout_reverse, if_congr (Edge.meets_reverse d e) rfl rfl] at h
    simp only [Edge.reverse] at h
    split at h
    · rename_i hM
      rw [if_pos hM]
      omega
    · rename_i hM
      rw [if_neg hM]
      omega

end Geotrack
