import Geotrack.Proofs.Plane.Loop

/-!
# Rays

A point looks along its level to the right. Of the edges that it sees, the first and the last one
bound its winding number, for the winding number on the right of both is the same.
-/

namespace Geotrack

variable {δ h : ℝ} {e f : Edge ℝ} {es rest : List (Edge ℝ)} {p q x : Point ℝ}

/-- The point of an edge's line at a height. -/
noncomputable def levelPoint (δ h : ℝ) (e : Edge ℝ) : Point ℝ :=
  e.pointAt ((h - height δ e.start) / (height δ e.finish - height δ e.start))

theorem eq_of_height_of_longitude (hheight : height δ p = height δ q)
    (hlon : p.longitude = q.longitude) : p = q := by
  obtain ⟨x, y⟩ := p
  obtain ⟨x', y'⟩ := q
  simp only [height] at hheight hlon
  rw [Point.mk.injEq]
  exact ⟨hlon, by rw [hlon] at hheight; linarith⟩

/-- Whether an edge rises or falls through a height. -/
noncomputable def straddle (δ h : ℝ) (e : Edge ℝ) : ℤ :=
  if height δ e.start ≤ h ∧ h < height δ e.finish then 1
  else if height δ e.finish ≤ h ∧ h < height δ e.start then -1
  else 0

theorem straddle_cases (h₀ : straddle δ h e ≠ 0) :
    (straddle δ h e = 1 ∧ fall δ e = 0 ∧ height δ e.start ≤ h ∧ h < height δ e.finish) ∨
      (straddle δ h e = -1 ∧ fall δ e = -1 ∧ height δ e.finish ≤ h ∧ h < height δ e.start) := by
  unfold straddle at h₀ ⊢
  split at h₀
  · rename_i hup
    exact .inl ⟨if_pos hup, if_pos (hup.1.trans_lt hup.2), hup⟩
  · rename_i hup
    split at h₀
    · rename_i hdown
      rw [if_neg hup, if_pos hdown]
      exact .inr ⟨rfl, if_neg (hdown.1.trans_lt hdown.2).not_gt, hdown⟩
    · exact absurd rfl h₀

theorem height_levelPoint (hne : height δ e.start ≠ height δ e.finish) :
    height δ (levelPoint δ h e) = h := by
  have : height δ e.finish - height δ e.start ≠ 0 := sub_ne_zero.mpr hne.symm
  rw [levelPoint, height_pointAt]
  field_simp
  ring

/-- The side of an edge on which a point lies is that on which it lies of the edge at its level. -/
theorem side_level (hx : height δ x = h) (hne : height δ e.start ≠ height δ e.finish) :
    e.side x = (height δ e.finish - height δ e.start) *
      ((levelPoint δ h e).longitude - x.longitude) := by
  have hsub : height δ e.finish - height δ e.start ≠ 0 := sub_ne_zero.mpr hne.symm
  have hlon : (height δ e.finish - height δ e.start) * (levelPoint δ h e).longitude =
      (height δ e.finish - height δ e.start) * e.start.longitude +
        (h - height δ e.start) * (e.finish.longitude - e.start.longitude) := by
    simp only [levelPoint, Edge.pointAt]
    field_simp
  rw [mul_sub, hlon, ← hx]
  simp only [Edge.side, cross, height]
  ring

theorem turnsAbout_level (hx : height δ x = h) :
    turnsAbout δ x e =
      if x.longitude < (levelPoint δ h e).longitude then straddle δ h e else 0 := by
  unfold turnsAbout straddle
  rw [hx]
  by_cases hup : height δ e.start ≤ h ∧ h < height δ e.finish
  · have hlt := hup.1.trans_lt hup.2
    have hside : 0 < e.side x ↔ x.longitude < (levelPoint δ h e).longitude := by
      rw [side_level hx hlt.ne, mul_pos_iff_of_pos_left (by linarith), sub_pos]
    simp [hup, hup.2.not_ge, hside]
  · have hup' : ¬(height δ e.start ≤ h ∧ h < height δ e.finish ∧ 0 < e.side x) :=
      fun k => hup ⟨k.1, k.2.1⟩
    rw [if_neg hup', if_neg hup]
    by_cases hdown : height δ e.finish ≤ h ∧ h < height δ e.start
    · have hlt := hdown.1.trans_lt hdown.2
      have hside : e.side x < 0 ↔ x.longitude < (levelPoint δ h e).longitude := by
        have hpos : 0 < height δ e.start - height δ e.finish := by linarith
        rw [side_level hx hlt.ne', ← neg_pos, ← neg_mul, neg_sub, mul_pos_iff_of_pos_left hpos,
          sub_pos]
      simp [hdown, hside]
    · have hdown' : ¬(height δ e.finish ≤ h ∧ h < height δ e.start ∧ e.side x < 0) :=
        fun k => hdown ⟨k.1, k.2.1⟩
      rw [if_neg hdown', if_neg hdown, ite_self]

theorem within_levelPoint (h₀ : straddle δ h e ≠ 0) (hstart : h ≠ height δ e.start)
    (hfinish : h ≠ height δ e.finish) : e.Within (levelPoint δ h e) := by
  have hne : height δ e.start ≠ height δ e.finish := by
    rcases straddle_cases h₀ with ⟨-, -, h₁, h₂⟩ | ⟨-, -, h₁, h₂⟩
    · exact (h₁.trans_lt h₂).ne
    · exact (h₁.trans_lt h₂).ne'
  have hlevel := height_levelPoint (h := h) hne
  have hside : e.side (levelPoint δ h e) = 0 := by rw [side_level hlevel hne, sub_self, mul_zero]
  refine Edge.within_of_height (δ := δ) hside ?_
  rw [hlevel]
  rcases straddle_cases h₀ with ⟨-, -, h₁, h₂⟩ | ⟨-, -, h₁, h₂⟩
  · exact .inl ⟨lt_of_le_of_ne h₁ hstart.symm, h₂⟩
  · exact .inr ⟨lt_of_le_of_ne h₁ hfinish.symm, h₂⟩

/-! ### The first and the last edge in sight -/

/-- Whether a point sees an edge on its right. -/
def Sees (δ : ℝ) (p : Point ℝ) (e : Edge ℝ) : Prop :=
  straddle δ (height δ p) e ≠ 0 ∧ p.longitude < (levelPoint δ (height δ p) e).longitude

theorem turnsAbout_of_not_sees (hnot : ¬Sees δ p e) : turnsAbout δ p e = 0 := by
  rw [turnsAbout_level rfl]
  split
  · rename_i hlt
    by_contra h
    exact hnot ⟨h, hlt⟩
  · rfl

/-- Beyond the first edge that a point sees, the point on that edge sees what it sees. -/
theorem winding_first (hloop : Loop (e :: rest)) (hs : Sloped δ (e :: rest))
    (hlevel : ∀ f ∈ e :: rest, height δ p ≠ height δ f.start ∧ height δ p ≠ height δ f.finish)
    (he : Sees δ p e) (hfirst : ∀ f ∈ rest, Sees δ p f →
      (levelPoint δ (height δ p) e).longitude ≤ (levelPoint δ (height δ p) f).longitude) :
    windingAbout δ p (e :: rest) =
      windingAbout δ (levelPoint δ (height δ p) e) (e :: rest) + straddle δ (height δ p) e := by
  have hq : height δ (levelPoint δ (height δ p) e) = height δ p :=
    height_levelPoint (hs e List.mem_cons_self)
  have hrest : windingAbout δ p rest = windingAbout δ (levelPoint δ (height δ p) e) rest := by
    refine windingAbout_congr fun f hf => ?_
    have hmem := List.mem_cons_of_mem e hf
    rw [turnsAbout_level rfl, turnsAbout_level hq]
    by_cases h₀ : straddle δ (height δ p) f = 0
    · simp [h₀]
    by_cases hlt : p.longitude < (levelPoint δ (height δ p) f).longitude
    · have hle := hfirst f hf ⟨h₀, hlt⟩
      have hne : (levelPoint δ (height δ p) e).longitude ≠
          (levelPoint δ (height δ p) f).longitude := by
        intro heq
        have hwithin := within_levelPoint he.1 (hlevel e List.mem_cons_self).1
          (hlevel e List.mem_cons_self).2
        have hoff := ((List.pairwise_cons.mp hloop.apart).1 f hf).off hwithin
        have hsame : levelPoint δ (height δ p) e = levelPoint δ (height δ p) f := by
          have hf' := height_levelPoint (h := height δ p) (hs f hmem)
          exact eq_of_height_of_longitude (hq.trans hf'.symm) heq
        rw [hsame, (within_levelPoint h₀ (hlevel f hmem).1 (hlevel f hmem).2).holds] at hoff
        cases hoff
      rw [if_pos hlt, if_pos (lt_of_le_of_ne hle hne)]
    · rw [if_neg hlt, if_neg fun h => hlt (he.2.trans h)]
  rw [windingAbout_cons, windingAbout_cons, hrest, turnsAbout_level rfl, if_pos he.2,
    turnsAbout_level hq, if_neg (lt_irrefl _)]
  ring

/-- The point on the last edge that a point sees, sees nothing. -/
theorem winding_last (hs : Sloped δ es) (hmem : e ∈ es) (he : Sees δ p e)
    (hlast : ∀ f ∈ es, Sees δ p f →
      (levelPoint δ (height δ p) f).longitude ≤ (levelPoint δ (height δ p) e).longitude) :
    windingAbout δ (levelPoint δ (height δ p) e) es = 0 := by
  refine windingAbout_eq_zero fun f hf => ?_
  rw [turnsAbout_level (height_levelPoint (hs e hmem))]
  split
  · rename_i hlt
    by_contra h₀
    exact (hlast f hf ⟨h₀, he.2.trans hlt⟩).not_gt hlt
  · rfl

/-- A loop goes around a point at most once. -/
theorem Loop.winding_cases (hloop : Loop es) (hs : Sloped δ es)
    (hlevel : ∀ e ∈ es, height δ p ≠ height δ e.start ∧ height δ p ≠ height δ e.finish) :
    windingAbout δ p es = -1 ∨ windingAbout δ p es = 0 ∨ windingAbout δ p es = 1 := by
  classical
  by_cases hnone : ∀ e ∈ es, ¬Sees δ p e
  · exact .inr (.inl (windingAbout_eq_zero fun e he => turnsAbout_of_not_sees (hnone e he)))
  have hseen : (es.filter (Sees δ p) : Multiset (Edge ℝ)) ≠ 0 := by
    simpa using hnone
  obtain ⟨e, he, hfirst⟩ := Multiset.exists_min_image
    (fun f => (levelPoint δ (height δ p) f).longitude) hseen
  obtain ⟨g, hg, hlast⟩ := Multiset.exists_max_image
    (fun f => (levelPoint δ (height δ p) f).longitude) hseen
  simp only [Multiset.mem_coe, List.mem_filter, decide_eq_true_eq, and_imp] at he hg hfirst hlast
  obtain ⟨hmem, he⟩ := he
  obtain ⟨hgmem, hg⟩ := hg
  -- the loop is entered at the first edge in sight
  obtain ⟨before, after, rfl⟩ := List.append_of_mem hmem
  have hperm : (before ++ e :: after).Perm (e :: (after ++ before)) := List.perm_append_comm
  have hloop' : Loop (e :: (after ++ before)) := hloop.rotate
  have hs' := hs.of_perm hperm
  have hp := winding_first hloop' hs' (fun f hf => hlevel f (hperm.mem_iff.mpr hf)) he
    fun f hf => hfirst f (hperm.mem_iff.mpr (List.mem_cons_of_mem _ hf))
  have hzero := winding_last hs hgmem hg hlast
  rw [windingAbout_perm hperm] at hzero ⊢
  have hright : windingAbout δ (levelPoint δ (height δ p) e) (e :: (after ++ before)) + fall δ e =
      fall δ g := by
    rcases List.mem_cons.mp (hperm.mem_iff.mp hgmem) with rfl | hgrest
    · rw [hzero, zero_add]
    · obtain ⟨es, fs, hsplit⟩ := List.append_of_mem hgrest
      rw [hsplit] at hloop' hs' hzero ⊢
      rw [hloop'.right_eq hs' (within_levelPoint he.1 (hlevel e hmem).1 (hlevel e hmem).2)
        (within_levelPoint hg.1 (hlevel g hgmem).1 (hlevel g hgmem).2), hzero, zero_add]
  rcases straddle_cases he.1 with ⟨h₁, h₂, -⟩ | ⟨h₁, h₂, -⟩ <;>
    rcases straddle_cases hg.1 with ⟨-, h₃, -⟩ | ⟨-, h₃, -⟩ <;> omega

end Geotrack
