import Geotrack.Proofs.Plane.Chain

/-!
# Loops

A loop is a closed chain of edges that does not touch itself. It goes around a point at most once:
the winding number on the right of an edge is the same for all edges, which `corner` shows for two
that follow one another, and a point looks at the loop past one edge and at nothing past another.
-/

namespace Geotrack

variable {δ : ℝ} {d e e' f : Edge ℝ} {es fs rest : List (Edge ℝ)} {p q u v x : Point ℝ}

namespace Edge

/-- Two edges have no point in common but one where the first leads to the second or the second to
the first. -/
def Apart (d e : Edge ℝ) : Prop :=
  ∀ x, d.holds x = true → e.holds x = true →
    (x = d.finish ∧ x = e.start) ∨ (x = d.start ∧ x = e.finish)

theorem Apart.symm (h : d.Apart e) : e.Apart d := fun x he hd =>
  (h x hd he).elim (fun h => .inr ⟨h.2, h.1⟩) fun h => .inl ⟨h.2, h.1⟩

theorem Apart.reverse (h : d.Apart e) : e.reverse.Apart d.reverse := by
  intro x he hd
  rw [holds_reverse] at he hd
  exact (h x hd he).elim (fun h => .inl ⟨h.2, h.1⟩) fun h => .inr ⟨h.2, h.1⟩

/-- A point lies on an edge and is not one of its ends. -/
structure Within (e : Edge ℝ) (x : Point ℝ) : Prop where
  holds : e.holds x = true
  ne_start : x ≠ e.start
  ne_finish : x ≠ e.finish

theorem Within.reverse (h : e.Within x) : e.reverse.Within x :=
  ⟨by rw [holds_reverse]; exact h.holds, h.ne_finish, h.ne_start⟩

/-- A point within one of two edges that are apart is not on the other. -/
theorem Apart.off (h : d.Apart e) (hx : d.Within x) : e.holds x = false := by
  by_contra he
  rcases h x hx.holds (by simpa using he) with ⟨h, -⟩ | ⟨h, -⟩
  · exact hx.ne_finish h
  · exact hx.ne_start h

theorem Within.exists_share (h : e.Within x) :
    ∃ t, 0 < t ∧ t < 1 ∧ x = e.pointAt t := by
  obtain ⟨t, h₀, h₁, rfl⟩ := holds_iff.mp h.holds
  refine ⟨t, lt_of_le_of_ne h₀ ?_, lt_of_le_of_ne h₁ ?_, rfl⟩
  · rintro rfl
    exact h.ne_start (by simp [pointAt])
  · rintro rfl
    exact h.ne_finish (by simp [pointAt])

theorem exists_within (h : e.start ≠ e.finish) : ∃ x, e.Within x := by
  obtain ⟨⟨a, b⟩, ⟨c, d⟩⟩ := e
  refine ⟨_, holds_iff.mpr ⟨1 / 2, by norm_num, by norm_num, rfl⟩, fun heq => h ?_, fun heq => h ?_⟩
  · simp only [pointAt, Point.mk.injEq] at heq ⊢
    exact ⟨by linarith, by linarith⟩
  · simp only [pointAt, Point.mk.injEq] at heq ⊢
    exact ⟨by linarith, by linarith⟩

theorem Within.height_lt (h : e.Within x) (hup : height δ e.start < height δ e.finish) :
    height δ e.start < height δ x ∧ height δ x < height δ e.finish := by
  obtain ⟨t, h₀, h₁, rfl⟩ := h.exists_share
  rw [height_pointAt]
  constructor <;> nlinarith

theorem within_of_height (hx : e.side x = 0)
    (hb : (height δ e.start < height δ x ∧ height δ x < height δ e.finish) ∨
      (height δ e.finish < height δ x ∧ height δ x < height δ e.start)) : e.Within x := by
  have hne : height δ e.start ≠ height δ e.finish := by
    rcases hb with ⟨h₁, h₂⟩ | ⟨h₁, h₂⟩
    · exact (h₁.trans h₂).ne
    · exact (h₁.trans h₂).ne'
  refine ⟨holds_of_height hx hne (hb.imp (fun h => ⟨h.1.le, h.2.le⟩) fun h => ⟨h.1.le, h.2.le⟩),
    ?_, ?_⟩
  · rintro rfl
    rcases hb with ⟨h, -⟩ | ⟨-, h⟩ <;> exact lt_irrefl _ h
  · rintro rfl
    rcases hb with ⟨-, h⟩ | ⟨h, -⟩ <;> exact lt_irrefl _ h

theorem Within.height_gt (h : e.Within x) (hdown : height δ e.finish < height δ e.start) :
    height δ e.finish < height δ x ∧ height δ x < height δ e.start :=
  h.reverse.height_lt hdown

/-- A stretch of an edge from within to its end lies on the edge and does not reach its start. -/
theorem Within.tail (h : e.Within q) (hx : (Edge.mk q e.finish).holds x = true) :
    e.holds x = true ∧ x ≠ e.start := by
  obtain ⟨t, h₀, h₁, rfl⟩ := h.exists_share
  obtain ⟨s, k₀, k₁, rfl⟩ := holds_iff.mp hx
  have heq : (Edge.mk (e.pointAt t) e.finish).pointAt s = e.pointAt (t + s * (1 - t)) := by
    simp only [pointAt, Point.mk.injEq]
    exact ⟨by ring, by ring⟩
  have hpos : 0 < t + s * (1 - t) := by nlinarith
  rw [heq]
  refine ⟨holds_iff.mpr ⟨_, hpos.le, by nlinarith, rfl⟩, fun hstart => h.ne_start ?_⟩
  obtain ⟨⟨a, b⟩, ⟨c, d⟩⟩ := e
  simp only [pointAt, Point.mk.injEq, add_eq_left, mul_eq_zero, hpos.ne', false_or] at hstart ⊢
  exact ⟨.inr hstart.1, .inr hstart.2⟩

end Edge

/-- A closed chain of edges, none of them without length, that does not touch itself. -/
structure Loop (es : List (Edge ℝ)) : Prop where
  closed : ∃ u, Joined u es u
  proper : ∀ e ∈ es, e.start ≠ e.finish
  apart : es.Pairwise Edge.Apart

namespace Loop

/-- A loop may be entered after any of its edges. -/
theorem rotate (h : Loop (es ++ fs)) : Loop (fs ++ es) := by
  refine ⟨?_, fun e he => h.proper e (by simpa [or_comm] using he), ?_⟩
  · obtain ⟨u, hu⟩ := h.closed
    obtain ⟨w, hes, hfs⟩ := joined_append.mp hu
    exact ⟨w, joined_append.mpr ⟨u, hfs, hes⟩⟩
  · exact (List.perm_append_comm.pairwise_iff fun h => h.symm).mp h.apart

/-- The loop the other way around. -/
theorem reverse (h : Loop es) : Loop (es.reverse.map Edge.reverse) := by
  refine ⟨?_, ?_, ?_⟩
  · obtain ⟨u, hu⟩ := h.closed
    exact ⟨u, hu.reverse⟩
  · intro e he
    obtain ⟨d, hd, rfl⟩ := List.mem_map.mp he
    exact (h.proper d (List.mem_reverse.mp hd)).symm
  · rw [List.pairwise_map, List.pairwise_reverse]
    exact h.apart.imp Edge.Apart.reverse

/-- Every edge of a loop leads to another one. -/
theorem exists_next (h : Loop es) (he : e ∈ es) : ∃ f ∈ es, e.finish = f.start := by
  obtain ⟨before, after, rfl⟩ := List.append_of_mem he
  obtain ⟨u, hu⟩ := h.closed
  have hjoin := hu.rotate
  match hrest : after ++ before with
  | [] =>
    rw [hrest] at hjoin
    exact absurd hjoin.symm (h.proper e he)
  | f :: rest =>
    rw [hrest] at hjoin
    have hf : f ∈ after ++ before := hrest ▸ List.mem_cons_self
    refine ⟨f, ?_, hjoin.1.symm⟩
    rcases List.mem_append.mp hf with hf | hf
    · exact List.mem_append_right _ (List.mem_cons_of_mem _ hf)
    · exact List.mem_append_left _ hf

/-- To every edge of a loop another one leads. -/
theorem exists_previous (h : Loop es) (he : e ∈ es) : ∃ f ∈ es, f.finish = e.start := by
  obtain ⟨f, hf, hjoin⟩ := h.reverse.exists_next (e := e.reverse)
    (List.mem_map.mpr ⟨e, List.mem_reverse.mpr he, rfl⟩)
  obtain ⟨g, hg, rfl⟩ := List.mem_map.mp hf
  exact ⟨g, List.mem_reverse.mp hg, hjoin.symm⟩

/-- What two edges of a loop that follow one another and the rest of it have to do with each
other. -/
theorem corner_apart (h : Loop (e :: e' :: rest)) :
    e'.start = e.finish ∧ Joined e'.finish rest e.start ∧ e.Apart e' ∧ (∀ f ∈ rest, e.Apart f) ∧
      ∀ f ∈ rest, f.holds e.finish = false := by
  obtain ⟨u, rfl, hstart, hrest⟩ := h.closed
  have hpair := h.apart
  rw [List.pairwise_cons, List.pairwise_cons] at hpair
  obtain ⟨he, he', -⟩ := hpair
  have hproper := h.proper e List.mem_cons_self
  have hproper' := h.proper e' (List.mem_cons_of_mem _ List.mem_cons_self)
  refine ⟨hstart, hrest, he e' List.mem_cons_self, fun f hf => he f (List.mem_cons_of_mem _ hf),
    fun f hf => ?_⟩
  by_contra hholds
  have hholds : f.holds e.finish = true := by simpa using hholds
  rcases he f (List.mem_cons_of_mem _ hf) _ e.holds_finish hholds with ⟨-, h₁⟩ | ⟨h₁, -⟩
  · rcases he' f hf _ e'.holds_start (by rwa [hstart]) with ⟨h₂, -⟩ | ⟨-, h₂⟩
    · exact hproper' h₂
    · refine h.proper f (List.mem_cons_of_mem _ (List.mem_cons_of_mem _ hf)) ?_
      rw [← h₁, ← h₂, hstart]
  · exact hproper h₁.symm

end Loop

/-! ### The winding number on the right of an edge -/

theorem cross_cycle (p q r : Point ℝ) : cross q r p = cross p q r := by
  simp only [cross]
  ring

theorem cross_swap (p q r : Point ℝ) : cross q p r = -cross p q r := by
  simp only [cross]
  ring

/-- No edge of a list is level. -/
def Sloped (δ : ℝ) (es : List (Edge ℝ)) : Prop := ∀ e ∈ es, height δ e.start ≠ height δ e.finish

theorem Sloped.of_perm (h : Sloped δ es) (hp : es.Perm fs) : Sloped δ fs :=
  fun e he => h e (hp.mem_iff.mpr he)

theorem Sloped.reverse (h : Sloped δ es) : Sloped δ (es.reverse.map Edge.reverse) := by
  intro e he
  obtain ⟨d, hd, rfl⟩ := List.mem_map.mp he
  exact (h d (List.mem_reverse.mp hd)).symm

/-- The winding number just right of an edge is that of a point on it, less one if the edge
falls. -/
noncomputable def fall (δ : ℝ) (e : Edge ℝ) : ℤ :=
  if height δ e.start < height δ e.finish then 0 else -1

/-- How the winding number right of a corner differs from what the edges beyond it add. -/
noncomputable def bend (δ : ℝ) (u v z : Point ℝ) : ℤ :=
  if height δ u < height δ v ∧ height δ v < height δ z then 0
  else if height δ z < height δ v ∧ height δ v < height δ u then -1
  else if cross u v z < 0 then -1
  else 0

theorem bend_peak {z : Point ℝ} (hu : height δ u < height δ v) (hz : height δ z < height δ v) :
    bend δ u v z = if cross u v z < 0 then -1 else 0 := by
  rw [bend, if_neg fun h => hz.not_gt h.2, if_neg fun h => hu.not_gt h.2]

theorem bend_pit {z : Point ℝ} (hu : height δ v < height δ u) (hz : height δ v < height δ z) :
    bend δ u v z = if cross u v z < 0 then -1 else 0 := by
  rw [bend, if_neg fun h => hu.not_gt h.1, if_neg fun h => hz.not_gt h.1]

theorem bend_rising {z : Point ℝ} (hu : height δ u < height δ v) (hz : height δ v < height δ z) :
    bend δ u v z = 0 := if_pos ⟨hu, hz⟩

theorem bend_falling {z : Point ℝ} (hu : height δ v < height δ u) (hz : height δ z < height δ v) :
    bend δ u v z = -1 := by
  rw [bend, if_neg fun h => hu.not_gt h.1, if_pos ⟨hz, hu⟩]

theorem bend_reverse {z : Point ℝ} (hu : height δ u ≠ height δ v) (hz : height δ v ≠ height δ z)
    (hcross : (height δ u < height δ v ∧ height δ z < height δ v) ∨
      (height δ v < height δ u ∧ height δ v < height δ z) → cross u v z ≠ 0) :
    bend δ z v u = -1 - bend δ u v z := by
  have hback : cross z v u = -cross u v z := by
    rw [← cross_cycle z v u, cross_swap]
  have hsplit (hne : cross u v z ≠ 0) : (if cross z v u < 0 then -1 else 0 : ℤ) =
      -1 - if cross u v z < 0 then -1 else 0 := by
    rw [hback]
    rcases hne.lt_or_gt with h | h
    · simp [h, h.le]
    · simp [h, h.not_gt]
  rcases lt_or_gt_of_ne hu with h₁ | h₁ <;> rcases lt_or_gt_of_ne hz with h₂ | h₂
  · rw [bend_rising h₁ h₂, bend_falling h₂ h₁, sub_zero]
  · rw [bend_peak h₁ h₂, bend_peak h₂ h₁, hsplit (hcross (.inl ⟨h₁, h₂⟩))]
  · rw [bend_pit h₁ h₂, bend_pit h₂ h₁, hsplit (hcross (.inr ⟨h₁, h₂⟩))]
  · rw [bend_falling h₁ h₂, bend_rising h₂ h₁, sub_self]

theorem fall_reverse (h : height δ e.start ≠ height δ e.finish) :
    fall δ e.reverse = -1 - fall δ e := by
  unfold fall
  rcases lt_or_gt_of_ne h with hlt | hgt
  · simp [Edge.reverse, hlt, hlt.not_gt]
  · simp [Edge.reverse, hgt, hgt.not_gt]

/-- At a corner that is the highest or the lowest point of its edges, the second edge does not lead
back along the first. -/
theorem cross_ne_zero (h : e.Apart e') (hjoin : e'.start = e.finish) (hq : e.Within q)
    (hturn : (height δ e.start < height δ e.finish ∧ height δ e'.finish < height δ e.finish) ∨
      (height δ e.finish < height δ e.start ∧ height δ e.finish < height δ e'.finish)) :
    cross e.start e.finish e'.finish ≠ 0 := by
  intro hcross
  have hside : e.side e'.finish = 0 := hcross
  have hside' : e'.side q = 0 := by
    obtain ⟨t, -, -, rfl⟩ := hq.exists_share
    rw [Edge.side_pointAt, Edge.side, Edge.side, hjoin]
    have : cross e.finish e'.finish e.start = 0 := by
      rw [← hcross]
      simp only [cross]
      ring
    rw [this, ← hjoin, ← Edge.side, e'.side_start, mul_zero, mul_zero, add_zero]
  have hnot_on (hne : height δ e'.start ≠ height δ e'.finish)
      (hb : (height δ e'.start ≤ height δ q ∧ height δ q ≤ height δ e'.finish) ∨
        (height δ e'.finish ≤ height δ q ∧ height δ q ≤ height δ e'.start)) : False := by
    have hoff := h.off hq
    rw [Edge.holds_of_height hside' hne hb] at hoff
    cases hoff
  have hnot_within (hz : e.Within e'.finish) : False := by
    have hoff := h.off hz
    rw [e'.holds_finish] at hoff
    cases hoff
  rw [hjoin] at hnot_on
  -- the nearer to the corner of `q` and the far end of the second edge lies on both edges
  rcases hturn with ⟨h₁, h₂⟩ | ⟨h₁, h₂⟩
  · obtain ⟨k₁, k₂⟩ := hq.height_lt h₁
    rcases le_or_gt (height δ e'.finish) (height δ q) with hle | hlt
    · exact hnot_on h₂.ne' (.inr ⟨hle, k₂.le⟩)
    · exact hnot_within (Edge.within_of_height hside (.inl ⟨k₁.trans hlt, h₂⟩))
  · obtain ⟨k₁, k₂⟩ := hq.height_gt h₁
    rcases le_or_gt (height δ q) (height δ e'.finish) with hle | hlt
    · exact hnot_on h₂.ne (.inl ⟨k₁.le, hle⟩)
    · exact hnot_within (Edge.within_of_height hside (.inr ⟨h₂, hlt.trans k₂⟩))

theorem Edge.Within.exists_factor (h : e.Within q) :
    ∃ k, 0 < k ∧ ∀ z, cross q e.finish z = k * cross e.start e.finish z := by
  obtain ⟨t, -, h₁, rfl⟩ := h.exists_share
  refine ⟨1 - t, by linarith, fun z => ?_⟩
  simp only [Edge.pointAt, cross]
  ring

namespace Loop

/-- The edges beyond a corner do not come between it and a point within its first edge. -/
theorem rest_off (h : Loop (e :: e' :: rest)) (hq : e.Within q) :
    (∀ f ∈ rest, f.holds q = false) ∧ ∀ f ∈ rest, ¬(Edge.mk q e.finish).Meets f := by
  obtain ⟨-, -, -, hrest, hfinish⟩ := h.corner_apart
  refine ⟨fun f hf => (hrest f hf).off hq, ?_⟩
  rintro f hf ⟨x, hx, hfx⟩
  obtain ⟨hex, hne⟩ := hq.tail hx
  rcases hrest f hf x hex hfx with ⟨rfl, -⟩ | ⟨h, -⟩
  · rw [hfinish f hf] at hfx
    cases hfx
  · exact hne h

/-- `corner` where the first edge rises. -/
theorem corner_rising (h : Loop (e :: e' :: rest)) (hs : Sloped δ (e :: e' :: rest))
    (hq : e.Within q) (hup : height δ e.start < height δ e.finish) :
    windingAbout δ q (e :: e' :: rest) + fall δ e =
      windingAbout δ e.finish rest + bend δ e.start e.finish e'.finish := by
  obtain ⟨hjoin, hchain, hapart, -, hfinish⟩ := h.corner_apart
  obtain ⟨hoff, hmeet⟩ := h.rest_off hq
  obtain ⟨hb₁, hb₂⟩ := hq.height_lt hup
  obtain ⟨k, hk, hside⟩ := hq.exists_factor
  have hjump := chain_jump_of_not_meets (d := ⟨q, e.finish⟩) hchain hoff hfinish hb₂ hmeet
    (tellsRight_notLeft _)
  have hstart : beside δ ⟨q, e.finish⟩ (notLeft ⟨q, e.finish⟩) e.start = 0 :=
    if_neg fun h => hb₁.not_gt h.1
  rw [hstart, sub_zero] at hjump
  have hsum : turnsAbout δ q e' =
      beside δ ⟨q, e.finish⟩ (notLeft ⟨q, e.finish⟩) e'.finish +
        bend δ e.start e.finish e'.finish := by
    rcases lt_or_gt_of_ne (hs e' (List.mem_cons_of_mem _ List.mem_cons_self)) with hup' | hdown'
    · rw [hjoin] at hup'
      rw [turnsAbout_of_le (by rw [hjoin]; exact hup'.le), if_neg, beside, if_neg,
        bend_rising hup hup', add_zero]
      · rintro ⟨-, h⟩
        exact h.not_gt hup'
      · rintro ⟨h, -⟩
        rw [hjoin] at h
        exact h.not_gt hb₂
    · rw [hjoin] at hdown'
      have hcross := cross_ne_zero hapart hjoin hq (.inl ⟨hup, hdown'⟩)
      have hq' : e'.side q < 0 ↔ cross e.start e.finish e'.finish < 0 := by
        rw [Edge.side, hjoin, cross_cycle, hside, ← not_le, mul_nonneg_iff_of_pos_left hk, not_le]
      have hz : 0 < (Edge.mk q e.finish).side e'.finish ↔
          ¬cross e.start e.finish e'.finish < 0 := by
        rw [Edge.side, hside, mul_pos_iff_of_pos_left hk, not_lt]
        exact ⟨le_of_lt, fun h => lt_of_le_of_ne h hcross.symm⟩
      rw [turnsAbout_of_ge (by rw [hjoin]; exact hdown'.le), bend_peak hup hdown', beside,
        notLeft]
      simp only [hq', hz, hjoin, hb₂, true_and, hdown'.le, and_true]
      by_cases hle : height δ e'.finish ≤ height δ q
      · simp [hle, hle.not_gt]
      · by_cases hneg : cross e.start e.finish e'.finish < 0 <;>
          simp [hle, not_le.mp hle, hneg]
  have hzero : turnsAbout δ q e = 0 := turnsAbout_of_side_eq_zero (Edge.side_of_holds hq.holds)
  rw [windingAbout_cons, windingAbout_cons, hzero, fall, if_pos hup]
  dsimp only at hjump
  omega

/-- `corner` where the first edge falls. -/
theorem corner_falling (h : Loop (e :: e' :: rest)) (hs : Sloped δ (e :: e' :: rest))
    (hq : e.Within q) (hdown : height δ e.finish < height δ e.start) :
    windingAbout δ q (e :: e' :: rest) + fall δ e =
      windingAbout δ e.finish rest + bend δ e.start e.finish e'.finish := by
  obtain ⟨hjoin, hchain, hapart, -, hfinish⟩ := h.corner_apart
  obtain ⟨hoff, hmeet⟩ := h.rest_off hq
  obtain ⟨hb₁, hb₂⟩ := hq.height_gt hdown
  obtain ⟨k, hk, hside⟩ := hq.exists_factor
  have hmeet' : ∀ f ∈ rest, ¬(Edge.mk e.finish q).Meets f := by
    rintro f hf ⟨x, hx, hfx⟩
    exact hmeet f hf ⟨x, by rwa [← Edge.holds_reverse] at hx, hfx⟩
  have hjump := chain_jump_of_not_meets (d := ⟨e.finish, q⟩) hchain hfinish hoff hb₁ hmeet'
    (tellsRight_notLeft _)
  have hstart : beside δ ⟨e.finish, q⟩ (notLeft ⟨e.finish, q⟩) e.start = 0 :=
    if_neg fun h => hb₂.not_ge h.2
  rw [hstart, sub_zero] at hjump
  have hsum : turnsAbout δ q e' +
      beside δ ⟨e.finish, q⟩ (notLeft ⟨e.finish, q⟩) e'.finish =
        1 + bend δ e.start e.finish e'.finish := by
    rcases lt_or_gt_of_ne (hs e' (List.mem_cons_of_mem _ List.mem_cons_self)) with hup' | hdown'
    · rw [hjoin] at hup'
      have hcross := cross_ne_zero hapart hjoin hq (.inr ⟨hdown, hup'⟩)
      have hq' : 0 < e'.side q ↔ ¬cross e.start e.finish e'.finish < 0 := by
        rw [Edge.side, hjoin, cross_cycle, hside, mul_pos_iff_of_pos_left hk, not_lt]
        exact ⟨le_of_lt, fun h => lt_of_le_of_ne h hcross.symm⟩
      have hz : 0 < (Edge.mk e.finish q).side e'.finish ↔
          cross e.start e.finish e'.finish < 0 := by
        rw [Edge.side, cross_swap, hside, neg_pos, ← not_le, mul_nonneg_iff_of_pos_left hk, not_le]
      rw [turnsAbout_of_le (by rw [hjoin]; exact hup'.le), bend_pit hdown hup', beside, notLeft]
      simp only [hq', hz, hjoin, hb₁.le, hup', true_and]
      by_cases hle : height δ e'.finish ≤ height δ q
      · by_cases hneg : cross e.start e.finish e'.finish < 0 <;> simp [hle, hle.not_gt, hneg]
      · by_cases hneg : cross e.start e.finish e'.finish < 0 <;>
          simp [hle, not_le.mp hle, hneg]
    · rw [hjoin] at hdown'
      rw [turnsAbout_of_ge (by rw [hjoin]; exact hdown'.le), if_neg, beside, if_neg,
        bend_falling hdown hdown']
      · rfl
      · rintro ⟨h, -⟩
        exact h.not_gt hdown'
      · rintro ⟨-, h, -⟩
        rw [hjoin] at h
        exact h.not_gt hb₁
  have hzero : turnsAbout δ q e = 0 := turnsAbout_of_side_eq_zero (Edge.side_of_holds hq.holds)
  rw [windingAbout_cons, windingAbout_cons, hzero, fall, if_neg hdown.not_gt]
  dsimp only at hjump
  omega

/-- The winding number right of the first edge of a corner, told from the corner itself. -/
theorem corner (h : Loop (e :: e' :: rest)) (hs : Sloped δ (e :: e' :: rest)) (hq : e.Within q) :
    windingAbout δ q (e :: e' :: rest) + fall δ e =
      windingAbout δ e.finish rest + bend δ e.start e.finish e'.finish := by
  rcases lt_or_gt_of_ne (hs e List.mem_cons_self) with hup | hdown
  · exact h.corner_rising hs hq hup
  · exact h.corner_falling hs hq hdown

/-- The winding number right of an edge is that right of the next one. -/
theorem right_next (h : Loop (e :: e' :: rest)) (hs : Sloped δ (e :: e' :: rest))
    (hp : e.Within p) (hq : e'.Within q) :
    windingAbout δ p (e :: e' :: rest) + fall δ e =
      windingAbout δ q (e :: e' :: rest) + fall δ e' := by
  have hrev : (e :: e' :: rest).reverse.map Edge.reverse =
      rest.reverse.map Edge.reverse ++ [e'.reverse, e.reverse] := by simp
  have hloop := h.reverse
  have hsloped := hs.reverse
  rw [hrev] at hloop hsloped
  have hback : windingAbout δ q (e'.reverse :: e.reverse :: rest.reverse.map Edge.reverse) +
      fall δ e'.reverse = windingAbout δ e'.reverse.finish (rest.reverse.map Edge.reverse) +
        bend δ e'.reverse.start e'.reverse.finish e.reverse.finish :=
    corner hloop.rotate (hsloped.of_perm List.perm_append_comm) hq.reverse
  obtain ⟨hjoin, -, hapart, -, -⟩ := h.corner_apart
  have hslope := hs e List.mem_cons_self
  have hslope' := hs e' (List.mem_cons_of_mem _ List.mem_cons_self)
  have hrest (x : Point ℝ) :
      windingAbout δ x (rest.reverse.map Edge.reverse) = -windingAbout δ x rest := by
    rw [windingAbout_reverse, windingAbout_perm (List.reverse_perm rest)]
  have hbend : bend δ e'.reverse.start e'.reverse.finish e.reverse.finish =
      -1 - bend δ e.start e.finish e'.finish := by
    change bend δ e'.finish e'.start e.start = _
    rw [hjoin] at hslope' ⊢
    refine bend_reverse hslope hslope' fun hturn => cross_ne_zero hapart hjoin hp hturn
  have hfinish : e'.reverse.finish = e.finish := hjoin
  rw [hbend, fall_reverse hslope', hfinish, windingAbout_cons, windingAbout_cons, hrest, hrest,
    turnsAbout_reverse, turnsAbout_reverse] at hback
  rw [h.corner hs hp, windingAbout_cons, windingAbout_cons]
  omega

/-- The winding number right of an edge is the same for all edges of a loop. -/
theorem right_eq (h : Loop (e :: (es ++ f :: fs))) (hs : Sloped δ (e :: (es ++ f :: fs)))
    (hp : e.Within p) (hq : f.Within q) :
    windingAbout δ p (e :: (es ++ f :: fs)) + fall δ e =
      windingAbout δ q (e :: (es ++ f :: fs)) + fall δ f := by
  induction es generalizing e p fs with
  | nil => exact h.right_next hs hp hq
  | cons g es ih =>
    obtain ⟨x, hx⟩ := Edge.exists_within (h.proper g (by simp))
    rw [List.cons_append] at h hs ⊢
    have hperm : (e :: g :: (es ++ f :: fs)).Perm (g :: (es ++ f :: (fs ++ [e]))) := by
      simpa using (List.perm_append_singleton e (g :: (es ++ f :: fs))).symm
    have hrotated : Loop (g :: (es ++ f :: (fs ++ [e]))) := by
      have hback : Loop (g :: (es ++ f :: fs) ++ [e]) := rotate h
      simpa using hback
    rw [h.right_next hs hp hx, windingAbout_perm hperm, windingAbout_perm hperm]
    exact ih hrotated (hs.of_perm hperm) hx

end Loop

end Geotrack
