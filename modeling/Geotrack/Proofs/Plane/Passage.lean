import Geotrack.Proofs.Plane.Inside
import Geotrack.Proofs.Plane.Meeting

/-!
# Clean passages

A segment may graze a corner of a ring or run along a side. Where it does neither, each point that
it has in common with the ring belongs to one side that passes it, so that the points reported are
as many as the sides that pass.
-/

namespace Geotrack

variable {δ : ℝ} {d e f : Edge ℝ} {es : List (Edge ℝ)} {ring : Path ℝ} {x y u : Point ℝ}

/-- Whether a point lies on a segment and on a path. -/
def Path.Shares (ring : Path ℝ) (d : Edge ℝ) (x : Point ℝ) : Prop :=
  d.holds x = true ∧ ∃ e ∈ ring.edges, e.holds x = true

/-- A segment meets a ring cleanly where at every vertex on the segment the ring leads from one side
of the segment to the other and no two points in common are so near that they count as one. -/
structure Path.Clean (ring : Path ℝ) (d : Edge ℝ) : Prop where
  vertices : ∀ e ∈ ring.sides, ∀ f ∈ ring.sides, e.finish = f.start → d.holds e.finish = true →
    (d.turnTo e.start = .left ∧ d.turnTo f.finish = .right) ∨
      (d.turnTo e.start = .right ∧ d.turnTo f.finish = .left)
  separate : ∀ x y, ring.Shares d x → ring.Shares d y → x ≠ y → x.near y = false

/-! ### Sides along the segment -/

/-- An edge that runs along a segment, but not over an end of it, ends on the segment. -/
theorem Edge.holds_finish_of_line (hs : d.side e.start = 0) (hf : d.side e.finish = 0)
    (hM : d.Meets e) (h₁ : e.holds d.start = false) (h₂ : e.holds d.finish = false)
    (hd : d.start ≠ d.finish) (he : e.start ≠ e.finish) : d.holds e.finish = true := by
  obtain ⟨δ, hδ⟩ := exists_slight [d.start, d.finish]
  have hlevel : height δ d.start ≠ height δ d.finish := hδ.height_ne (by simp) (by simp) hd
  have hlevel' : height δ e.start ≠ height δ e.finish := fun h =>
    he (eq_of_height hs hf hlevel h)
  obtain ⟨hside, hside'⟩ := sides_of_line hs hf hlevel
  obtain ⟨x, hdx, hex⟩ := hM
  have hx := height_le_of_holds (δ := δ) hdx
  have hx' := height_le_of_holds (δ := δ) hex
  -- an end of the segment between the common point and the end of the edge would lie on the edge
  have hstart : ¬((height δ e.start ≤ height δ d.start ∧ height δ d.start ≤ height δ e.finish) ∨
      (height δ e.finish ≤ height δ d.start ∧ height δ d.start ≤ height δ e.start)) := by
    intro h
    rw [holds_of_height hside hlevel' h] at h₁
    cases h₁
  have hfinish : ¬((height δ e.start ≤ height δ d.finish ∧ height δ d.finish ≤ height δ e.finish) ∨
      (height δ e.finish ≤ height δ d.finish ∧ height δ d.finish ≤ height δ e.start)) := by
    intro h
    rw [holds_of_height hside' hlevel' h] at h₂
    cases h₂
  refine holds_of_height hf hlevel ?_
  by_contra hout
  simp only [not_or, not_and_or, not_le] at hstart hfinish hout
  grind

namespace Path.Clean

variable (h : ring.Clean d) (hloop : Loop ring.sides) (hs : ring.Misses d.start)
  (hf : ring.Misses d.finish) (hd : d.start ≠ d.finish)
include h hloop hs hf hd

/-- No side that meets the segment runs along it. -/
theorem not_line (he : e ∈ ring.sides) (hM : d.Meets e) :
    ¬(d.side e.start = 0 ∧ d.side e.finish = 0) := by
  rintro ⟨hstart, hfinish⟩
  have hmem := (mem_sides.mp he).1
  have hholds := Edge.holds_finish_of_line hstart hfinish hM (hs e hmem) (hf e hmem) hd
    (hloop.proper e he)
  obtain ⟨f, hfmem, hjoin⟩ := hloop.exists_next he
  have hstraight : d.turnTo e.start = .straight := turnOf_straight_iff.mpr hstart
  rcases h.vertices e he f hfmem hjoin hholds with ⟨hturn, -⟩ | ⟨hturn, -⟩ <;>
    rw [hstraight] at hturn <;> cases hturn

/-- Through each common point one side passes the segment. -/
theorem exists_passing (he : e ∈ ring.sides) (hdx : d.holds x = true) (hex : e.holds x = true) :
    ∃ f ∈ ring.sides, d.Passes f ∧ f.holds x = true := by
  have hline := h.not_line hloop hs hf hd he ⟨x, hdx, hex⟩
  have hx := Edge.side_of_holds hdx
  by_cases hpass : d.Passes e
  · exact ⟨e, he, hpass, hex⟩
  have hsame : 0 < d.side e.start ↔ 0 < d.side e.finish := by
    by_contra hnot
    exact hpass ⟨⟨x, hdx, hex⟩, by rwa [Edge.turnTo_left_iff, Edge.turnTo_left_iff]⟩
  obtain ⟨hopposite, -⟩ := (Edge.meets_iff hline).mp ⟨x, hdx, hex⟩
  have hend : d.side e.start = 0 ∨ d.side e.finish = 0 := by
    by_contra hnot
    simp only [not_or] at hnot
    rcases hopposite with ⟨h₁, h₂⟩ | ⟨h₁, h₂⟩ <;> grind
  rcases hend with hzero | hzero
  · have hxe := Edge.eq_start_of_side hline hdx hex hzero
    obtain ⟨f, hfmem, hjoin⟩ := hloop.exists_previous he
    have hfx : f.holds x = true := by
      rw [hxe, ← hjoin]
      exact f.holds_finish
    rcases h.vertices f hfmem e he hjoin (by rwa [hjoin, ← hxe]) with ⟨hleft, -⟩ | ⟨-, hleft⟩
    · refine ⟨f, hfmem, ⟨⟨x, hdx, hfx⟩, fun hiff => ?_⟩, hfx⟩
      have hlast := Edge.turnTo_left_iff.mp (hiff.mp hleft)
      rw [hjoin, hzero] at hlast
      exact lt_irrefl 0 hlast
    · exact absurd (hsame.mpr (Edge.turnTo_left_iff.mp hleft)) hzero.not_gt
  · have hxe := Edge.eq_finish_of_side hline hdx hex hzero
    obtain ⟨f, hfmem, hjoin⟩ := hloop.exists_next he
    have hfx : f.holds x = true := by
      rw [hxe, hjoin]
      exact f.holds_start
    rcases h.vertices e he f hfmem hjoin (by rwa [← hxe]) with ⟨hleft, -⟩ | ⟨-, hleft⟩
    · exact absurd (hsame.mp (Edge.turnTo_left_iff.mp hleft)) hzero.not_gt
    · refine ⟨f, hfmem, ⟨⟨x, hdx, hfx⟩, fun hiff => ?_⟩, hfx⟩
      have hfirst := Edge.turnTo_left_iff.mp (hiff.mpr hleft)
      rw [← hjoin, hzero] at hfirst
      exact lt_irrefl 0 hfirst

omit hloop hs hf hd in
/-- Two sides that touch do not both pass the segment where they touch. -/
theorem not_passes_both (he : e ∈ ring.sides) (hfmem : f ∈ ring.sides) (hjoin : e.finish = f.start)
    (hdx : d.holds e.finish = true) (hpe : d.Passes e) (hpf : d.Passes f) : False := by
  have hzero := Edge.side_of_holds hdx
  have hnot (hleft : d.turnTo e.finish = .left) : False := by
    rw [Edge.turnTo_left_iff, hzero] at hleft
    exact lt_irrefl 0 hleft
  have hpf' := hpf.2
  rw [← hjoin] at hpf'
  rcases h.vertices e he f hfmem hjoin hdx with ⟨-, hright⟩ | ⟨hright, -⟩
  · refine hpf' ⟨fun hleft => (hnot hleft).elim, fun hleft => ?_⟩
    rw [hright] at hleft
    cases hleft
  · refine hpe.2 ⟨fun hleft => ?_, fun hleft => (hnot hleft).elim⟩
    rw [hright] at hleft
    cases hleft

end Path.Clean

/-! ### The points in common -/

/-- A point that two edges have in common, if they have one. -/
noncomputable def commonPoint (d e : Edge ℝ) : Point ℝ :=
  open Classical in if h : d.Meets e then h.choose else d.start

theorem commonPoint_spec (h : d.Meets e) :
    d.holds (commonPoint d e) = true ∧ e.holds (commonPoint d e) = true := by
  rw [commonPoint, dif_pos h]
  exact h.choose_spec

theorem passing_sides : passing d ring.sides = passing d ring.edges := by
  classical
  rw [passing, passing, Path.sides, List.filter_filter]
  refine List.filter_congr fun e _ => ?_
  by_cases hpass : d.Passes e
  · have hne : e.start ≠ e.finish := by
      intro heq
      exact hpass.2 (by rw [heq])
    simp [hpass, hne]
  · simp [hpass]

/-- A point on a ring that has a side lies on a side. -/
theorem Path.exists_side (hring : Joined u ring.edges u) (hne : ring.sides ≠ [])
    (he : e ∈ ring.edges) (hx : e.holds x = true) : ∃ f ∈ ring.sides, f.holds x = true := by
  by_cases hproper : e.start = e.finish
  · have hxe : x = e.start := by
      obtain ⟨t, -, -, rfl⟩ := Edge.holds_iff.mp hx
      simp [Edge.pointAt, ← hproper]
    obtain ⟨before, after, hsplit⟩ := List.append_of_mem he
    have hperm : (before ++ e :: after).Perm (e :: (after ++ before)) := List.perm_append_comm
    rw [hsplit] at hring
    have hjoin := hring.rotate.filter
    cases hrest : (after ++ before).filter fun e => e.start ≠ e.finish with
    | nil =>
      refine absurd (List.eq_nil_iff_forall_not_mem.mpr fun f hf => ?_) hne
      obtain ⟨hfmem, hfne⟩ := mem_sides.mp hf
      rw [hsplit, hperm.mem_iff, List.mem_cons] at hfmem
      rcases hfmem with rfl | hfmem
      · exact hfne hproper
      · exact List.not_mem_nil (hrest ▸ List.mem_filter.mpr ⟨hfmem, by simpa using hfne⟩)
    | cons f rest =>
      have hin : f ∈ (after ++ before).filter fun e => e.start ≠ e.finish := by
        rw [hrest]
        exact List.mem_cons_self
      rw [hrest] at hjoin
      obtain ⟨hfmem, hfne⟩ := List.mem_filter.mp hin
      refine ⟨f, mem_sides.mpr ⟨?_, by simpa using hfne⟩, ?_⟩
      · rw [hsplit, hperm.mem_iff]
        exact List.mem_cons_of_mem _ hfmem
      · rw [hxe, hproper, ← hjoin.1]
        exact f.holds_start
  · exact ⟨e, mem_sides.mpr ⟨he, hproper⟩, hx⟩

/-- A segment that meets a ring cleanly meets it in as many points as sides pass it. -/
theorem Path.Clean.length_meetingPoints (h : ring.Clean d) (hring : Joined u ring.edges u)
    (hsimple : ring.Simple) (hne : ring.sides ≠ []) (hs : ring.Misses d.start)
    (hf : ring.Misses d.finish) (hd : d.start ≠ d.finish) :
    (meetingPoints d.start d.finish [ring]).length = (passing d ring.edges).length := by
  have hloop := hsimple.loop hring
  have hreported (x : Point ℝ) : x ∈ (Boundary.edges [ring]).flatMap (fun e =>
      ((Edge.meet? ⟨d.start, d.finish⟩ e).map Meeting.points).getD []) ↔ ring.Shares d x := by
    simp only [Boundary.edges, List.flatMap_cons, List.flatMap_nil, List.append_nil,
      List.mem_flatMap]
    constructor
    · rintro ⟨e, he, hx⟩
      cases hm : Edge.meet? d e with
      | none => rw [hm] at hx; cases hx
      | some m =>
        rw [hm] at hx
        have := Edge.meet?_sound hm x hx
        exact ⟨this.1, e, he, this.2⟩
    · rintro ⟨hdx, e, he, hex⟩
      obtain ⟨f, hfmem, hfx⟩ := Path.exists_side hring hne he hex
      have hline := h.not_line hloop hs hf hd hfmem ⟨x, hdx, hfx⟩
      refine ⟨f, (mem_sides.mp hfmem).1, ?_⟩
      rw [Edge.meet?_of_common hline hdx hfx]
      simp [Meeting.points]
  rw [meetingPoints, meetingPointsBy, if_neg (by simpa using hd), sortByDistance,
    List.length_mergeSort]
  obtain ⟨hnodup, hmem⟩ := distinctPoints_spec (fun p _ => p.near_self) fun p hp q hq hpq =>
    h.separate p q ((hreported p).mp hp) ((hreported q).mp hq) hpq
  rw [← passing_sides, ← List.length_map (f := commonPoint d)]
  refine ((List.perm_ext_iff_of_nodup hnodup ?_).mpr fun x => ?_).length_eq
  · rw [List.Nodup, List.pairwise_map]
    refine (hsimple.filter _).imp_of_mem fun {e f} he hf hapart heq => ?_
    obtain ⟨he, hpe⟩ := mem_passing.mp he
    obtain ⟨hf, hpf⟩ := mem_passing.mp hf
    obtain ⟨hdx, hex⟩ := commonPoint_spec hpe.1
    obtain ⟨-, hfx⟩ := commonPoint_spec hpf.1
    rw [← heq] at hfx
    rcases hapart _ hex hfx with ⟨h₁, h₂⟩ | ⟨h₁, h₂⟩
    · exact h.not_passes_both he hf (h₁.symm.trans h₂) (h₁ ▸ hdx) hpe hpf
    · exact h.not_passes_both hf he (h₂.symm.trans h₁) (h₂ ▸ hdx) hpf hpe
  · rw [hmem, hreported, List.mem_map]
    constructor
    · rintro ⟨hdx, e, he, hex⟩
      obtain ⟨f, hfmem, hfx⟩ := Path.exists_side hring hne he hex
      obtain ⟨g, hg, hpass, hgx⟩ := h.exists_passing hloop hs hf hd hfmem hdx hfx
      obtain ⟨hdc, hgc⟩ := commonPoint_spec hpass.1
      exact ⟨g, mem_passing.mpr ⟨hg, hpass⟩,
        Edge.eq_of_common (h.not_line hloop hs hf hd hg hpass.1) hdc hgc hdx hgx⟩
    · rintro ⟨e, he, rfl⟩
      obtain ⟨he, hpass⟩ := mem_passing.mp he
      obtain ⟨hdc, hec⟩ := commonPoint_spec hpass.1
      exact ⟨hdc, e, (mem_sides.mp he).1, hec⟩

end Geotrack
