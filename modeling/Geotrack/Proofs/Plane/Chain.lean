import Geotrack.Proofs.Plane.Winding

/-!
# Chains of edges

A ring is a chain of edges that ends where it begins. What its edges add to the winding numbers of
the two ends of a segment differs by the number of edges that pass the segment, up to an even
number.
-/

namespace Geotrack

/-- Edges that lead from one point to another, each from where the one before ends. -/
def Joined {K : Type} : Point K → List (Edge K) → Point K → Prop
  | u, [], v => u = v
  | u, e :: es, v => e.start = u ∧ Joined e.finish es v

section Joined

variable {K : Type} {u v : Point K} {e : Edge K} {es fs : List (Edge K)}

theorem joined_append {u v : Point K} :
    Joined u (es ++ fs) v ↔ ∃ w, Joined u es w ∧ Joined w fs v := by
  induction es generalizing u with
  | nil => simp [Joined]
  | cons e es ih => simp [Joined, ih, and_assoc]

/-- A closed chain may be entered after any of its edges. -/
theorem Joined.rotate (h : Joined u (es ++ e :: fs) u) : Joined e.finish (fs ++ es) e.start := by
  obtain ⟨w, hes, rfl, hfs⟩ := joined_append.mp h
  exact joined_append.mpr ⟨u, hfs, hes⟩

theorem Joined.reverse (h : Joined u es v) : Joined v (es.reverse.map Edge.reverse) u := by
  induction es generalizing u with
  | nil => exact h.symm
  | cons e es ih =>
    obtain ⟨rfl, h⟩ := h
    rw [List.reverse_cons, List.map_append]
    exact joined_append.mpr ⟨e.finish, ih h, rfl, rfl⟩

/-- A chain is joined also without its edges of no length. -/
theorem Joined.filter [DecidableEq (Point K)] (h : Joined u es v) :
    Joined u (es.filter fun e => e.start ≠ e.finish) v := by
  induction es generalizing u with
  | nil => exact h
  | cons e es ih =>
    obtain ⟨rfl, h⟩ := h
    by_cases he : e.start = e.finish
    · rw [List.filter_cons_of_neg (by simpa using he), he]
      exact ih h
    · rw [List.filter_cons_of_pos (by simpa using he)]
      exact ⟨rfl, ih h⟩

/-- Along a chain the differences of a function add up to that of its ends. -/
theorem Joined.sum_sub {M : Type} [AddCommGroup M] (h : Joined u es v) (f : Point K → M) :
    (es.map fun e => f e.start - f e.finish).sum = f u - f v := by
  induction es generalizing u with
  | nil => rw [Joined.eq_def] at h; simp_all
  | cons e es ih =>
    obtain ⟨rfl, h⟩ := h
    rw [List.map_cons, List.sum_cons, ih h, sub_add_sub_cancel]

/-- The edges of a path lead from its first point to its last one. -/
theorem Path.edges_joined (a : Point K) (rest : Path K) :
    Joined a (Path.edges (a :: rest)) ((a :: rest).getLast (by simp)) := by
  induction rest generalizing a with
  | nil => rfl
  | cons b rest ih =>
    rw [Path.edges, List.getLast_cons (by simp)]
    exact ⟨rfl, ih b⟩

end Joined

/-- Where no edge holds a point, the winding number is the sum of what the edges add. -/
theorem winding?_of_steps {K : Type} [Scalar K] {p : Point K} {es : List (Edge K)}
    {f : Edge K → ℤ} (h : ∀ e ∈ es, Ring.windingStep? p e = some (f e)) :
    Ring.winding? p es = some (es.map f).sum := by
  have hfold (n : ℤ) : es.foldlM (fun n e => (Ring.windingStep? p e).map (n + ·)) n =
      some (n + (es.map f).sum) := by
    induction es generalizing n with
    | nil => simp
    | cons e es ih =>
      obtain ⟨he, hes⟩ := List.forall_mem_cons.mp h
      rw [List.foldlM_cons, he, List.map_cons, List.sum_cons, ← add_assoc]
      exact ih hes _
  rw [Ring.winding?, hfold, zero_add]

/-! ### Winding numbers -/

/-- How often edges go around a point. -/
noncomputable def windingAbout (δ : ℝ) (p : Point ℝ) (es : List (Edge ℝ)) : ℤ :=
  (es.map (turnsAbout δ p)).sum

variable {δ : ℝ} {d e : Edge ℝ} {es fs : List (Edge ℝ)} {p q u v : Point ℝ}

@[simp] theorem windingAbout_cons :
    windingAbout δ p (e :: es) = turnsAbout δ p e + windingAbout δ p es := by
  rw [windingAbout, windingAbout, List.map_cons, List.sum_cons]

theorem windingAbout_perm (h : es.Perm fs) : windingAbout δ p es = windingAbout δ p fs :=
  (h.map _).sum_eq

theorem windingAbout_reverse :
    windingAbout δ p (es.map Edge.reverse) = -windingAbout δ p es := by
  induction es with
  | nil => simp [windingAbout]
  | cons e es ih => rw [List.map_cons, windingAbout_cons, windingAbout_cons, ih, turnsAbout_reverse,
      neg_add]

theorem windingAbout_congr (h : ∀ e ∈ es, turnsAbout δ p e = turnsAbout δ q e) :
    windingAbout δ p es = windingAbout δ q es :=
  congrArg List.sum (List.map_congr_left h)

theorem windingAbout_eq_zero (h : ∀ e ∈ es, turnsAbout δ p e = 0) : windingAbout δ p es = 0 := by
  rw [windingAbout, List.map_congr_left h]
  simp

open Classical in
/-- `edge_jump` along a chain. -/
theorem chain_jump (h : Joined u es v) (hp : ∀ e ∈ es, e.holds d.start = false)
    (hq : ∀ e ∈ es, e.holds d.finish = false) (hd : height δ d.start < height δ d.finish)
    {R : Point ℝ → ℤ} (hR : TellsRight d R) :
    windingAbout δ d.finish es - windingAbout δ d.start es +
      (es.map fun e => if d.Meets e then R e.start - R e.finish else 0).sum =
        beside δ d R u - beside δ d R v := by
  rw [← h.sum_sub (beside δ d R), windingAbout, windingAbout]
  clear h
  induction es with
  | nil => simp
  | cons e es ih =>
    have he := edge_jump (hp e List.mem_cons_self) (hq e List.mem_cons_self) hd hR
    have hes := ih (fun e h => hp e (List.mem_cons_of_mem _ h))
      (fun e h => hq e (List.mem_cons_of_mem _ h))
    simp only [List.map_cons, List.sum_cons]
    omega

theorem chain_jump_of_not_meets (h : Joined u es v) (hp : ∀ e ∈ es, e.holds d.start = false)
    (hq : ∀ e ∈ es, e.holds d.finish = false) (hd : height δ d.start < height δ d.finish)
    (hM : ∀ e ∈ es, ¬d.Meets e) {R : Point ℝ → ℤ} (hR : TellsRight d R) :
    windingAbout δ d.finish es - windingAbout δ d.start es = beside δ d R u - beside δ d R v := by
  classical
  have hjump := chain_jump h hp hq hd hR
  rwa [List.map_congr_left fun e he => if_neg (hM e he), List.map_const', List.sum_replicate,
    smul_zero, add_zero] at hjump

/-! ### Edges that pass a segment -/

namespace Edge

/-- Whether an edge meets a segment and leads from its left to elsewhere or from elsewhere to its
left. -/
def Passes (d e : Edge ℝ) : Prop :=
  d.Meets e ∧ ¬(d.turnTo e.start = .left ↔ d.turnTo e.finish = .left)

theorem turnTo_left_iff {d : Edge ℝ} {x : Point ℝ} : d.turnTo x = .left ↔ 0 < d.side x :=
  turnOf_left_iff

end Edge

/-- 0 on the left of an edge and 1 elsewhere. -/
noncomputable def notLeft (d : Edge ℝ) (x : Point ℝ) : ℤ := if 0 < d.side x then 0 else 1

theorem tellsRight_notLeft (d : Edge ℝ) : TellsRight d (notLeft d) := by
  intro x
  unfold notLeft
  constructor
  · intro h
    rw [if_neg h.not_gt]
  · intro h
    rw [if_pos h]

open Classical in
/-- The edges that pass a segment. -/
noncomputable def passing (d : Edge ℝ) (es : List (Edge ℝ)) : List (Edge ℝ) := es.filter d.Passes

theorem mem_passing : e ∈ passing d es ↔ e ∈ es ∧ d.Passes e := by
  simp [passing]

open Classical in
theorem even_pass (d e : Edge ℝ) :
    Even ((if d.Meets e then notLeft d e.start - notLeft d e.finish else 0) +
      (if d.Passes e then 1 else 0)) := by
  by_cases hM : d.Meets e
  · by_cases hs : 0 < d.side e.start <;> by_cases hf : 0 < d.side e.finish <;>
      simp [Edge.Passes, Edge.turnTo_left_iff, notLeft, hM, hs, hf]
  · simp [Edge.Passes, hM]

open Classical in
theorem even_sum_passing (d : Edge ℝ) (es : List (Edge ℝ)) :
    Even ((es.map fun e => if d.Meets e then notLeft d e.start - notLeft d e.finish else 0).sum +
      (passing d es).length) := by
  induction es with
  | nil => simp [passing]
  | cons e es ih =>
    have h := (even_pass d e).add ih
    rw [passing] at h ⊢
    rw [List.map_cons, List.sum_cons]
    by_cases hP : d.Passes e
    · rw [if_pos hP] at h
      rw [List.filter_cons_of_pos (by simpa using hP), List.length_cons, Nat.cast_add,
        Nat.cast_one, add_comm _ (1 : ℤ), add_add_add_comm]
      exact h
    · rw [if_neg hP, add_zero, ← add_assoc] at h
      rwa [List.filter_cons_of_neg (by simpa using hP)]

theorem tellsRight_reverse (d : Edge ℝ) : TellsRight d.reverse fun x => 1 - notLeft d x := by
  intro x
  rw [Edge.side_reverse]
  constructor
  · intro h
    dsimp only
    rw [notLeft, if_pos (by linarith), sub_zero]
  · intro h
    dsimp only
    rw [notLeft, if_neg (by linarith), sub_self]

/-- The winding numbers of the ends of a segment differ by the edges that pass it, up to an even
number. -/
theorem winding_parity (h : Joined u es u) (hp : ∀ e ∈ es, e.holds d.start = false)
    (hq : ∀ e ∈ es, e.holds d.finish = false) (hd : height δ d.start ≠ height δ d.finish) :
    Even (windingAbout δ d.start es + windingAbout δ d.finish es + (passing d es).length) := by
  classical
  obtain ⟨k, hk⟩ := even_sum_passing d es
  rcases lt_or_gt_of_ne hd with hlt | hgt
  · have hjump := chain_jump h hp hq hlt (tellsRight_notLeft d)
    rw [sub_self] at hjump
    exact ⟨windingAbout δ d.finish es + k, by omega⟩
  · have hjump := chain_jump h hq hp hgt (tellsRight_reverse d)
    have hsum : (es.map fun e => if d.reverse.Meets e then
        (1 - notLeft d e.start) - (1 - notLeft d e.finish) else 0).sum =
        -(es.map fun e => if d.Meets e then notLeft d e.start - notLeft d e.finish else 0).sum := by
      rw [List.sum_neg, List.map_map]
      refine congrArg List.sum (List.map_congr_left fun e _ => ?_)
      have hM : d.reverse.Meets e ↔ d.Meets e := by
        simp only [Edge.Meets, Edge.holds_reverse]
      rw [if_congr hM rfl rfl]
      simp only [Function.comp]
      split <;> omega
    rw [sub_self, hsum] at hjump
    change windingAbout δ d.start es - windingAbout δ d.finish es + _ = 0 at hjump
    exact ⟨windingAbout δ d.finish es + k, by omega⟩

end Geotrack
