import Geotrack.Proofs.Time.Sorting
import Geotrack.Proofs.Track.Kept
import Mathlib.Data.List.Induction
import Mathlib.Order.Bounds.Basic

/-!
# Filtered tracks within the limits

A filter goes over the fixes in order of time and judges each by the last one kept before it.
`Keeps` says so of the positions that it keeps, one position after the other (`Keeps.concat`). The
trajectory of what it keeps moves nothing, so that its legs are those that the filter has judged:
`apply_within_limits`.
-/

namespace Geotrack

variable {K : Type}

/-- A list holds fixes in order of time, those of one time as they were. -/
structure SortedByTime (fixes sorted : List (Fix K)) : Prop where
  perm : sorted.Perm fixes
  ordered : sorted.Pairwise fun a b => a.time ≤ b.time
  stable : ∀ t : Instant, sorted.filter (·.time = t) = fixes.filter (·.time = t)

theorem sortedByTime_sortByTime (fixes : List (Fix K)) : SortedByTime fixes (sortByTime fixes) :=
  have sorted := sortedBy_mergeSort Fix.time fixes
  ⟨sorted.perm, sorted.ordered, sorted.stable⟩

namespace TrackFilter

variable [Scalar K] {filter : TrackFilter K} {fixes : List (Fix K)} {kept : List Nat} {i : Nat}
  {fix : Fix K}

/-- Whether a leg breaks a limit: it is too fast or too short. -/
def Breaks (filter : TrackFilter K) (leg : Leg K) : Prop :=
  (∃ limit, filter.maxSpeed = some limit ∧ Scalar.lt limit leg.speed = true) ∨
    ∃ limit, filter.minLength = some limit ∧ Scalar.lt leg.lengthMeters limit = true

theorem admitsLeg_iff {leg : Leg K} : filter.admitsLeg leg = true ↔ ¬ filter.Breaks leg := by
  cases hmax : filter.maxSpeed <;> cases hmin : filter.minLength <;>
    simp [admitsLeg, Breaks, hmax, hmin]

/-- Whether a fix at a position is left out: it is junk, or the leg to it from the last fix that is
kept before it breaks a limit. -/
def LeavesOut (filter : TrackFilter K) (fixes : List (Fix K)) (kept : List Nat) (i : Nat)
    (fix : Fix K) : Prop :=
  (filter.dropJunk = true ∧ fix.point.isJunk = true) ∨
    ∃ j last, IsGreatest {j | j ∈ kept ∧ j < i} j ∧ fixes[j]? = some last ∧
      filter.Breaks ⟨last, fix⟩

/-- The positions of fixes that a filter keeps. -/
structure Keeps (filter : TrackFilter K) (fixes : List (Fix K)) (kept : List Nat) : Prop where
  increasing : kept.Pairwise (· < ·)
  lt_length : ∀ i ∈ kept, i < fixes.length
  notMem_iff : ∀ i fix, fixes[i]? = some fix → (i ∉ kept ↔ filter.LeavesOut fixes kept i fix)

/-- The last fix is judged by the last one kept of those before it. -/
theorem keep_concat {last : Option (Fix K)} :
    filter.keep last (fixes ++ [fix]) = filter.keep last fixes ++
      if filter.admits ((filter.keep last fixes).getLast?.or last) fix then [fix] else [] := by
  fun_induction keep filter last fixes with
  | case1 last => by_cases admitted : filter.admits last fix <;> simp [keep, admitted]
  | case2 last first rest admitted ih =>
    rw [List.cons_append, keep, if_pos admitted, ih, List.cons_append]
    simp [List.getLast?_cons, Option.or_of_isSome]
  | case3 last first rest refused ih => rw [List.cons_append, keep, if_neg refused, ih]

/-- The last position that a filter keeps. -/
theorem Keeps.isGreatest_iff (h : filter.Keeps fixes kept) {j : Nat} :
    IsGreatest {j | j ∈ kept ∧ j < fixes.length} j ↔ kept.getLast? = some j := by
  rcases List.eq_nil_or_concat kept with rfl | ⟨before, l, rfl⟩
  · simp [IsGreatest]
  · rw [List.concat_eq_append] at h ⊢
    have greatest : IsGreatest {j | j ∈ before ++ [l] ∧ j < fixes.length} l := by
      refine ⟨⟨by simp, h.lt_length l (by simp)⟩, fun j hj => ?_⟩
      rcases List.mem_append.mp hj.1 with hj | hj
      · exact Nat.le_of_lt ((List.pairwise_append.mp h.increasing).2.2 j hj l (by simp))
      · exact Nat.le_of_eq (List.mem_singleton.mp hj)
    rw [List.getLast?_concat, Option.some.injEq]
    exact ⟨fun hj => greatest.unique hj, fun hj => hj ▸ greatest⟩

theorem Keeps.admits_iff (h : filter.Keeps fixes kept) :
    filter.admits (kept.getLast?.bind (fixes[·]?)) fix = true ↔
      ¬ filter.LeavesOut fixes kept fixes.length fix := by
  simp only [LeavesOut, h.isGreatest_iff, admits, Bool.and_eq_true, Option.all_eq_true,
    admitsLeg_iff, not_or]
  refine and_congr (by cases filter.dropJunk <;> simp) ?_
  simp only [Option.bind_eq_some_iff, forall_exists_index, and_imp, not_exists, not_and]
  exact ⟨fun h j last hj hlast => h last j hj hlast, fun h last j hj hlast => h j last hj hlast⟩

/-- What comes later has no part in whether a fix is left out. -/
theorem leavesOut_append {more : List (Fix K)} {others : List Nat} (hi : i ≤ fixes.length)
    (later : ∀ j ∈ others, i ≤ j) :
    filter.LeavesOut (fixes ++ more) (kept ++ others) i fix ↔
      filter.LeavesOut fixes kept i fix := by
  have before : {j | j ∈ kept ++ others ∧ j < i} = {j | j ∈ kept ∧ j < i} := by
    ext j
    simp only [Set.mem_ofPred_eq, List.mem_append]
    refine and_congr_left fun hj => or_iff_left fun hmem => ?_
    exact absurd (later j hmem) (Nat.not_le.mpr hj)
  simp only [LeavesOut, before]
  refine or_congr_right
    (exists_congr fun j => exists_congr fun last => and_congr_right fun hj => ?_)
  rw [List.getElem?_append_left (Nat.lt_of_lt_of_le hj.1.2 hi)]

/-- One more fix is kept or left out without a change to what is kept of those before it. -/
theorem Keeps.concat (h : filter.Keeps fixes kept) {new : List Nat}
    (hnew : new =
      if filter.admits (kept.getLast?.bind (fixes[·]?)) fix then [fixes.length] else []) :
    filter.Keeps (fixes ++ [fix]) (kept ++ new) := by
  have later : ∀ j ∈ new, j = fixes.length := by
    intro j hj
    rw [hnew] at hj
    split at hj
    · exact List.mem_singleton.mp hj
    · cases hj
  refine ⟨?_, ?_, fun i f hi => ?_⟩
  · refine List.pairwise_append.mpr ⟨h.increasing, ?_, fun i hi j hj => ?_⟩
    · rw [hnew]
      split <;> simp
    · exact later j hj ▸ h.lt_length i hi
  · intro i hi
    rw [List.length_append, List.length_singleton]
    rcases List.mem_append.mp hi with hi | hi
    · exact Nat.lt_succ_of_lt (h.lt_length i hi)
    · exact later i hi ▸ Nat.lt_succ_self _
  · rcases Nat.lt_or_ge i fixes.length with hlt | hge
    · rw [List.getElem?_append_left hlt] at hi
      rw [leavesOut_append hlt.le fun j hj => (later j hj).ge.trans' hlt.le, ← h.notMem_iff i f hi,
        List.mem_append, not_or]
      exact and_iff_left fun hmem => hlt.ne (later i hmem)
    · -- the new fix itself, which none of the kept positions is that of
      obtain ⟨hi', rfl⟩ := List.getElem?_eq_some_iff.mp hi
      obtain rfl : i = fixes.length := by
        rw [List.length_append, List.length_singleton] at hi'
        omega
      have fresh : fixes.length ∉ kept := fun hmem => absurd (h.lt_length _ hmem) (Nat.lt_irrefl _)
      have self : (fixes ++ [fix])[fixes.length] = fix := by simp
      rw [self, leavesOut_append le_rfl fun j hj => (later j hj).ge, List.mem_append, not_or,
        and_iff_right fresh, ← not_not (a := filter.LeavesOut fixes kept fixes.length fix),
        ← h.admits_iff, hnew]
      split <;> simp_all

/-- What a filter keeps are the fixes at the positions that it keeps. -/
theorem exists_keeps (filter : TrackFilter K) (fixes : List (Fix K)) :
    ∃ kept, filter.Keeps fixes kept ∧ filter.keep none fixes = kept.filterMap (fixes[·]?) := by
  induction fixes using List.reverseRecOn with
  | nil => exact ⟨[], ⟨.nil, by simp, by simp⟩, rfl⟩
  | append_singleton fixes fix ih =>
    obtain ⟨kept, h, hkeep⟩ := ih
    refine ⟨_, h.concat rfl, ?_⟩
    have old : kept.filterMap ((fixes ++ [fix])[·]?) = kept.filterMap (fixes[·]?) :=
      List.filterMap_congr fun i hi => List.getElem?_append_left (h.lt_length i hi)
    have last : (filter.keep none fixes).getLast?.or none = kept.getLast?.bind (fixes[·]?) := by
      rw [hkeep, Option.or_none]
      rcases List.eq_nil_or_concat kept with rfl | ⟨before, l, rfl⟩
      · rfl
      · have hl := h.lt_length l (by simp)
        simp [hl]
    rw [keep_concat, last, List.filterMap_append, old, hkeep]
    split <;> simp

/-- The legs between fixes that are all kept are within the limits, and what they touch is kept by
itself. -/
theorem admits_of_mem_between {last : Option (Fix K)} (whole : filter.keep last fixes = fixes) :
    ∀ leg ∈ Leg.between fixes,
      filter.admits none leg.start = true ∧ filter.admits (some leg.start) leg.finish = true := by
  induction fixes generalizing last with
  | nil => simp [Leg.between]
  | cons a rest ih =>
    obtain ⟨admitted, wholeRest⟩ := keep_cons_eq_self.mp whole
    cases rest with
    | nil => simp [Leg.between]
    | cons b rest =>
      refine List.forall_mem_cons.mpr ⟨⟨admits_none admitted, ?_⟩, ih wholeRest⟩
      exact (keep_cons_eq_self.mp wholeRest).1

theorem admits_none_iff :
    filter.admits none fix = true ↔ (filter.dropJunk = true → fix.point.isJunk = false) := by
  cases hdrop : filter.dropJunk <;> simp [admits, hdrop]

theorem admits_some_iff {last : Fix K} :
    filter.admits (some last) fix = true ↔
      filter.admits none fix = true ∧ ¬ filter.Breaks ⟨last, fix⟩ := by
  simp [admits, admitsLeg_iff]

/-- A filter keeps some of the fixes in order of time: it leaves out the junk that it is to drop and
what the last fix kept before leads to by a leg that breaks a limit, and nothing else. The legs of
the filtered trajectory are within the limits and touch no junk that is to be dropped, and what is
filtered stays so. -/
theorem apply_within_limits (filter : TrackFilter K) (fixes : List (Fix K)) (subject : Uuid) :
    SortedByTime fixes (sortByTime fixes) ∧
    (filter.apply fixes).Sublist (sortByTime fixes) ∧
    (∃ kept, filter.Keeps (sortByTime fixes) kept ∧
      filter.apply fixes = kept.filterMap ((sortByTime fixes)[·]?)) ∧
    (∀ leg ∈ (Trajectory.buildFiltered subject fixes filter).legs, ¬ filter.Breaks leg ∧
      (filter.dropJunk = true → ∀ p ∈ [leg.start.point, leg.finish.point],
        p.isValid = true ∧ p.isNullIsland = false)) ∧
    filter.apply (filter.apply fixes) = filter.apply fixes := by
  refine ⟨sortedByTime_sortByTime fixes, keep_sublist, exists_keeps filter _, ?_,
    apply_suffix (List.suffix_refl _)⟩
  intro leg hleg
  rw [Trajectory.legs, buildFiltered_fixes] at hleg
  obtain ⟨start, finish⟩ := admits_of_mem_between (@keep_keep K _ filter none _) leg hleg
  obtain ⟨finish, within⟩ := admits_some_iff.mp finish
  refine ⟨within, fun drop p hp => ?_⟩
  have sound : p.isJunk = false := by
    rcases List.mem_pair.mp hp with rfl | rfl
    · exact admits_none_iff.mp start drop
    · exact admits_none_iff.mp finish drop
  simpa [Point.isJunk] using sound

/-- Two fixes with one between them that was sent without a lock. -/
def lockLost : List (Fix Float) :=
  [⟨⟨36, -1⟩, .ofNanos 0⟩, ⟨⟨0, 0⟩, .ofNanos 60000000000⟩, ⟨⟨37, -1⟩, .ofNanos 120000000000⟩]

theorem keep_lockLost : ({} : TrackFilter Float).keep none lockLost =
    [⟨⟨36, -1⟩, .ofNanos 0⟩, ⟨⟨37, -1⟩, .ofNanos 120000000000⟩] := by decide +kernel

theorem apply_within_limits_lockLost :
    ∃ leg ∈ (Trajectory.buildFiltered .nil lockLost {}).legs,
      ¬ ({} : TrackFilter Float).Breaks leg ∧ ∀ p ∈ [leg.start.point, leg.finish.point],
        p.isValid = true ∧ p.isNullIsland = false := by
  have ordered : lockLost.Pairwise fun a b => a.time ≤ b.time := by decide +kernel
  obtain ⟨-, -, -, legs, -⟩ := apply_within_limits {} lockLost .nil
  have hleg : (⟨⟨⟨36, -1⟩, .ofNanos 0⟩, ⟨⟨37, -1⟩, .ofNanos 120000000000⟩⟩ : Leg Float) ∈
      (Trajectory.buildFiltered .nil lockLost {}).legs := by
    rw [Trajectory.legs, buildFiltered_fixes, apply_of_ordered ordered, keep_lockLost]
    exact List.mem_cons_self
  exact ⟨_, hleg, (legs _ hleg).1, (legs _ hleg).2 rfl⟩

end TrackFilter

end Geotrack
