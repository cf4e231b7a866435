import Mathlib.Data.List.Nodup
import Geotrack.Analysis.Tracks
import Geotrack.Proofs.Track.Kept

/-!
# The order of observed rows

Rows of observations are sorted out by subject and by time. Where no two rows of a subject have one
time, what comes out does not depend on the order in which the rows came in:
`observedCrossings_perm`.
-/

namespace Geotrack

/-! ### Identifiers -/

namespace Uuid

theorem le_antisymm {a b : Uuid} (h : a.le b = true) (k : b.le a = true) : a = b := by
  cases a
  cases b
  have hbits := Nat.le_antisymm (of_decide_eq_true h) (of_decide_eq_true k)
  simpa using hbits

theorem le_trans {a b c : Uuid} (h : a.le b = true) (k : b.le c = true) : a.le c = true :=
  decide_eq_true (Nat.le_trans (of_decide_eq_true h) (of_decide_eq_true k))

theorem le_total (a b : Uuid) : (a.le b || b.le a) = true := by
  simpa [le] using Nat.le_total a.bits b.bits

/-- Identifiers come out in one order, however they came in. -/
theorem sorted_perm {ids others : List Uuid} (h : ids.Perm others) :
    sorted ids = sorted others := by
  have ordered (ids : List Uuid) : (ids.mergeSort le).Pairwise fun a b => a.le b = true :=
    @List.pairwise_mergeSort _ le (fun _ _ _ => le_trans) le_total ids
  have same : ids.mergeSort le = others.mergeSort le := by
    refine List.Perm.eq_of_pairwise (fun _ _ _ _ => le_antisymm) (ordered ids) (ordered others) ?_
    exact (ids.mergeSort_perm le).trans (h.trans (others.mergeSort_perm le).symm)
  rw [sorted, same, sorted]

end Uuid

/-! ### Fixes -/

section Fixes

variable {K : Type} {fixes others : List (Fix K)}

/-- Fixes at different times come out in one order, however they came in. -/
theorem sortByTime_perm (h : fixes.Perm others) (apart : (fixes.map (·.time)).Nodup) :
    sortByTime fixes = sortByTime others := by
  have sorted (fixes : List (Fix K)) : (sortByTime fixes).Perm fixes := List.mergeSort_perm _ _
  have perm : (sortByTime fixes).Perm (sortByTime others) :=
    (sorted fixes).trans (h.trans (sorted others).symm)
  refine perm.eq_of_pairwise ?_ (sortByTime_ordered fixes) (sortByTime_ordered others)
  intro a b ha hb hab hba
  have ha' : a ∈ fixes := (sorted fixes).mem_iff.mp ha
  have hb' : b ∈ fixes := ((sorted others).trans h.symm).mem_iff.mp hb
  exact List.inj_on_of_nodup_map apart ha' hb' (Instant.le_antisymm hab hba)

theorem Trajectory.buildFiltered_perm [Scalar K] (subject : Uuid) (filter : TrackFilter K)
    (h : fixes.Perm others) (apart : (fixes.map (·.time)).Nodup) :
    buildFiltered subject fixes filter = buildFiltered subject others filter := by
  simp only [buildFiltered, TrackFilter.apply, sortByTime_perm h apart]

end Fixes

/-! ### Rows -/

namespace Observation

variable {rows others : List Observation}

/-- Whether no two rows of a subject have one time. -/
def Distinct (rows : List Observation) : Prop :=
  rows.Pairwise fun a b => a.subject = b.subject → a.time ≠ b.time

instance : Decidable (Distinct rows) := inferInstanceAs (Decidable (rows.Pairwise _))

theorem subjects_perm (h : rows.Perm others) : subjects rows = subjects others :=
  Uuid.sorted_perm (h.map _)

theorem fixesOf_perm (h : rows.Perm others) (subject : Uuid) :
    (fixesOf rows subject).Perm (fixesOf others subject) :=
  (h.filter _).map _

/-- The fixes of one subject are at different times. -/
theorem Distinct.fixesOf (h : Distinct rows) (subject : Uuid) :
    ((Observation.fixesOf rows subject).map (·.time)).Nodup := by
  rw [Observation.fixesOf, List.map_map]
  refine List.pairwise_map.mpr ((List.Pairwise.filter _ h).imp_of_mem ?_)
  intro a b ha hb hab
  have ofSubject {c : Observation} (hc : c ∈ rows.filter (·.subject = subject)) :
      c.subject = subject :=
    of_decide_eq_true (List.mem_filter.mp hc).2
  exact hab ((ofSubject ha).trans (ofSubject hb).symm)

/-- The order of the rows makes no difference to the trajectories. -/
theorem trajectories_perm (filter : TrackFilter Float) (h : rows.Perm others)
    (distinct : Distinct rows) : trajectories filter rows = trajectories filter others := by
  rw [trajectories, trajectories, subjects_perm h]
  exact List.map_congr_left fun subject _ =>
    Trajectory.buildFiltered_perm subject filter (fixesOf_perm h subject) (distinct.fixesOf subject)

end Observation

/-- Rows in any order make the same crossings in the same order. -/
theorem observedCrossings_perm (fences : List (Fence Float)) (regions : List (Region Float))
    {rows others : List Observation} (h : rows.Perm others)
    (distinct : Observation.Distinct rows) :
    observedCrossings fences regions rows = observedCrossings fences regions others := by
  rw [observedCrossings, observedCrossings, Observation.trajectories_perm {} h distinct]

/-- A fence along a parallel. -/
def parallelFence : Fence Float := ⟨"fence", "Fence", [[⟨-1, 2⟩, ⟨1, 2⟩]], .warning⟩

/-- Two subjects that cross the parallel in opposite directions at the same time. -/
def oppositeRows : List Observation :=
  [⟨{ bits := 7 }, .epoch, 1, 0.5⟩, ⟨{ bits := 7 }, .ofNanos 3600000000000, 4, 0.25⟩,
    ⟨{ bits := 8 }, .epoch, 4, 0.5⟩, ⟨{ bits := 8 }, .ofNanos 3600000000000, 1, 0.25⟩]

theorem oppositeRows_crossings :
    (observedCrossings [parallelFence] [] oppositeRows).map (·.subject.bits) = [7, 8] := by
  have subjects : Observation.subjects oppositeRows = [{ bits := 7 }, { bits := 8 }] := by
    rw [Observation.subjects, Uuid.sorted, List.mergeSort_of_pairwise (by decide)]
    decide
  have legs (id : Uuid) (h : (Observation.fixesOf oppositeRows id).Pairwise
      fun a b => a.time ≤ b.time) :
      (Trajectory.buildFiltered id (Observation.fixesOf oppositeRows id) {}).legs =
        Leg.between (TrackFilter.keep {} none (Observation.fixesOf oppositeRows id)) := by
    rw [Trajectory.legs, TrackFilter.buildFiltered_fixes, TrackFilter.apply_of_ordered h]
  simp only [observedCrossings, crossings, Observation.trajectories, subjects, List.map_cons,
    List.map_nil, List.flatMap_cons, List.flatMap_nil, legs { bits := 7 } (by decide),
    legs { bits := 8 } (by decide)]
  decide +kernel

/-- The rows of two subjects from the last to the first. -/
theorem observedCrossings_perm_oppositeRows :
    oppositeRows.Perm oppositeRows.reverse ∧ Observation.Distinct oppositeRows ∧
    observedCrossings [parallelFence] [] oppositeRows =
      observedCrossings [parallelFence] [] oppositeRows.reverse ∧
    (observedCrossings [parallelFence] [] oppositeRows.reverse).map (·.subject.bits) = [7, 8] := by
  have perm : oppositeRows.Perm oppositeRows.reverse := oppositeRows.reverse_perm.symm
  have distinct : Observation.Distinct oppositeRows := by decide
  have same := observedCrossings_perm [parallelFence] [] perm distinct
  exact ⟨perm, distinct, same, same ▸ oppositeRows_crossings⟩

end Geotrack
