import Geotrack.Track.Trajectory

/-!
# Fixes in order of time

What is sorted stays as it is, and along sorted fixes no leg ends before it starts.
-/

namespace Geotrack

variable {K : Type} {fixes : List (Fix K)}

theorem sortByTime_of_ordered (h : fixes.Pairwise fun a b => a.time ≤ b.time) :
    sortByTime fixes = fixes :=
  List.mergeSort_of_pairwise (h.imp fun hab => decide_eq_true hab)

/-- Fixes in order, all of which a filter keeps, are a trajectory as they are. -/
theorem Trajectory.fixes_of_kept [Scalar K] {filter : TrackFilter K} (subject : Uuid)
    (ordered : fixes.Pairwise fun a b => a.time ≤ b.time) (kept : filter.keep none fixes = fixes) :
    (buildFiltered subject fixes filter).fixes = fixes := by
  change sortByTime (filter.keep none (sortByTime fixes)) = fixes
  rw [sortByTime_of_ordered ordered, kept, sortByTime_of_ordered ordered]

namespace Leg

theorem start_le_finish (h : fixes.Pairwise fun a b => a.time ≤ b.time) :
    ∀ leg ∈ between fixes, leg.start.time ≤ leg.finish.time := by
  fun_induction between fixes with
  | case1 a b rest ih =>
    obtain ⟨ha, h⟩ := List.pairwise_cons.mp h
    exact List.forall_mem_cons.mpr ⟨ha b List.mem_cons_self, ih h⟩
  | case2 fixes _ => simp

theorem ends_mem : ∀ leg ∈ between fixes, leg.start ∈ fixes ∧ leg.finish ∈ fixes := by
  fun_induction between fixes with
  | case1 a b rest ih =>
    refine List.forall_mem_cons.mpr ⟨⟨List.mem_cons_self, by simp⟩, fun leg hleg => ?_⟩
    exact (ih leg hleg).imp (List.mem_cons_of_mem a) (List.mem_cons_of_mem a)
  | case2 fixes _ => simp

/-- The trajectory of a leg alone. -/
def alone (leg : Leg K) (subject : Uuid) : Trajectory K := .build subject [leg.start, leg.finish]

theorem alone_legs {leg : Leg K} (h : leg.start.time ≤ leg.finish.time) (subject : Uuid) :
    (leg.alone subject).legs = [leg] := by
  have ordered : [leg.start, leg.finish].Pairwise fun a b => a.time ≤ b.time := by simpa using h
  exact congrArg between (sortByTime_of_ordered ordered)

end Leg

end Geotrack
