import Geotrack.Proofs.Track.Limits

/-!
# Built trajectories and their tails

A trajectory is built of fixes in any order. It holds them by time, those of one time as they were
given, and a leg from each to the next. Between the last fixes are the last legs, so that a tail is
what is built of its fixes, and a tail of a tail is one of the whole: `build_tail`.
-/

namespace Geotrack

variable {K : Type}

namespace Leg

variable {fixes : List (Fix K)}

/-- Whether legs lead through fixes, the first from the first to the second and so on. -/
structure Through (legs : List (Leg K)) (fixes : List (Fix K)) : Prop where
  length : legs.length = fixes.length - 1
  ends : ∀ (i : Nat) (leg : Leg K),
    legs[i]? = some leg ↔ fixes[i]? = some leg.start ∧ fixes[i + 1]? = some leg.finish

theorem getElem?_between (i : Nat) (leg : Leg K) :
    (between fixes)[i]? = some leg ↔
      fixes[i]? = some leg.start ∧ fixes[i + 1]? = some leg.finish := by
  fun_induction between fixes generalizing i with
  | case1 a b rest ih =>
    cases i with
    | zero =>
      simp only [List.getElem?_cons_zero, List.getElem?_cons_succ, Option.some.injEq]
      constructor
      · rintro rfl
        exact ⟨rfl, rfl⟩
      · rintro ⟨rfl, rfl⟩
        rfl
    | succ i => simpa only [List.getElem?_cons_succ] using ih i
  | case2 fixes short =>
    -- fewer than two fixes have no second one
    rcases fixes with _ | ⟨a, _ | ⟨b, rest⟩⟩
    · simp
    · simp
    · exact absurd rfl (short a b rest)

theorem through_between (fixes : List (Fix K)) : Through (between fixes) fixes :=
  ⟨between_length fixes, getElem?_between⟩

/-- The legs between the last fixes are the last legs. -/
theorem between_drop (fixes : List (Fix K)) (n : Nat) :
    between (fixes.drop n) = (between fixes).drop n := by
  induction n generalizing fixes with
  | zero => rfl
  | succ n ih =>
    match fixes with
    | [] | [_] => simp [between]
    | a :: b :: rest => exact ih (b :: rest)

end Leg

namespace Trajectory

variable {t u : Trajectory K} {n : Nat}

theorem eq_of_fixes (subject : t.subject = u.subject) (fixes : t.fixes = u.fixes) : t = u := by
  cases t
  cases u
  simp_all

/-- What is in order already is built as it is. -/
theorem build_fixes (t : Trajectory K) : build t.subject t.fixes = t :=
  eq_of_fixes rfl (sortByTime_of_ordered t.ordered)

theorem tail_of_le (h : t.fixes.length ≤ n) : t.tail n = t := by
  have suffix : (t.tail n).fixes <:+ t.fixes := List.drop_suffix _ _
  exact eq_of_fixes rfl (suffix.eq_of_length (by rw [length_tail, Nat.min_eq_right h]))

theorem tail_tail (t : Trajectory K) (m n : Nat) : (t.tail n).tail m = t.tail (min m n) := by
  refine eq_of_fixes rfl ?_
  simp only [tail, List.length_drop, List.drop_drop]
  congr 1
  omega

variable [Scalar K]

/-- Whether a trajectory is the end of another: it has the last `n` fixes and the legs between them,
which are as long, as fast and in the same direction. -/
structure IsTail (n : Nat) (t u : Trajectory K) : Prop where
  subject : u.subject = t.subject
  fixes : u.fixes <:+ t.fixes
  fixCount : u.fixes.length = min n t.fixes.length
  legs : u.legs <:+ t.legs
  legCount : u.legs.length = min n t.fixes.length - 1
  lengths : u.legs.map Leg.lengthMeters <:+ t.legs.map Leg.lengthMeters
  speeds : u.legs.map Leg.speed <:+ t.legs.map Leg.speed
  headings : u.legs.map Leg.heading <:+ t.legs.map Leg.heading

theorem isTail_tail (t : Trajectory K) (n : Nat) : IsTail n t (t.tail n) := by
  have legs : (t.tail n).legs <:+ t.legs := by
    rw [Trajectory.legs, tail, Leg.between_drop]
    exact List.drop_suffix _ _
  exact {
    subject := rfl
    fixes := List.drop_suffix _ _
    fixCount := length_tail n
    legs
    legCount := by rw [Trajectory.legs, Leg.between_length, length_tail]
    lengths := legs.map _
    speeds := legs.map _
    headings := legs.map _ }

/-- What is built of fixes holds all of them by time, with a leg from each to the next. Its tail
holds the last of them and the last legs, all that there are where it is as long, and is itself
what is built of its fixes. -/
theorem build_tail (subject : Uuid) (fixes : List (Fix K)) (m n : Nat) :
    (build subject fixes).subject = subject ∧
    SortedByTime fixes (build subject fixes).fixes ∧
    Leg.Through (build subject fixes).legs (build subject fixes).fixes ∧
    (build subject fixes).legs.length = fixes.length - 1 ∧
    IsTail n (build subject fixes) ((build subject fixes).tail n) ∧
    build subject ((build subject fixes).tail n).fixes = (build subject fixes).tail n ∧
    (fixes.length ≤ n → (build subject fixes).tail n = build subject fixes) ∧
    ((build subject fixes).tail n).tail m = (build subject fixes).tail (min m n) := by
  have sorted := sortedByTime_sortByTime fixes
  have count : (build subject fixes).fixes.length = fixes.length := sorted.perm.length_eq
  refine ⟨rfl, sorted, Leg.through_between _, ?_, isTail_tail _ n,
    build_fixes ((build subject fixes).tail n), fun h => ?_, tail_tail _ m n⟩
  · rw [Trajectory.legs, Leg.between_length, count]
  · exact tail_of_le (count ▸ h)

/-- The fixes of one time stay in the order that they are given in. -/
example : ((build .nil [⟨⟨3, 0⟩, .ofNanos 1⟩, ⟨⟨1, 0⟩, .ofNanos 0⟩, ⟨⟨2, 0⟩, .ofNanos 1⟩] :
    Trajectory Float).tail 2).legs = [⟨⟨⟨3, 0⟩, .ofNanos 1⟩, ⟨⟨2, 0⟩, .ofNanos 1⟩⟩] := by cbv

end Trajectory

end Geotrack
