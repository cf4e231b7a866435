import Mathlib.Data.List.Basic
import Geotrack.Proofs.Track.Order

/-!
# What a filter keeps

A filter judges a fix by itself and by the leg from the one kept before it. So it drops nothing of
what it has kept, and nothing of the end of that: `apply_suffix`. But what it keeps of the end of a
track need not be the end of what it keeps of the track, and only where it is do the two have the
same last leg: `tail_legs_eq_iff`.
-/

namespace Geotrack

variable {K : Type}

namespace Leg

variable {fixes : List (Fix K)}

theorem between_eq_nil : between fixes = [] ↔ fixes.length < 2 := by
  rw [← List.length_eq_zero_iff, between_length]
  omega

theorem between_eq_singleton {leg : Leg K} :
    between fixes = [leg] ↔ fixes = [leg.start, leg.finish] := by
  constructor
  · intro h
    have hlength : fixes.length = 2 := by
      have := between_length fixes
      rw [h, List.length_singleton] at this
      omega
    obtain ⟨x, y, rfl⟩ := List.length_eq_two.mp hlength
    obtain rfl : (⟨x, y⟩ : Leg K) = leg := by simpa [between] using h
    rfl
  · rintro rfl
    rfl

end Leg

namespace Trajectory

variable {t : Trajectory K} {fixes : List (Fix K)}

theorem length_tail (n : Nat) : (t.tail n).fixes.length = min n t.fixes.length := by
  simp only [tail, List.length_drop]
  omega

theorem tail_fixes_of_suffix (h : fixes <:+ t.fixes) :
    (t.tail fixes.length).fixes = fixes :=
  (List.suffix_iff_eq_drop.mp h).symm

/-- The last two fixes make a leg just where there are two. -/
theorem tail_legs_eq_nil : (t.tail 2).legs = [] ↔ t.fixes.length < 2 := by
  rw [legs, Leg.between_eq_nil, length_tail]
  omega

theorem tail_legs_eq_singleton {leg : Leg K} :
    (t.tail 2).legs = [leg] ↔ [leg.start, leg.finish] <:+ t.fixes := by
  rw [legs, Leg.between_eq_singleton]
  constructor
  · intro h
    rw [← h]
    exact List.drop_suffix _ _
  · exact tail_fixes_of_suffix

theorem tail_legs_eq_or : t.fixes.length < 2 ∨ ∃ leg, (t.tail 2).legs = [leg] := by
  by_cases h : t.fixes.length < 2
  · exact .inl h
  · refine .inr (List.length_eq_one_iff.mp ?_)
    rw [legs, Leg.between_length, length_tail]
    omega

end Trajectory

namespace TrackFilter

variable [Scalar K] {filter : TrackFilter K} {last : Option (Fix K)} {fixes kept : List (Fix K)}

theorem admits_none {fix : Fix K} (h : filter.admits last fix = true) :
    filter.admits none fix = true := by
  simp only [admits, Option.all_none, Bool.and_true, Bool.and_eq_true] at h ⊢
  exact h.1

theorem keep_sublist : (filter.keep last fixes).Sublist fixes := by
  fun_induction keep filter last fixes with
  | case1 => exact .slnil
  | case2 last fix rest _ ih => exact ih.cons_cons fix
  | case3 last fix rest _ ih => exact ih.cons fix

/-- What is kept is kept again. -/
theorem keep_keep : filter.keep last (filter.keep last fixes) = filter.keep last fixes := by
  fun_induction keep filter last fixes with
  | case1 => rfl
  | case2 last fix rest admitted ih => rw [keep, if_pos admitted, ih]
  | case3 last fix rest _ ih => exact ih

/-- Of fixes that are all kept the first is admitted, and then the rest are all kept. -/
theorem keep_cons_eq_self {fix : Fix K} :
    filter.keep last (fix :: fixes) = fix :: fixes ↔
      filter.admits last fix = true ∧ filter.keep (some fix) fixes = fixes := by
  rw [keep]
  split
  case isTrue admitted => simp [admitted]
  case isFalse refused =>
    refine iff_of_false (fun h => ?_) fun h => refused h.1
    have hle : (filter.keep last fixes).length ≤ fixes.length := keep_sublist.length_le
    rw [h, List.length_cons] at hle
    omega

/-- Of fixes that are all kept those at the end are all kept by themselves. -/
theorem keep_of_suffix (whole : filter.keep last kept = kept) (h : fixes <:+ kept) :
    filter.keep none fixes = fixes := by
  induction kept generalizing last with
  | nil =>
    obtain rfl := List.suffix_nil.mp h
    rfl
  | cons fix rest ih =>
    obtain ⟨admitted, wholeRest⟩ := keep_cons_eq_self.mp whole
    rcases List.suffix_cons_iff.mp h with rfl | h
    · exact keep_cons_eq_self.mpr ⟨admits_none admitted, wholeRest⟩
    · exact ih wholeRest h

theorem apply_of_ordered (h : fixes.Pairwise fun a b => a.time ≤ b.time) :
    filter.apply fixes = filter.keep none fixes := by
  rw [apply, sortByTime_of_ordered h]

theorem apply_ordered : (filter.apply fixes).Pairwise fun a b => a.time ≤ b.time :=
  (sortByTime_ordered fixes).sublist keep_sublist

theorem apply_suffix (h : fixes <:+ filter.apply kept) : filter.apply fixes = fixes := by
  rw [apply_of_ordered (apply_ordered.sublist h.sublist)]
  exact keep_of_suffix keep_keep h

theorem buildFiltered_fixes (subject : Uuid) :
    (Trajectory.buildFiltered subject fixes filter).fixes = filter.apply fixes :=
  sortByTime_of_ordered apply_ordered

/-- The last leg that a filter leaves of the newest two fixes is the last leg that it leaves of all
just where it keeps those two of all, or leaves no leg of either. -/
theorem tail_legs_eq_iff (subject : Uuid) (newest : List (Fix K))
    (ordered : fixes.Pairwise fun a b => a.time ≤ b.time)
    (hnewest : newest = fixes.drop (fixes.length - 2)) :
    ((Trajectory.buildFiltered subject newest filter).tail 2).legs =
        ((Trajectory.buildFiltered subject fixes filter).tail 2).legs ↔
      newest <:+ filter.apply fixes ∨
        (filter.apply newest).length < 2 ∧ (filter.apply fixes).length < 2 := by
  have hlength : newest.length = min 2 fixes.length := by
    rw [hnewest, List.length_drop]
    omega
  have sub : (filter.apply newest).Sublist newest := by
    rw [apply_of_ordered (hnewest ▸ ordered.drop)]
    exact keep_sublist
  simp only [← buildFiltered_fixes (K := K) subject] at sub ⊢
  constructor
  · intro same
    rcases (Trajectory.buildFiltered subject newest filter).tail_legs_eq_or with few | ⟨leg, hleg⟩
    · rw [Trajectory.tail_legs_eq_nil.mpr few, eq_comm, Trajectory.tail_legs_eq_nil] at same
      exact .inr ⟨few, same⟩
    · -- a leg of the newest two goes from the one to the other
      have whole : [leg.start, leg.finish] = newest := by
        refine ((Trajectory.tail_legs_eq_singleton.mp hleg).sublist.trans sub).eq_of_length_le ?_
        simp only [List.length_cons, List.length_nil]
        omega
      exact .inl (whole ▸ Trajectory.tail_legs_eq_singleton.mp (same ▸ hleg))
  · rintro (h | ⟨few, fewer⟩)
    · by_cases few : fixes.length < 2
      · obtain rfl : newest = fixes := by
          rw [hnewest, Nat.sub_eq_zero_of_le (by omega), List.drop_zero]
        rfl
      · obtain ⟨x, y, rfl⟩ := List.length_eq_two.mp (hlength.trans (by omega))
        have last (t : Trajectory K) (ht : [x, y] <:+ t.fixes) : (t.tail 2).legs = [⟨x, y⟩] :=
          Trajectory.tail_legs_eq_singleton.mpr ht
        rw [last _ h, last]
        rw [buildFiltered_fixes] at h ⊢
        simp only [apply_suffix h, List.suffix_refl]
    · rw [Trajectory.tail_legs_eq_nil.mpr few, Trajectory.tail_legs_eq_nil.mpr fewer]

end TrackFilter

end Geotrack
