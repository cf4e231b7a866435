import Mathlib.Data.List.Infix
import Geotrack.Time.Instant

/-!
# Sorting by time

What is sorted by time keeps the order of what is of one time, and so is the only list of its kind:
`SortedBy.unique`. To leave something out before or after sorting is the same, and what is left of a
sorted list from some time on is its end.
-/

namespace Geotrack

variable {α : Type} {time : α → Instant} {l m sorted : List α} {p : α → Bool}

/-- A list holds the elements of another in order of time, those of one time as they were. -/
structure SortedBy (time : α → Instant) (l sorted : List α) : Prop where
  perm : sorted.Perm l
  ordered : sorted.Pairwise fun a b => time a ≤ time b
  stable : ∀ t : Instant, sorted.filter (time · = t) = l.filter (time · = t)

theorem sortedBy_mergeSort (time : α → Instant) (l : List α) :
    SortedBy time l (l.mergeSort fun a b => time a ≤ time b) := by
  have trans (a b c : α) : decide (time a ≤ time b) → decide (time b ≤ time c) →
      decide (time a ≤ time c) := by
    simpa using Instant.le_trans
  have total (a b : α) : decide (time a ≤ time b) || decide (time b ≤ time a) := by
    simpa using Instant.le_total (time a) (time b)
  have perm := List.mergeSort_perm l fun a b => decide (time a ≤ time b)
  refine ⟨perm, by simpa using List.pairwise_mergeSort trans total l, fun t => ?_⟩
  -- what is of one time is in order already, so that sorting keeps it as it is
  have same : (l.filter (time · = t)).Pairwise fun a b => decide (time a ≤ time b) = true := by
    refine List.pairwise_of_forall_mem_list fun a ha b hb => ?_
    simp only [List.mem_filter, decide_eq_true_eq] at ha hb ⊢
    rw [ha.2, hb.2]
    exact Instant.le_refl t
  have sub := (List.sublist_mergeSort trans total same List.filter_sublist).filter (time · = t)
  simp only [List.filter_filter, Bool.and_self] at sub
  exact (sub.eq_of_length (perm.filter _).length_eq.symm).symm

theorem mem_iff_of_filter_eq
    (same : ∀ t : Instant, l.filter (time · = t) = m.filter (time · = t)) (a : α) :
    a ∈ l ↔ a ∈ m := by
  have := congrArg (a ∈ ·) (same (time a))
  simpa using this

/-- Lists in order of time that hold the same at each time are the same. -/
theorem eq_of_ordered (hl : l.Pairwise fun a b => time a ≤ time b)
    (hm : m.Pairwise fun a b => time a ≤ time b)
    (same : ∀ t : Instant, l.filter (time · = t) = m.filter (time · = t)) : l = m := by
  induction l generalizing m with
  | nil =>
    refine (List.eq_nil_iff_forall_not_mem.mpr fun a ha => ?_).symm
    exact List.not_mem_nil ((mem_iff_of_filter_eq same a).mpr ha)
  | cons a l ih =>
    have mem_iff := mem_iff_of_filter_eq same
    cases m with
    | nil => exact absurd ((mem_iff a).mp List.mem_cons_self) List.not_mem_nil
    | cons b m =>
      have first {a b : α} {l : List α} (h : (a :: l).Pairwise fun a b => time a ≤ time b)
          (hb : b ∈ a :: l) : time a ≤ time b := by
        rcases List.mem_cons.mp hb with rfl | hb
        · exact Instant.le_refl _
        · exact (List.pairwise_cons.mp h).1 b hb
      -- neither of the first two is before the other
      have htime : time a = time b :=
        Instant.le_antisymm (first hl ((mem_iff b).mpr List.mem_cons_self))
          (first hm ((mem_iff a).mp List.mem_cons_self))
      have heads := same (time a)
      rw [List.filter_cons_of_pos (by simp), List.filter_cons_of_pos (by simp [htime])] at heads
      obtain rfl : a = b := (List.cons.inj heads).1
      have tails (t : Instant) : l.filter (time · = t) = m.filter (time · = t) := by
        have := same t
        by_cases ht : time a = t
        · rw [List.filter_cons_of_pos (by simpa), List.filter_cons_of_pos (by simpa)] at this
          exact (List.cons.inj this).2
        · rwa [List.filter_cons_of_neg (by simpa), List.filter_cons_of_neg (by simpa)] at this
      rw [ih hl.of_cons hm.of_cons tails]

namespace SortedBy

theorem unique (hl : SortedBy time l sorted) (hm : SortedBy time l m) : sorted = m :=
  eq_of_ordered hl.ordered hm.ordered fun t => (hl.stable t).trans (hm.stable t).symm

/-- What is left of a sorted list is what is left of the other, sorted. -/
theorem filter (h : SortedBy time l sorted) (p : α → Bool) :
    SortedBy time (l.filter p) (sorted.filter p) := by
  refine ⟨h.perm.filter p, h.ordered.filter p, fun t => ?_⟩
  rw [List.filter_comm, h.stable, List.filter_comm]

end SortedBy

/-- What an ordered list holds from some time on is its end. -/
theorem filter_suffix (ordered : l.Pairwise fun a b => time a ≤ time b)
    (later : ∀ a b, time a ≤ time b → p a = true → p b = true) : l.filter p <:+ l := by
  induction l with
  | nil => exact List.suffix_refl _
  | cons a l ih =>
    obtain ⟨ha, ordered⟩ := List.pairwise_cons.mp ordered
    cases hp : p a with
    | true =>
      rw [List.filter_eq_self.mpr]
      exact List.forall_mem_cons.mpr ⟨hp, fun b hb => later a b (ha b hb) hp⟩
    | false =>
      rw [List.filter_cons_of_neg (by simp [hp])]
      exact (ih ordered).trans (List.suffix_cons a l)

end Geotrack
