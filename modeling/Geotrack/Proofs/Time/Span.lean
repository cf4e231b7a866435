import Geotrack.Time.Instant

/-!
# How long after

Whether an instant is a span of time after another is told by the end of the span: `AtLeast` and
`Within`. Outside leap seconds the difference of the instants tells the same.
-/

namespace Geotrack.Instant

theorem toNanos_ofNanos (n : Int) : (ofNanos n).toNanos = n := by
  simp only [toNanos, ofNanos, nanosPerSecond]
  omega

theorem ofNanos_regular (n : Int) : (ofNanos n).nano < 1000000000 := by
  simp only [ofNanos, nanosPerSecond]
  omega

/-- Outside leap seconds instants are ordered as their counts of nanoseconds. -/
theorem le_iff_toNanos {a b : Instant} (ha : a.nano < 1000000000) (hb : b.nano < 1000000000) :
    a ≤ b ↔ a.toNanos ≤ b.toNanos := by
  simp only [le_def, toNanos, nanosPerSecond]
  omega

/-- A span is over when the difference is as long as the span. -/
theorem plus?_le_iff {a b finish : Instant} {n : Int} (ha : a.nano < 1000000000)
    (hb : b.nano < 1000000000) (h : a.plus? n = some finish) : finish ≤ b ↔ n ≤ b.since a := by
  have regular : ¬ a.inLeapSecond = true := by simpa [inLeapSecond] using ha
  have hfinish : finish = ofNanos (a.toNanos + n) := by
    simp only [plus?, shift, if_neg regular] at h
    split at h
    · exact (Option.some.inj h).symm
    · cases h
  rw [hfinish, le_iff_toNanos (ofNanos_regular _) hb, toNanos_ofNanos, since_of_regular hb ha]
  omega

/-- The second instant is no less than so many nanoseconds after the first. -/
structure AtLeast (n : Int) (a b : Instant) : Prop where
  ended : ∃ finish, a.plus? n = some finish ∧ finish ≤ b
  since : a.nano < 1000000000 → b.nano < 1000000000 → n ≤ b.since a

/-- The second instant is not before the first and less than so many nanoseconds after it. -/
structure Within (n : Int) (a b : Instant) : Prop where
  after : a ≤ b
  lasts : ∃ finish, a.plus? n = some finish ∧ b < finish
  since : a.nano < 1000000000 → b.nano < 1000000000 → b.since a < n

variable {a b finish : Instant} {n : Int}

theorem atLeast_of_le (h : a.plus? n = some finish) (ended : finish ≤ b) : AtLeast n a b where
  ended := ⟨finish, h, ended⟩
  since ha hb := (plus?_le_iff ha hb h).mp ended

theorem within_of_lt (after : a ≤ b) (h : a.plus? n = some finish) (lasts : b < finish) :
    Within n a b where
  after := after
  lasts := ⟨finish, h, lasts⟩
  since ha hb := by
    have : ¬ n ≤ b.since a := fun le => not_lt.mpr ((plus?_le_iff ha hb h).mpr le) lasts
    omega

end Geotrack.Instant
