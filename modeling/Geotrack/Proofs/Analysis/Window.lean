import Geotrack.Analysis.Stores
import Geotrack.Proofs.Time.Sorting

/-!
# Look-back windows

A window reaches back from the time of the stores. Its start bounds the observations that are
fetched from below, and nothing bounds them from above: `observationsOf_window` says when all of
them lie between the start and now.
-/

namespace Geotrack

namespace Window

variable (window : Window) (observations : List Observation)

/-- A window keeps the end of a list. -/
theorem newest_suffix : window.newest observations <:+ observations := by
  unfold newest
  split
  · exact List.drop_suffix _ _
  · exact List.suffix_refl _

variable {window} in
/-- A window that admits anything keeps the last observation. -/
theorem getLast?_newest (admits : window.limit ≠ some 0) :
    (window.newest observations).getLast? = observations.getLast? := by
  unfold newest
  split
  · rename_i limit hlimit
    have hpos : limit ≠ 0 := by
      rintro rfl
      exact admits hlimit
    rw [List.getLast?_drop]
    split
    · have : observations = [] := List.length_eq_zero_iff.mp (by omega)
      simp [this]
    · rfl
  · rfl

end Window

namespace Stores

variable (s : Stores) (subject : Uuid) (window : Window)

/-- The observations of a subject that a window does not start after, by time. -/
def recent : List Observation :=
  ((s.observations.filter (·.subject = subject)).filter fun o =>
    (window.start? s.now).all (· ≤ o.time)).mergeSort fun a b => a.time ≤ b.time

theorem observationsOf_eq :
    s.observationsOf subject window = window.newest (s.recent subject window) := by
  unfold observationsOf recent
  cases window.start? s.now <;> simp

variable {s subject window}

theorem mem_recent {o : Observation} : o ∈ s.recent subject window ↔
    o ∈ s.observations ∧ o.subject = subject ∧
      ∀ start, window.start? s.now = some start → start ≤ o.time := by
  simp only [recent, List.mem_mergeSort, List.mem_filter, decide_eq_true_eq, Option.all_eq_true,
    and_assoc]

theorem recent_ordered : (s.recent subject window).Pairwise fun a b => a.time ≤ b.time :=
  (sortedBy_mergeSort Observation.time _).ordered

/-- A window that admits anything admits an observation as late as any that it does not start
after. -/
theorem exists_observationsOf_ge (admits : window.limit ≠ some 0) {o : Observation}
    (ho : o ∈ s.recent subject window) :
    ∃ l ∈ s.observationsOf subject window, o.time ≤ l.time := by
  obtain ⟨front, l, h⟩ := List.eq_nil_or_concat (s.recent subject window) |>.resolve_left
    (List.ne_nil_of_mem ho)
  have hlast : (s.observationsOf subject window).getLast? = some l := by
    rw [observationsOf_eq, Window.getLast?_newest _ admits, h]
    simp
  refine ⟨l, List.mem_of_getLast? hlast, ?_⟩
  have ordered : (s.recent subject window).Pairwise fun a b => a.time ≤ b.time := recent_ordered
  rw [h, List.concat_eq_append] at ho ordered
  rcases List.mem_append.mp ho with hfront | hl
  · exact (List.pairwise_append.mp ordered).2.2 o hfront l (by simp)
  · obtain rfl : o = l := by simpa using hl
    exact Instant.le_refl _

/-- What is fetched in a window is the subject's and not before the window's start. It is not after
now only where the subject has not been observed after now at all. -/
theorem observationsOf_window (s : Stores) (subject : Uuid) (window : Window) (start : Instant)
    (begins : window.start? s.now = some start) (back : start ≤ s.now)
    (admits : window.limit ≠ some 0) :
    (∀ o ∈ s.observationsOf subject window,
      o ∈ s.observations ∧ o.subject = subject ∧ start ≤ o.time) ∧
    ((∀ o ∈ s.observationsOf subject window, o.time ≤ s.now) ↔
      ∀ o ∈ s.observations, o.subject = subject → o.time ≤ s.now) := by
  have kept : ∀ o ∈ s.observationsOf subject window, o ∈ s.recent subject window := by
    rw [observationsOf_eq]
    exact fun o ho => (window.newest_suffix _).subset ho
  refine ⟨?_, ?_, ?_⟩
  · intro o ho
    obtain ⟨hmem, hsubject, hstart⟩ := mem_recent.mp (kept o ho)
    exact ⟨hmem, hsubject, hstart start begins⟩
  · intro h o ho hsubject
    by_cases hle : o.time ≤ s.now
    · exact hle
    · -- what is after now is in the window, so that something after now is fetched
      have hrecent : o ∈ s.recent subject window := by
        refine mem_recent.mpr ⟨ho, hsubject, ?_⟩
        intro start' hstart'
        obtain rfl : start = start' := by simpa [begins] using hstart'
        exact Instant.le_trans back ((Instant.le_total _ _).resolve_left hle)
      obtain ⟨l, hl, hol⟩ := exists_observationsOf_ge admits hrecent
      exact Instant.le_trans hol (h l hl)
  · intro h o ho
    obtain ⟨hmem, hsubject, -⟩ := mem_recent.mp (kept o ho)
    exact h o hmem hsubject

/-! ### A position reported ahead of the clock -/

/-- A position at one hour after the epoch. -/
def reportedAhead : Observation := ⟨.nil, .ofNanos 3600000000000, -1.3, 36.8⟩

/-- Stores at the epoch. -/
def aheadOfClock : Stores := { now := .epoch, observations := [reportedAhead] }

def lastHour : Window := { hours := some 1 }

theorem lastHour_start : lastHour.start? .epoch = some (.ofNanos (-3600000000000)) := by
  decide +kernel

theorem observationsOf_window_lastHour :
    lastHour.start? aheadOfClock.now = some (.ofNanos (-3600000000000)) ∧
    Instant.ofNanos (-3600000000000) ≤ aheadOfClock.now ∧ lastHour.limit ≠ some 0 ∧
    (∀ o ∈ aheadOfClock.observationsOf .nil lastHour, o ∈ [reportedAhead] ∧ o.subject = .nil ∧
      Instant.ofNanos (-3600000000000) ≤ o.time) ∧
    ((∀ o ∈ aheadOfClock.observationsOf .nil lastHour, o.time ≤ aheadOfClock.now) ↔
      ∀ o ∈ [reportedAhead], o.subject = .nil → o.time ≤ aheadOfClock.now) :=
  ⟨lastHour_start, by decide, by decide,
    observationsOf_window aheadOfClock .nil lastHour _ lastHour_start (by decide) (by decide)⟩

/-- A window admits what is reported ahead of the clock. -/
theorem reportedAhead_admitted :
    ¬ ∀ (s : Stores) (subject : Uuid) (hours : Float) (limit : Option Nat) (start : Instant),
      0 ≤ hours → Window.start? { hours := some hours, limit } s.now = some start →
      ∀ o ∈ s.observationsOf subject { hours := some hours, limit },
        o.subject = subject ∧ start ≤ o.time ∧ o.time ≤ s.now := by
  intro h
  have hmem : reportedAhead ∈ aheadOfClock.observationsOf .nil lastHour := by
    rw [observationsOf_eq]
    change reportedAhead ∈ aheadOfClock.recent .nil lastHour
    refine mem_recent.mpr ⟨by simp [aheadOfClock], rfl, ?_⟩
    intro start hstart
    obtain rfl : Instant.ofNanos (-3600000000000) = start := by
      simpa [lastHour_start, aheadOfClock] using hstart
    decide
  have := h aheadOfClock .nil 1 none _ (by decide +kernel) lastHour_start _ hmem
  exact absurd this.2.2 (by decide)

end Stores

end Geotrack
