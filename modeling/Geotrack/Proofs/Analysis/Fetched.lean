import Geotrack.Proofs.Analysis.LookBack
import Geotrack.Proofs.Time.Sorting

/-!
# What is fetched of a subject

Of all that has been observed of a subject, sorted by time, a window fetches some of the end. How
the observations came in does not matter to that, as long as those of the subject came in the same
order, and a wider window fetches more in front: `observationsOf_newest`.
-/

namespace Geotrack

namespace Window

variable {w wider : Window} {now : Instant} {o : Observation} {os : List Observation}

/-- Whether a window that ends now does not start after an observation. -/
def admits (w : Window) (now : Instant) (o : Observation) : Bool :=
  (w.start? now).all (· ≤ o.time)

/-- One window lies within another. It reaches back some hours, no more than the other, and has no
more room. -/
structure Within (w wider : Window) : Prop where
  hours : ∀ h, wider.hours = some h → ∃ g, w.hours = some g ∧ 0 ≤ g ∧ 0 ≤ h ∧ g ≤ h
  limit : ∀ m, wider.limit = some m → ∃ n, w.limit = some n ∧ n ≤ m

theorem admits_later {p : Observation} (h : o.time ≤ p.time) (admitted : w.admits now o = true) :
    w.admits now p = true := by
  simp only [admits, Option.all_eq_true, decide_eq_true_eq] at admitted ⊢
  exact fun start begins => Instant.le_trans (admitted start begins) h

/-- What a window admits a wider one admits too. -/
theorem Within.admits (within : w.Within wider) (dated : now.inRange = true)
    (admitted : w.admits now o = true) : wider.admits now o = true := by
  simp only [Window.admits, Option.all_eq_true, decide_eq_true_eq] at admitted ⊢
  intro start begins
  obtain ⟨hours, limit⟩ := wider
  cases hours with
  | none => cases begins
  | some h =>
    obtain ⟨g, hg, g0, h0, hgh⟩ := within.hours h rfl
    obtain ⟨own, room⟩ := w
    obtain rfl : own = some g := hg
    obtain ⟨later, hlater, hle⟩ := start?_anti dated g0 h0 hgh begins
    exact Instant.le_trans hle (admitted later hlater)

theorem length_newest (w : Window) (os : List Observation) :
    (w.newest os).length = w.limit.elim os.length (min · os.length) := by
  unfold newest
  cases w.limit with
  | none => rfl
  | some limit =>
    simp only [List.length_drop, Option.elim_some]
    omega

theorem Within.length_le (within : w.Within wider) {more : List Observation}
    (h : os.length ≤ more.length) : (w.newest os).length ≤ (wider.newest more).length := by
  rw [length_newest, length_newest]
  cases hlimit : wider.limit with
  | none =>
    cases w.limit with
    | none => exact h
    | some n => exact (Nat.min_le_right _ _).trans h
  | some m =>
    obtain ⟨n, hn, hnm⟩ := within.limit m hlimit
    rw [hn]
    simp only [Option.elim_some]
    omega

end Window

namespace Stores

variable (s : Stores) (batches : List (List Observation)) (subject : Uuid)

/-- All that has been observed of a subject, by time. -/
def observed : List Observation :=
  (s.observations.filter (·.subject = subject)).mergeSort fun a b => a.time ≤ b.time

theorem sortedBy_observed :
    SortedBy Observation.time (s.observations.filter (·.subject = subject)) (s.observed subject) :=
  sortedBy_mergeSort _ _

/-- To choose what a window admits before or after sorting is the same. -/
theorem recent_eq (window : Window) :
    s.recent subject window = (s.observed subject).filter (window.admits s.now) :=
  SortedBy.unique (sortedBy_mergeSort Observation.time _)
    ((s.sortedBy_observed subject).filter (window.admits s.now))

theorem recent_suffix (window : Window) : s.recent subject window <:+ s.observed subject := by
  rw [recent_eq]
  exact filter_suffix (s.sortedBy_observed subject).ordered fun _ _ => Window.admits_later

theorem observationsOf_suffix (window : Window) :
    s.observationsOf subject window <:+ s.observed subject := by
  rw [observationsOf_eq]
  exact (window.newest_suffix _).trans (s.recent_suffix subject window)

variable {s subject} in
theorem observationsOf_congr {t : Stores} (now : s.now = t.now)
    (own : s.observations.filter (·.subject = subject) =
      t.observations.filter (·.subject = subject))
    (window : Window) : s.observationsOf subject window = t.observationsOf subject window := by
  simp only [observationsOf, now, own]

variable {s subject} in
/-- A wider window fetches more, in front of what the other fetches. -/
theorem observationsOf_within {window wider : Window} (dated : s.now.inRange = true)
    (within : window.Within wider) :
    s.observationsOf subject window <:+ s.observationsOf subject wider := by
  refine List.suffix_of_suffix_length_le (s.observationsOf_suffix subject window)
    (s.observationsOf_suffix subject wider) ?_
  rw [observationsOf_eq, observationsOf_eq]
  refine within.length_le ?_
  rw [recent_eq, recent_eq]
  exact (List.monotone_filter_right _ fun o => within.admits dated).length_le

@[simp] theorem extend_observations (news : List Observation) :
    (s.extend news).observations = s.observations ++ news := rfl

@[simp] theorem extend_now (news : List Observation) : (s.extend news).now = s.now := rfl

theorem foldl_extend : (batches.foldl extend s).now = s.now ∧
    (batches.foldl extend s).observations = s.observations ++ batches.flatten := by
  induction batches generalizing s with
  | nil => simp
  | cons news batches ih => simp [ih]

/-- A window fetches the last of what it does not start after, as many as it has room for, and so
the end of all that has been observed of the subject, by time. It starts as many milliseconds before
now as its hours reach back, where that is a date. It is the same however the observations of the
subject come in, if they come in the same order, and more in front for a wider window. -/
theorem observationsOf_newest (s : Stores) (batches : List (List Observation)) (subject : Uuid) :
    let filled := batches.foldl extend s
    let own := (s.observations ++ batches.flatten).filter (·.subject = subject)
    ∃ sorted, SortedBy Observation.time own sorted ∧
      (∀ window : Window,
        let recent := sorted.filter (window.admits s.now)
        let fetched := filled.observationsOf subject window
        SortedBy Observation.time (own.filter (window.admits s.now)) recent ∧
        fetched <:+ recent ∧
        fetched.length = window.limit.elim recent.length (min · recent.length) ∧
        fetched <:+ sorted) ∧
      (∀ (window : Window) (start : Instant), window.start? s.now = some start ↔
        ∃ hours, window.hours = some hours ∧
          -2 ^ 63 < Binary64.truncateInt64 (hours * 3600000) ∧
          start = s.now.shift (-(Binary64.truncateInt64 (hours * 3600000) * 1000000)) ∧
          start.inRange = true) ∧
      (∀ others : List (List Observation),
        others.flatten.filter (·.subject = subject) =
          batches.flatten.filter (·.subject = subject) →
        ∀ window, (others.foldl extend s).observationsOf subject window =
          filled.observationsOf subject window) ∧
      (s.now.inRange = true → ∀ window wider : Window, window.Within wider →
        filled.observationsOf subject window <:+ filled.observationsOf subject wider) := by
  intro filled own
  obtain ⟨hnow, hobservations⟩ := foldl_extend s batches
  have hsorted := sortedBy_observed filled subject
  rw [hobservations] at hsorted
  refine ⟨filled.observed subject, hsorted, fun window => ⟨hsorted.filter _, ?_, ?_, ?_⟩,
    fun window start => Window.start?_eq_some_iff, ?_, ?_⟩
  · rw [observationsOf_eq, recent_eq, hnow]
    exact window.newest_suffix _
  · rw [observationsOf_eq, recent_eq, hnow]
    exact window.length_newest _
  · exact filled.observationsOf_suffix subject window
  · intro others same
    obtain ⟨hnow', hobservations'⟩ := foldl_extend s others
    refine observationsOf_congr (hnow'.trans hnow.symm) ?_
    rw [hobservations, hobservations', List.filter_append, List.filter_append, same]
  · intro dated window wider within
    exact observationsOf_within (hnow ▸ dated) within

/-! ### Positions that come in late -/

/-- A position of the subject at some hours from the epoch. -/
def positionAt (hours : ℤ) (latitude : Float) : Observation :=
  ⟨.nil, .ofNanos (hours * 3600000000000), latitude, 36.8⟩

/-- A position of another subject. -/
def otherPosition : Observation := { positionAt 0 (-1.4) with subject := { bits := 5 } }

/-- The last two positions of the last six hours. -/
def lastTwo : Window := { hours := some 6, limit := some 2 }

def lastOne : Window := { hours := some 1, limit := some 1 }

theorem lastOne_within : lastOne.Within lastTwo where
  hours := by
    rintro _ ⟨⟩
    exact ⟨1, rfl, by decide +kernel, by decide +kernel, by decide +kernel⟩
  limit := by
    rintro _ ⟨⟩
    exact ⟨1, rfl, by decide⟩

/-- The oldest position comes in last, the other two are of one time, and the position of another
subject comes in between them or before. The last hour has the two and leaves out the oldest. -/
theorem observationsOf_newest_positions :
    let s : Stores := { now := .epoch }
    let filled := [[positionAt 0 (-1.3), otherPosition, positionAt 0 (-1.2)],
      [positionAt (-5) (-1.1)]].foldl extend s
    let others := [[otherPosition], [positionAt 0 (-1.3)],
      [positionAt 0 (-1.2), positionAt (-5) (-1.1)]]
    (∀ window, (others.foldl extend s).observationsOf .nil window =
      filled.observationsOf .nil window) ∧
    s.now.inRange = true ∧ lastOne.Within lastTwo ∧
    filled.observationsOf .nil lastOne <:+ filled.observationsOf .nil lastTwo ∧
    lastHour.start? s.now = some (.ofNanos (-3600000000000)) ∧
    (filled.observationsOf .nil lastHour).Perm [positionAt 0 (-1.3), positionAt 0 (-1.2)] := by
  intro s filled others
  obtain ⟨sorted, -, told, starts, regrouped, wider⟩ := observationsOf_newest s
    [[positionAt 0 (-1.3), otherPosition, positionAt 0 (-1.2)], [positionAt (-5) (-1.1)]] .nil
  have dated : s.now.inRange = true := by decide
  have begins : lastHour.start? s.now = some (.ofNanos (-3600000000000)) :=
    (starts lastHour _).mpr ⟨1, rfl, by decide +kernel, by decide +kernel, by decide +kernel⟩
  obtain ⟨recent, newest, length, -⟩ := told lastHour
  refine ⟨regrouped others (by rfl), dated, lastOne_within, wider dated _ _ lastOne_within, begins,
    ?_⟩
  have admitted : lastHour.admits s.now = fun o => decide (.ofNanos (-3600000000000) ≤ o.time) := by
    funext o
    simp only [Window.admits, begins, Option.all_some]
  have own : [positionAt 0 (-1.3), positionAt 0 (-1.2), positionAt (-5) (-1.1)].filter
      (lastHour.admits s.now) = [positionAt 0 (-1.3), positionAt 0 (-1.2)] := by
    rw [admitted]
    rfl
  rw [newest.eq_of_length length, ← own]
  exact recent.perm

end Stores

end Geotrack
