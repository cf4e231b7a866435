import Geotrack.Proofs.Analysis.Foreign
import Geotrack.Proofs.Analysis.Window
import Geotrack.Proofs.Track.Kept

/-!
# The newest two observations

Of a track proximity looks at the last leg only, and so fetches two observations only. The filter
comes after that: what it drops of the two is not replaced by older ones. `run_newest` says when
this makes no difference.
-/

namespace Geotrack

variable {σ : Type}

/-- Whether a responder reads observations from some stores and changes nothing by it. -/
def Responder.Reads (responder : Responder σ) (stores : Stores) (s : σ) : Prop :=
  ∀ subject window, responder.answer (.observations subject window) s =
    (.ok (stores.observationsOf subject window), s)

theorem Stores.responder_reads (sampler : Sampler) (s : Stores) :
    (Stores.responder sampler).Reads s s := fun _ _ => rfl

namespace Analyzer

variable {a : Analyzer} {filter : TrackFilter Float} {stores : Stores} {t u : Trajectory Float}

/-- The window of the search time, without a limit on the number of observations. -/
def searchWindow (a : Analyzer) : Window := Window.ofSearchHours a.config.searchHours

/-- What a run makes of a track. -/
def conclude (a : Analyzer) (t : Trajectory Float) : Analysis (List Outcome) :=
  a.findings t >>= (·.mapM a.settle)

theorem task_of_proximity (proximal : a.task.kind = .proximity) :
    ∃ settings features, a.task = .proximity settings features := by
  cases ht : a.task with
  | proximity settings features => exact ⟨settings, features, rfl⟩
  | geofence fences regions => simp [ht, Task.kind] at proximal
  | immobility settings => simp [ht, Task.kind] at proximal
  | environmental settings => simp [ht, Task.kind] at proximal

theorem defaultWindow_of_proximity (proximal : a.task.kind = .proximity) :
    a.defaultWindow = { a.searchWindow with limit := some 2 } := by
  obtain ⟨settings, features, task⟩ := task_of_proximity proximal
  simp only [defaultWindow, task, searchWindow]

theorem observationsOf_searchWindow (subject : Uuid) :
    stores.observationsOf subject a.searchWindow = stores.recent subject a.searchWindow :=
  stores.observationsOf_eq subject a.searchWindow

/-- By default the newest two are fetched of what the search time admits. -/
theorem observationsOf_defaultWindow (proximal : a.task.kind = .proximity) (subject : Uuid) :
    stores.observationsOf subject a.defaultWindow =
      (stores.recent subject a.searchWindow).drop
        ((stores.recent subject a.searchWindow).length - 2) := by
  rw [Stores.observationsOf_eq, defaultWindow_of_proximity proximal]
  rfl

theorem trajectory_of_own {os : List Observation} (own : ∀ o ∈ os, o.subject = a.subject.id) :
    a.trajectory os filter =
      Trajectory.buildFiltered a.subject.id (os.map Observation.fix) filter := by
  simp only [trajectory, List.filter_eq_self.mpr fun o ho => decide_eq_true (own o ho)]

theorem trajectory_fixes {os : List Observation} (own : ∀ o ∈ os, o.subject = a.subject.id)
    (ordered : os.Pairwise fun o p => o.time ≤ p.time) :
    (a.trajectory os filter).fixes = filter.keep none (os.map Observation.fix) := by
  rw [trajectory_of_own own, TrackFilter.buildFiltered_fixes,
    TrackFilter.apply_of_ordered (List.pairwise_map.mpr ordered)]

/-- The filter leaves the same last leg of the newest two observations and of all just where it
keeps the newest two of all, or leaves no leg of either. -/
theorem tail_legs_newest_iff {os : List Observation} (own : ∀ o ∈ os, o.subject = a.subject.id)
    (ordered : os.Pairwise fun o p => o.time ≤ p.time) :
    let newest := os.drop (os.length - 2)
    ((a.trajectory newest filter).tail 2).legs = ((a.trajectory os filter).tail 2).legs ↔
      newest.map Observation.fix <:+ (a.trajectory os filter).fixes ∨
        (a.trajectory newest filter).fixes.length < 2 ∧
          (a.trajectory os filter).fixes.length < 2 := by
  intro newest
  rw [trajectory_of_own own, trajectory_of_own fun o ho => own o (List.mem_of_mem_drop ho)]
  simp only [TrackFilter.buildFiltered_fixes]
  exact TrackFilter.tail_legs_eq_iff a.subject.id (newest.map Observation.fix)
    (List.pairwise_map.mpr ordered) (by rw [List.length_map, List.map_drop])

/-- Proximity looks at the last leg only. -/
theorem proximityFindings_of_tail_legs {subject : Subject} {analyzer : AnalyzerReference}
    {settings : ProximitySettings} {features : List (Feature Float)}
    (hsubject : t.subject = u.subject) (same : (t.tail 2).legs = (u.tail 2).legs) :
    proximityFindings subject analyzer settings features t =
      proximityFindings subject analyzer settings features u := by
  have near : approaches features [t.tail 2] = approaches features [u.tail 2] := by
    have hsubject' : (t.tail 2).subject = (u.tail 2).subject := hsubject
    simp only [approaches, List.flatMap_cons, same, hsubject']
  rcases t.tail_legs_eq_or with few | ⟨leg, hleg⟩
  · have none : approaches features [t.tail 2] = [] := by
      simp [approaches, Trajectory.tail_legs_eq_nil.mpr few]
    simp only [proximityFindings, ← near, none, List.filter_nil, List.map_nil]
  · have two (v : Trajectory Float) (hv : (v.tail 2).legs = [leg]) :
        (v.tail 2).fixes.length = 2 := by
      rw [Trajectory.legs, Leg.between_eq_singleton] at hv
      rw [hv]
      rfl
    simp only [proximityFindings, near, two t hleg, two u (same ▸ hleg)]

theorem conclude_of_tail_legs (proximal : a.task.kind = .proximity)
    (hsubject : t.subject = u.subject) (same : (t.tail 2).legs = (u.tail 2).legs) :
    a.conclude t = a.conclude u := by
  obtain ⟨settings, features, task⟩ := task_of_proximity proximal
  simp only [conclude, findings, task, proximityFindings_of_tail_legs hsubject same]

theorem conclude_tail (proximal : a.task.kind = .proximity) :
    a.conclude (t.tail 2) = a.conclude t := by
  refine conclude_of_tail_legs proximal rfl ?_
  have idem : ((t.tail 2).tail 2).fixes = (t.tail 2).fixes := by
    simp only [Trajectory.tail, List.length_drop, List.drop_drop]
    congr 1
    omega
  rw [Trajectory.legs, idem, Trajectory.legs]

/-- A run that is given no observations reads those of the default window. -/
theorem exec_run_of_empty {responder : Responder σ} {s : σ} (reads : responder.Reads stores s)
    {given : Option (List Observation)} (empty : given = none ∨ given = some []) :
    (a.run given filter).exec responder s =
      (a.conclude (a.trajectory (stores.observationsOf a.subject.id a.defaultWindow) filter)).exec
        responder s := by
  have read : (a.observations given).exec responder s =
      (.ok (stores.observationsOf a.subject.id a.defaultWindow), s) := by
    have hread := Analysis.exec_ask responder (.observations a.subject.id a.defaultWindow) s
    rw [reads] at hread
    rcases empty with rfl | rfl <;> exact hread
  exact Analysis.exec_bind_of_ok read

/-- A run that is given no observations looks at the last leg that the filter leaves of the newest
two in the search time, and a run that is given all of them at the last leg that it leaves of all.
These are the same leg just where the filter keeps the newest two of all, or leaves no leg of
either; and then both runs return and do the same. -/
theorem run_newest {responder : Responder σ} {s : σ} (a : Analyzer) (filter : TrackFilter Float)
    (stores : Stores) (proximal : a.task.kind = .proximity) (reads : responder.Reads stores s) :
    let seen := stores.observationsOf a.subject.id a.searchWindow
    let newest := seen.drop (seen.length - 2)
    let whole := a.trajectory seen filter
    let short := a.trajectory newest filter
    (a.run none filter).exec responder s = (a.conclude (short.tail 2)).exec responder s ∧
    (a.run seen filter).exec responder s = (a.conclude (whole.tail 2)).exec responder s ∧
    ((short.tail 2).legs = (whole.tail 2).legs ↔
      newest.map Observation.fix <:+ whole.fixes ∨
        short.fixes.length < 2 ∧ whole.fixes.length < 2) ∧
    ((short.tail 2).legs = (whole.tail 2).legs →
      (a.run none filter).exec responder s = (a.run seen filter).exec responder s) := by
  intro seen newest whole short
  have hseen : seen = stores.recent a.subject.id a.searchWindow :=
    observationsOf_searchWindow a.subject.id
  have hnewest : stores.observationsOf a.subject.id a.defaultWindow = newest := by
    rw [observationsOf_defaultWindow proximal, ← hseen]
  have unasked : (a.run none filter).exec responder s = (a.conclude short).exec responder s := by
    rw [exec_run_of_empty reads (.inl rfl), hnewest]
  have given : (a.run seen filter).exec responder s = (a.conclude whole).exec responder s := by
    by_cases empty : seen = []
    · have all : newest = seen := by rw [show newest = seen.drop _ from rfl, empty, List.drop_nil]
      rw [exec_run_of_empty reads (.inr (congrArg some empty)), hnewest, all]
    · exact congrArg (·.exec responder s) (run_of_given empty)
  refine ⟨?_, ?_, ?_, fun same => ?_⟩
  · rw [unasked, conclude_tail proximal]
  · rw [given, conclude_tail proximal]
  · refine tail_legs_newest_iff (fun o ho => ?_) (hseen ▸ Stores.recent_ordered)
    rw [hseen] at ho
    exact (Stores.mem_recent.mp ho).2.1
  · rw [unasked, given, conclude_of_tail_legs (t := short) (u := whole) proximal rfl same]

/-! ### Positions without a lock -/

def roads : ProximitySettings := { group := "roads" }

/-- A road from south to north. -/
def road : Feature Float := ⟨"road", "Road", .path [⟨36.5, -2⟩, ⟨36.5, 0⟩]⟩

/-- Watches how near one subject comes to the road. -/
def roadWatch : Analyzer where
  subject := { id := .nil, name := "Tembo" }
  config := { id := .nil, name := "roads", settings := .proximity roads }
  task := .proximity roads [road]
  active := Eq.refl true
  kind_eq := rfl

def atHour (hour : Int) (longitude latitude : Float) : Observation :=
  ⟨.nil, .ofNanos (hour * 3600000000000), latitude, longitude⟩

/-- A walk across the road. -/
def across : List Observation := [atHour 1 36 (-1), atHour 2 37 (-1)]

/-- The walk after a position without a lock. -/
def lostBefore : List Observation := atHour 0 0 0 :: across

/-- The walk before a position without a lock. -/
def lostAfter : List Observation := across ++ [atHour 3 0 0]

/-- Stores after three hours. -/
def reported (os : List Observation) : Stores :=
  { now := .ofNanos (3 * 3600000000000), observations := os }

theorem reported_seen {os : List Observation} (ordered : os.Pairwise fun o p => o.time ≤ p.time)
    (recent : ((os.filter (·.subject = roadWatch.subject.id)).filter fun o =>
      (roadWatch.searchWindow.start? (reported os).now).all (· ≤ o.time)) = os) :
    (reported os).observationsOf roadWatch.subject.id roadWatch.searchWindow = os := by
  rw [observationsOf_searchWindow, Stores.recent]
  change List.mergeSort ((os.filter _).filter _) _ = os
  rw [recent]
  exact List.mergeSort_of_pairwise (ordered.imp fun h => decide_eq_true h)

theorem run_newest_lostBefore :
    let s := reported lostBefore
    roadWatch.task.kind = .proximity ∧ (Stores.responder noValues).Reads s s ∧
      (roadWatch.run none {}).exec (Stores.responder noValues) s =
        (roadWatch.run (s.observationsOf .nil roadWatch.searchWindow) {}).exec
          (Stores.responder noValues) s := by
  intro s
  have seen : s.observationsOf roadWatch.subject.id roadWatch.searchWindow = lostBefore :=
    reported_seen (by decide) (by decide +kernel)
  have reads := Stores.responder_reads noValues s
  obtain ⟨-, -, hlegs, hruns⟩ := run_newest roadWatch {} s rfl reads
  refine ⟨rfl, reads, hruns (hlegs.mpr (.inl ?_))⟩
  rw [seen, trajectory_fixes (by decide) (by decide)]
  exact ⟨[], by decide +kernel⟩

/-- Where the newest position is one without a lock, a run that is given no observations misses the
crossing of the road that a run that is given all of them finds. -/
theorem lostAfter_hides :
    ¬ ∀ (a : Analyzer) (sampler : Sampler) (s : Stores) (filter : TrackFilter Float),
      a.task.kind = .proximity → s.observationsOf a.subject.id a.searchWindow ≠ [] →
      (a.run none filter).exec (Stores.responder sampler) s =
        (a.run (s.observationsOf a.subject.id a.searchWindow) filter).exec
          (Stores.responder sampler) s := by
  intro h
  let s := reported lostAfter
  have seen : s.observationsOf roadWatch.subject.id roadWatch.searchWindow = lostAfter :=
    reported_seen (by decide) (by decide +kernel)
  have newest : s.observationsOf roadWatch.subject.id roadWatch.defaultWindow =
      lostAfter.drop 1 := by
    rw [observationsOf_defaultWindow rfl, ← observationsOf_searchWindow, seen]
    rfl
  have same := h roadWatch noValues s {} rfl (by rw [seen]; decide)
  rw [exec_run_of_empty (Stores.responder_reads noValues s) (.inl rfl), newest, seen,
    run_of_given (by decide), ← conclude] at same
  -- the filter leaves one fix of the newest two, and the walk of all three
  let stop : Trajectory Float := .build .nil [(atHour 2 37 (-1)).fix]
  let walk : Trajectory Float := ⟨.nil, across.map Observation.fix, by decide⟩
  have left (os : List Observation) (track : Trajectory Float) (hsubject : track.subject = .nil)
      (hfixes : (roadWatch.trajectory os {}).fixes = track.fixes) :
      roadWatch.conclude (roadWatch.trajectory os {}) = roadWatch.conclude track :=
    conclude_of_tail_legs rfl hsubject.symm (by
      simp only [Trajectory.legs, Trajectory.tail, hfixes])
  have stopped := left (lostAfter.drop 1) stop rfl (by
    rw [trajectory_fixes (by decide) (by decide)]
    decide +kernel)
  have walked := left lostAfter walk rfl (by
    rw [trajectory_fixes (by decide) (by decide)]
    decide +kernel)
  rw [stopped, walked] at same
  have hidden :
      ((roadWatch.conclude stop).exec (Stores.responder noValues) s).2.events.length = 0 := by
    decide +kernel
  have told :
      ((roadWatch.conclude walk).exec (Stores.responder noValues) s).2.events.length = 1 := by
    decide +kernel
  rw [same, told] at hidden
  cases hidden

end Analyzer

end Geotrack
