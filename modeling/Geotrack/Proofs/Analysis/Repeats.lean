import Geotrack.Proofs.Analysis.Fences
import Geotrack.Proofs.Analysis.Parts
import Geotrack.Proofs.Analysis.Retry

/-!
# Breaks of fences are told once

A run over fences asks before it publishes whether an event that tells the same was published. So
whatever runs there have been, and whichever of their calls have failed, no two breaks of a fence
tell the same: `breaks_unrepeated`.
-/

namespace Geotrack

/-- Whether no two breaks of a fence among some events tell the same. -/
def Event.Unrepeated (events : List Event) : Prop :=
  events.Pairwise fun d e => e.kind = .geofenceBreak → d.same e = false

theorem Event.unrepeated_concat {events : List Event} {e : Event} (h : Unrepeated events)
    (fresh : e.kind = .geofenceBreak → events.any (·.same e) = false) :
    Unrepeated (events ++ [e]) := by
  refine List.pairwise_append.mpr ⟨h, List.pairwise_singleton _ _, fun d hd e' he' broken => ?_⟩
  obtain rfl := List.mem_singleton.mp he'
  have unknown := List.any_eq_false.mp (fresh broken) d hd
  simpa using unknown

namespace Analyzer

variable {a : Analyzer} {s t : Stores} {f : Finding} {e : Event}

/-- Whoever tells of a break of a fence asks whether it is known. -/
theorem skips_of_break {last : Option Finding} (h : a.event? last f = some e)
    (broken : e.kind = .geofenceBreak) : a.skipsKnownEvents = true := by
  obtain ⟨kind, hkind, rfl⟩ := Option.map_eq_some_iff.mp h
  obtain rfl : kind = .geofenceBreak := broken
  unfold eventKind? at hkind
  cases ht : a.task with
  | geofence fences regions => simp [skipsKnownEvents, ← a.kind_eq, ht, Task.kind]
  | immobility settings => cases ha : f.level.alerting <;> simp [ht, ha] at hkind
  | proximity settings features => simp [ht] at hkind
  | environmental settings => cases ha : f.level.alerting <;> simp [ht, ha] at hkind

/-- A break of a fence that is published was not known. -/
theorem unknown_of_published (h : a.published? s f = some e) (broken : e.kind = .geofenceBreak) :
    s.knows e = false := by
  obtain ⟨called, passed⟩ := Option.filter_eq_some_iff.mp h
  simpa [skips_of_break called broken] using passed

/-- Settling a finding repeats no break of a fence. -/
theorem unrepeated_posted (h : Event.Unrepeated s.events) :
    Event.Unrepeated (a.posted s f).events := by
  rw [posted_events]
  cases hp : a.published? s f with
  | none => simpa using h
  | some e => exact Event.unrepeated_concat h (unknown_of_published hp)

theorem unrepeated_foldl_posted (h : Event.Unrepeated s.events) (fs : List Finding) :
    Event.Unrepeated (fs.foldl a.posted s).events := by
  induction fs generalizing s with
  | nil => exact h
  | cons f fs ih => exact ih (unrepeated_posted h)

section Faults

variable {τ : Type} {policy : FaultPolicy τ} {sampler : Sampler} {m n : τ}

/-- A call that changes no store changes none where it may fail. -/
theorem ask_stores {α : Type} {call : Call α} (still : ∀ s, (Stores.answer sampler call s).2 = s) :
    Analysis.Moves (shaky policy sampler) (fun w v => v.1 = w.1) (.ask call) := by
  rintro ⟨s, m⟩
  simp only [Analysis.exec_ask, Responder.faulty]
  rcases policy.fault call m with ⟨_ | e, n⟩
  · exact still s
  · rfl

/-- Before any finding is settled nothing is changed, whichever call fails. -/
theorem prepare_stores {given : Option (List Observation)} {filter : TrackFilter Float}
    {r : Except AnalysisError (List Finding)}
    (h : (a.prepare given filter).exec (shaky policy sampler) (s, m) = (r, (t, n))) : t = s := by
  have composes : Analysis.Composes fun x =>
      Analysis.Moves (shaky policy sampler) (fun w v => v.1 = w.1) x :=
    .moves (fun _ => rfl) fun _ _ _ first second => second.trans first
  have moved := prepare_of a composes given filter (fun _ _ => rfl)
    (fun _ => ask_stores fun _ => rfl) (fun _ _ => ask_stores fun _ => rfl) (s, m)
  rw [h] at moved
  exact moved

/-- A run publishes what settling some findings publishes, whichever calls fail. -/
theorem run_events {given : Option (List Observation)} {filter : TrackFilter Float}
    {r : Except AnalysisError (List Outcome)}
    (h : (a.run given filter).exec (shaky policy sampler) (s, m) = (r, (t, n))) :
    ∃ taken : List Finding, t.events = (taken.foldl a.posted s).events := by
  rw [run_eq, Analysis.exec_bind] at h
  rcases hprepare : (a.prepare given filter).exec (shaky policy sampler) (s, m) with ⟨r', u, k⟩
  obtain rfl := prepare_stores hprepare
  rw [hprepare] at h
  cases r' with
  | error e => cases h; exact ⟨[], rfl⟩
  | ok fs =>
    rcases settleAll_cases h with
      ⟨_, -, same⟩ | ⟨before, f, after, e, s₁, -, same, -, failed⟩
    · exact ⟨fs, (Stores.unpaused_eq_iff.mp same).2.2.2⟩
    · refine ⟨before, ?_⟩
      rw [← (Stores.unpaused_eq_iff.mp same).2.2.2]
      -- the finding at which the run failed is on record at most
      cases failed <;> simp

/-- A run repeats no break of a fence, whichever of its calls fail. -/
theorem unrepeated_run {given : Option (List Observation)} {filter : TrackFilter Float}
    (h : Event.Unrepeated s.events) :
    Event.Unrepeated
      ((a.run given filter).exec (shaky policy sampler) (s, m)).2.1.events := by
  rcases hrun : (a.run given filter).exec (shaky policy sampler) (s, m) with ⟨r, t, n⟩
  obtain ⟨taken, htaken⟩ := run_events hrun
  change Event.Unrepeated t.events
  rw [htaken]
  exact unrepeated_foldl_posted h taken

end Faults

/-! ### Runs in sequence -/

/-- Stores to which runs of any analyzers have led, one after the other, from a sink without events.
Any call of a run may have failed. In between anything but the events may change. -/
inductive Reached : Stores → Prop
  | start {s : Stores} (empty : s.events = []) : Reached s
  | change {s t : Stores} (reached : Reached s) (same : t.events = s.events) : Reached t
  | run {s : Stores} {τ : Type} (reached : Reached s) (policy : FaultPolicy τ) (m : τ)
    (sampler : Sampler) (a : Analyzer) (given : Option (List Observation))
    (filter : TrackFilter Float) :
    Reached ((a.run given filter).exec (shaky policy sampler) (s, m)).2.1

theorem Reached.unrepeated (h : Reached s) : Event.Unrepeated s.events := by
  induction h with
  | start empty => rw [empty]; exact .nil
  | change reached same ih => rw [same]; exact ih
  | run reached policy m sampler a given filter ih => exact unrepeated_run ih

/-- However runs of analyzers follow one another, and whichever of their calls fail, no two breaks
of a fence are published with one time, one location and the same subjects. -/
theorem breaks_unrepeated {s : Stores} (reached : Reached s) :
    s.events.Pairwise fun d e => d.kind = .geofenceBreak → e.kind = .geofenceBreak →
      ¬ (d.time = e.time ∧ d.sameLocation e = true ∧ d.subjects = e.subjects) := by
  refine reached.unrepeated.imp fun {d e} apart hd he => ?_
  rintro ⟨time, location, subjects⟩
  have told : d.same e = false := apart he
  simp [Event.same, hd, he, time, location, subjects] at told

/-! ### A walk that is analyzed three times -/

/-- Each run over the walk tells of the common edge unless it is known. -/
theorem walk_told (s : Stores) : ∃ outcomes t,
    (parkWatch.run walk {}).exec (Stores.responder noValues) s = (.ok outcomes, t) ∧
      t.events = [edgeEvent westFence, edgeEvent eastFence].foldl (Event.addNew true) s.events := by
  obtain ⟨outcomes, t, ht, same⟩ := @run_ok parkWatch s noValues _ walk {} rfl
  refine ⟨outcomes, t, ht, ?_⟩
  rw [(Stores.unpaused_eq_iff.mp same).2.2.2, foldl_posted_events (event?_steady (.inl rfl))]
  change ((geofenceFindings _ _ _ [] (parkWatch.trajectory walk {})).filterMap _).foldl _ _ = _
  rw [geofenceFindings, walk_crossings _ (by simp), walk_fixes]
  rfl

/-- The stores that a run of another analyzer leaves when its event is refused. -/
def refusedStores : Stores :=
  ((footprintWatch.run sighting {}).exec (shaky (.refusing offline) highValues)
    ({ now := .epoch }, 0)).2.1

theorem refusedStores_events : refusedStores.events = [] := by
  rw [← List.length_eq_zero_iff]
  decide +kernel

/-- A refused run of another analyzer, then two runs over the same walk. -/
theorem breaks_unrepeated_parkWatch : ∃ s : Stores, Reached s ∧
    s.events = [edgeEvent westFence] ∧
    s.events.Pairwise fun d e => d.kind = .geofenceBreak → e.kind = .geofenceBreak →
      ¬ (d.time = e.time ∧ d.sameLocation e = true ∧ d.subjects = e.subjects) := by
  have reached : Reached refusedStores := .run (.start rfl) _ _ _ _ _ _
  have again (s : Stores) (h : Reached s) : ∃ t, Reached t ∧
      t.events = [edgeEvent westFence, edgeEvent eastFence].foldl (Event.addNew true) s.events := by
    obtain ⟨outcomes, t, ht, told⟩ := walk_told s
    have hcalm := Analysis.exec_calm (Stores.responder noValues) (parkWatch.run walk {}) s
    rw [ht] at hcalm
    have hrun := h.run FaultPolicy.calm () noValues parkWatch walk {}
    rw [hcalm] at hrun
    exact ⟨t, hrun, told⟩
  obtain ⟨once, hreached, honce⟩ := again refusedStores reached
  obtain ⟨twice, htwice, told⟩ := again once hreached
  refine ⟨twice, htwice, ?_, breaks_unrepeated htwice⟩
  rw [told, honce, refusedStores_events]
  simp [Event.addNew, edgeEvent_same]

end Analyzer

end Geotrack
