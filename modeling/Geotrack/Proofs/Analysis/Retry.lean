import Geotrack.Proofs.Analysis.Fences

/-!
# Retrying a run whose event was refused

When an event is refused its finding is on record already. `retry_events` says what a retry makes up
for: every event, unless the finding on record has made the refused one no news.
-/

namespace Geotrack

/-- The policy that lets some publications pass and refuses the next one. -/
def FaultPolicy.refusing (error : StoreError) : FaultPolicy Nat where
  fault call left :=
    match call, left with
    | .publish _, 0 => (some error, 0)
    | .publish _, left + 1 => (none, left)
    | _, left => (none, left)

namespace Analyzer

variable {a : Analyzer} {s : Stores} {f : Finding} {e : Event} {sampler : Sampler}

/-! ### Findings whose event depends on the record -/

/-- The kinds of event that the latest finding on record does not call for again. -/
def onceOnly : List EventKind := [.environmentalValue, .environmentalAllClear, .immobilityAllClear]

/-- Whether an event that was refused is not called for again: what it tells is no news once its
finding is the latest on record. -/
def forgets (a : Analyzer) (s : Stores) (e : Event) : Bool :=
  e.kind ∈ onceOnly && (a.last s).all (·.time ≤ e.time)

/-- Immobility and exposure are not told to a sink that knows. -/
theorem published?_of_single (single : a.task.kind = .immobility ∨ a.task.kind = .environmental) :
    a.published? s f = a.event? (a.last s) f := by
  have hskip : a.skipsKnownEvents = false := by
    unfold skipsKnownEvents
    rw [← a.kind_eq]
    rcases single with h | h <;> simp [h]
  unfold published?
  rw [hskip]
  cases a.event? (a.last s) f <;> rfl

/-- Of immobility and exposure alerts are recorded, and what ends an alert. -/
theorem records_of_single (single : a.task.kind = .immobility ∨ a.task.kind = .environmental)
    (last : Option Finding) : a.records last f = (f.level.alerting || f.allClear last) := by
  unfold records
  cases ht : a.task with
  | geofence fences regions => simp [ht, Task.kind] at single
  | proximity settings features => simp [ht, Task.kind] at single
  | immobility settings => rfl
  | environmental settings => rfl

theorem records_of_event (single : a.task.kind = .immobility ∨ a.task.kind = .environmental)
    {last : Option Finding} (h : a.event? last f = some e) : a.records last f = true := by
  rw [records_of_single single]
  cases ha : f.level.alerting with
  | true => rfl
  | false =>
    cases hc : f.allClear last with
    | true => rfl
    | false => simp [event?, eventKind?, ha, hc] at h

theorem eventKind?_latest (single : a.task.kind = .immobility ∨ a.task.kind = .environmental)
    {last : Option Finding} {kind : EventKind} (h : a.eventKind? last f = some kind) :
    a.eventKind? (some f) f = if kind ∈ onceOnly then none else some kind := by
  have hclear : f.allClear (some f) = false := by
    cases hl : f.level <;> simp [Finding.allClear, hl, Level.alerting]
  have hchanged : exposureChanged (some f) f = false := by
    simp [exposureChanged, Instant.not_lt.mpr (Instant.le_refl f.time)]
  unfold eventKind? at h ⊢
  rw [hclear, hchanged]
  cases ht : a.task with
  | geofence fences regions => simp [ht, Task.kind] at single
  | proximity settings features => simp [ht, Task.kind] at single
  | immobility settings =>
    rw [ht] at h
    cases ha : f.level.alerting with
    | true =>
      obtain rfl : EventKind.immobility = kind := by simpa [ha] using h
      rfl
    | false =>
      obtain ⟨-, rfl⟩ : _ ∧ EventKind.immobilityAllClear = kind := by simpa [ha] using h
      rfl
  | environmental settings =>
    rw [ht] at h
    cases ha : f.level.alerting with
    | true =>
      obtain ⟨-, rfl⟩ : _ ∧ EventKind.environmentalValue = kind := by simpa [ha] using h
      rfl
    | false =>
      obtain ⟨-, rfl⟩ : _ ∧ EventKind.environmentalAllClear = kind := by simpa [ha] using h
      rfl

/-- Once its finding is on record, an event is called for again unless it is forgotten. -/
theorem published?_again (single : a.task.kind = .immobility ∨ a.task.kind = .environmental)
    (hsubject : f.subject = a.subject.id) (hconfig : f.analyzer.config = a.config.id)
    (h : a.published? s f = some e) :
    a.published? (a.recorded s f) f = if a.forgets s e then none else some e := by
  rw [published?_of_single single] at h ⊢
  rw [last_recorded hsubject hconfig (records_of_event single h), Finding.later]
  obtain ⟨kind, hkind, rfl⟩ := Option.map_eq_some_iff.mp h
  change _ = if decide (kind ∈ onceOnly) && (a.last s).all (·.time ≤ f.time) then none else _
  cases hl : (a.last s).all (·.time ≤ f.time) with
  | true =>
    rw [if_pos rfl, event?, eventKind?_latest single hkind]
    by_cases hm : kind ∈ onceOnly <;> simp [hm]
  | false => rw [if_neg (by simp), h, Bool.and_false, if_neg (by simp)]

/-- A trajectory is one finding of immobility or exposure, which is critical or says that all is
well. -/
theorem found_single_level (single : a.task.kind = .immobility ∨ a.task.kind = .environmental)
    {given : Option (List Observation)} {filter : TrackFilter Float} {fs : List Finding}
    (h : a.found s sampler given filter = .ok fs) :
    ∃ f, fs = [f] ∧ f.subject = a.subject.id ∧ f.analyzer.config = a.config.id ∧
      (f.level = .ok ∨ f.level = .critical) := by
  unfold found sampled at h
  cases ht : a.task with
  | geofence fences regions => simp [ht, Task.kind] at single
  | proximity settings features => simp [ht, Task.kind] at single
  | immobility settings =>
    rw [ht] at h
    simp only [immobilityFindings] at h
    split at h
    · cases h
    · split at h
      · cases h
      · split at h
        · cases h
          exact ⟨_, rfl, rfl, rfl, .inl rfl⟩
        · cases h
          exact ⟨_, rfl, rfl, rfl, .inr rfl⟩
  | environmental settings =>
    rw [ht] at h
    dsimp only at h
    split at h
    · cases h
    · split at h
      · cases h
      · cases h
        exact ⟨_, rfl, rfl, rfl, .inl rfl⟩
      · cases h
        refine ⟨_, rfl, ?_⟩
        unfold EnvironmentalSettings.finding
        split
        · exact ⟨rfl, rfl, .inr rfl⟩
        · exact ⟨rfl, rfl, .inl rfl⟩

theorem found_single (single : a.task.kind = .immobility ∨ a.task.kind = .environmental)
    {given : Option (List Observation)} {filter : TrackFilter Float} {fs : List Finding}
    (h : a.found s sampler given filter = .ok fs) :
    ∃ f, fs = [f] ∧ f.subject = a.subject.id ∧ f.analyzer.config = a.config.id := by
  obtain ⟨f, hf, subject, config, -⟩ := found_single_level single h
  exact ⟨f, hf, subject, config⟩

/-! ### Runs that are refused an event -/

theorem found_ne_refused {error : StoreError} {given : Option (List Observation)}
    {filter : TrackFilter Float} :
    a.found s sampler given filter ≠ .error (.call .createEvent error) := by
  unfold found sampled
  cases ht : a.task with
  | geofence fences regions => simp
  | proximity settings features => simp
  | immobility settings =>
    simp only [immobilityFindings]
    split
    · simp
    · split
      · simp
      · split <;> simp
  | environmental settings =>
    dsimp only
    split
    · simp
    · split <;> simp

/-- The stores that a refused publication leaves: its finding is on record, those before it are
settled. -/
theorem run_refused {error : StoreError} {given : Option (List Observation)}
    {filter : TrackFilter Float} {k n : Nat} {t : Stores}
    (h : (a.run given filter).exec (shaky (.refusing error) sampler) (s, k) =
      (.error (.call .createEvent error), (t, n))) :
    ∃ before f after e s₁, a.found s sampler given filter = .ok (before ++ f :: after) ∧
      s₁.unpaused = (before.foldl a.posted s).unpaused ∧ a.published? s₁ f = some e ∧
      t = a.recorded s₁ f := by
  rw [run_eq, Analysis.exec_bind,
    prepare_spared given filter (fun _ _ => rfl) (fun _ _ => rfl)] at h
  cases hf : a.found s sampler given filter with
  | error e =>
    rw [hf] at h
    cases h
    exact absurd hf found_ne_refused
  | ok fs =>
    rw [hf] at h
    rcases settleAll_cases h with ⟨_, hr, _⟩ | ⟨before, f, after, e, s₁, rfl, hs₁, he, failed⟩
    · cases hr
    · cases he
      cases failed with
      | unchecked call fault => cases fault
      | unpublished call fault => exact ⟨before, f, after, _, s₁, rfl, hs₁, call, rfl⟩

/-- A finding that calls for an event goes on record before the event is published. -/
theorem settle_refusing {error : StoreError} (h : a.published? s f = some e) (left : Nat) :
    (a.settle f).exec (shaky (.refusing error) sampler) (s, left) =
      (Analysis.ask (.publish e) >>= fun _ => a.pause >>= fun _ => pure ⟨f, some e⟩).exec
        (shaky (.refusing error) sampler) (a.recorded s f, left) := by
  obtain ⟨called, unknown⟩ := Option.filter_eq_some_iff.mp h
  have looked : (Analysis.ask (.latest a.subject.id a.config.id)).exec
      (shaky (.refusing error) sampler) (s, left) = (.ok (a.last s), (s, left)) := rfl
  have kept : (a.keep f (a.last s)).exec (shaky (.refusing error) sampler) (s, left) =
      (.ok (), (a.recorded s f, left)) := by
    unfold keep recorded
    split <;> rfl
  have news : (a.isKnown e).exec (shaky (.refusing error) sampler) (a.recorded s f, left) =
      (.ok false, (a.recorded s f, left)) := by
    unfold isKnown
    split
    · rename_i skips
      have fresh : (a.recorded s f).knows e = false := by
        simpa [skips, Stores.knows] using unknown
      rw [← fresh]
      rfl
    · rfl
  rw [settle_eq, Analysis.exec_bind_of_ok looked, Analysis.exec_bind_of_ok kept, called, announce,
    Analysis.exec_bind_of_ok news]
  rfl

/-- Of an event that is refused the finding goes on record, and that is all. -/
theorem settle_refused {error : StoreError} (h : a.published? s f = some e) :
    (a.settle f).exec (shaky (.refusing error) sampler) (s, 0) =
      (.error (.call .createEvent error), (a.recorded s f, 0)) :=
  settle_refusing h 0

/-- An event that passes is published, and one less passes after it. -/
theorem settle_passed {error : StoreError} (h : a.published? s f = some e)
    (pauseless : a.config.quietPeriod = none) (left : Nat) :
    (a.settle f).exec (shaky (.refusing error) sampler) (s, left + 1) =
      (.ok ⟨f, some e⟩, (a.posted s f, left)) := by
  rw [settle_refusing h, posted, h, pause, pauseless]
  rfl

theorem kind_of_steady (steady : a.task.kind = .geofence ∨ a.task.kind = .proximity)
    {last : Option Finding} (h : a.event? last f = some e) : e.kind ∉ onceOnly := by
  obtain ⟨kind, hkind, rfl⟩ := Option.map_eq_some_iff.mp h
  change kind ∉ onceOnly
  unfold eventKind? at hkind
  cases ht : a.task with
  | geofence fences regions =>
    obtain ⟨-, rfl⟩ : _ ∧ EventKind.geofenceBreak = kind := by simpa [ht] using hkind
    simp [onceOnly]
  | proximity settings features =>
    obtain ⟨-, rfl⟩ : _ ∧ EventKind.proximity = kind := by simpa [ht] using hkind
    simp [onceOnly]
  | immobility settings => simp [ht, Task.kind] at steady
  | environmental settings => simp [ht, Task.kind] at steady

/-- After a refused event a retry publishes all that a run without failures would have published,
unless that is one event that is forgotten. Then it publishes nothing. -/
theorem retry_events (a : Analyzer) (s : Stores) (sampler : Sampler)
    (given : Option (List Observation)) (filter : TrackFilter Float) (error : StoreError)
    (k : Nat) :
    let once := (a.run given filter).exec (Stores.responder sampler) s
    let first := (a.run given filter).exec (shaky (.refusing error) sampler) (s, k)
    let second := (a.run given filter).exec (Stores.responder sampler) first.2.1
    first.1 = .error (.call .createEvent error) →
      (∃ outcomes, second.1 = .ok outcomes) ∧
      ∃ published, once.2.events = s.events ++ published ∧
        if published.any (a.forgets s) then second.2.events = s.events
        else once.2.events.Sublist second.2.events := by
  intro once first second h
  obtain ⟨before, f, after, e, s₁, hfound, hs₁, hcall, ht⟩ :=
    run_refused (show first = (_, (first.2.1, first.2.2)) from Prod.ext h rfl)
  obtain ⟨now₁, observations₁, -, events₁⟩ := Stores.unpaused_eq_iff.mp hs₁
  have hnow : first.2.1.now = s.now := by
    rw [ht, recorded_now, now₁, foldl_posted_now]
  have hobservations : first.2.1.observations = s.observations := by
    rw [ht, recorded_observations, observations₁, foldl_posted_observations]
  have hevents : first.2.1.events = (before.foldl a.posted s).events := by
    rw [ht, recorded_events, events₁]
  obtain ⟨_, u, hu, unpaused_u⟩ := run_ok hfound
  obtain ⟨outcomes, v, hv, unpaused_v⟩ :=
    run_ok ((found_congr hnow hobservations given filter).trans hfound)
  have honce : once.2.events = ((before ++ f :: after).foldl a.posted s).events := by
    rw [show once = _ from hu]
    exact (Stores.unpaused_eq_iff.mp unpaused_u).2.2.2
  have hsecond : second.2.events = ((before ++ f :: after).foldl a.posted first.2.1).events := by
    rw [show second = _ from hv]
    exact (Stores.unpaused_eq_iff.mp unpaused_v).2.2.2
  refine ⟨⟨outcomes, congrArg Prod.fst hv⟩, ?_⟩
  by_cases steady : a.task.kind = .geofence ∨ a.task.kind = .proximity
  · rw [foldl_posted_events (event?_steady steady)] at honce hsecond hevents
    obtain ⟨published, hpublished, sub⟩ := Event.exists_addAll a.skipsKnownEvents
      ((before ++ f :: after).filterMap (a.event? none)) s.events
    refine ⟨published, honce.trans hpublished, ?_⟩
    have hforgets : ¬published.any (a.forgets s) = true := by
      rw [List.any_eq_true]
      rintro ⟨e, he, hforgets⟩
      obtain ⟨g, -, hg⟩ := List.mem_filterMap.mp (sub.subset he)
      simp only [forgets, Bool.and_eq_true, decide_eq_true_eq] at hforgets
      exact kind_of_steady steady hg hforgets.1
    rw [if_neg hforgets, honce, hsecond, hevents, List.filterMap_append]
    exact Event.addAll_again _ _ _ _
  · have single : a.task.kind = .immobility ∨ a.task.kind = .environmental := by
      cases hk : a.task.kind <;> simp_all
    obtain ⟨g, hg, hsubject, hconfig⟩ := found_single single hfound
    obtain ⟨rfl, rfl, rfl⟩ : before = [] ∧ f = g ∧ after = [] := by
      cases before <;> simp_all
    simp only [List.nil_append, List.foldl_nil, List.foldl_cons, posted_events] at *
    rw [← published?_congr a f hs₁, hcall] at honce
    rw [hevents, ht, published?_again single hsubject hconfig hcall] at hsecond
    have hforgets : [e].any (a.forgets s) = a.forgets s₁ e := by
      simp [forgets, last_congr a hs₁]
    refine ⟨[e], honce, ?_⟩
    rw [hforgets, honce, hsecond]
    by_cases hf : a.forgets s₁ e = true
    · simp [hf]
    · simp [hf]

/-! ### An exposure that is told of once only -/

def footprint : EnvironmentalSettings :=
  { image := "fp-2020", threshold := 20, description := "Human Footprint" }

/-- Watches the exposure of one subject. -/
def footprintWatch : Analyzer where
  subject := { id := .nil, name := "Tembo" }
  config := { id := .nil, name := "footprint", settings := .environmental footprint }
  task := .environmental footprint
  active := Eq.refl true
  kind_eq := rfl

/-- An image of high values. -/
def highValues : Sampler := fun _ _ => .ok (some 35.5)

/-- One position of the subject. -/
def sighting : List Observation := [⟨.nil, .epoch, -1.3, 36.8⟩]

def offline : StoreError := .unavailable "create offline"

def sightingFix : Fix Float := ⟨⟨36.8, -1.3⟩, .epoch⟩

/-- The finding of the high values at the position. -/
def highFinding : Finding :=
  footprint.finding footprintWatch.subject footprintWatch.reference sightingFix 1 35.5

theorem sighting_fixes : (footprintWatch.trajectory sighting {}).fixes = [sightingFix] := by
  have ordered : [sightingFix].Pairwise fun a b => a.time ≤ b.time := List.pairwise_singleton _ _
  have kept : TrackFilter.keep {} none [sightingFix] = [sightingFix] := by decide +kernel
  exact Trajectory.fixes_of_kept .nil ordered kept

theorem found_sighting (s : Stores) :
    footprintWatch.found s highValues sighting {} = .ok [highFinding] := by
  have sampled_eq (t : Trajectory Float) (h : t.fixes = [sightingFix]) :
      footprintWatch.sampled highValues t = .ok [highFinding] := by
    obtain ⟨subject, fixes, ordered⟩ := t
    obtain rfl : fixes = [sightingFix] := h
    rfl
  exact sampled_eq _ sighting_fixes

theorem highFinding_news : footprintWatch.published? { now := .epoch } highFinding =
    some (.ofFinding .environmentalValue footprintWatch.subject highFinding) := by
  have high : highFinding.level = .critical := by decide +kernel
  rw [published?_of_single (.inr rfl), event?, eventKind?, high]
  rfl

theorem footprintWatch_refused :
    ((footprintWatch.run sighting {}).exec (shaky (.refusing offline) highValues)
      ({ now := .epoch }, 0)).1 = .error (.call .createEvent offline) := by
  rw [run_eq, Analysis.exec_bind, prepare_spared sighting {} (fun _ _ => rfl) (fun _ _ => rfl),
    found_sighting]
  dsimp only
  rw [List.mapM_cons, Analysis.exec_bind, settle_refused highFinding_news]

/-! ### Two fences on one way -/

def farFence : Fence Float := squareFence "Far" 38 (-2)

/-- Watches two fences that are apart. -/
def outingWatch : Analyzer where
  subject := parkWatch.subject
  config := parkWatch.config
  task := .geofence [westFence, farFence] []
  active := Eq.refl true
  kind_eq := rfl

/-- A way out of one fence and into the other. -/
def outingLeg : Leg Float :=
  ⟨⟨⟨36.5, -1.5⟩, .epoch⟩, ⟨⟨38.5, -1.5⟩, .ofNanos 3600000000000⟩⟩

def outing : List Observation :=
  [⟨.nil, .epoch, -1.5, 36.5⟩, ⟨.nil, .ofNanos 3600000000000, -1.5, 38.5⟩]

theorem outing_fixes :
    (outingWatch.trajectory outing {}).fixes = [outingLeg.start, outingLeg.finish] := by
  have ordered : [outingLeg.start, outingLeg.finish].Pairwise fun a b => a.time ≤ b.time := by
    decide
  have kept : TrackFilter.keep {} none [outingLeg.start, outingLeg.finish] =
      [outingLeg.start, outingLeg.finish] := by decide +kernel
  exact Trajectory.fixes_of_kept .nil ordered kept

/-- The finding of a fence that is crossed somewhere on the way. -/
def outingFinding (fence : Fence Float) (p : Point Float) : Finding :=
  Crossing.finding
    { subject := .nil, speed := outingLeg.speed, heading := outingLeg.heading,
      fix := outingLeg.fixAt p, fraction := outingLeg.fractionAt p, fenceId := fence.id,
      fenceName := fence.name, level := fence.level, startRegions := [], finishRegions := [] }
    outingWatch.subject outingWatch.reference [] 2

def leaving : Finding := outingFinding westFence ⟨37, -1.5⟩

def arriving : Finding := outingFinding farFence ⟨38, -1.5⟩

def outingEvent (f : Finding) : Event := .ofFinding .geofenceBreak outingWatch.subject f

theorem found_outing (s : Stores) :
    outingWatch.found s noValues outing {} = .ok [leaving, arriving] := by
  have west : outingLeg.crossingPoints westFence.boundary = [⟨37, -1.5⟩] := by decide +kernel
  have far : outingLeg.crossingPoints farFence.boundary = [⟨38, -1.5⟩] := by decide +kernel
  have legs : (outingWatch.trajectory outing {}).legs = [outingLeg] := by
    rw [Trajectory.legs, outing_fixes]
    rfl
  change Except.ok (geofenceFindings _ _ _ [] (outingWatch.trajectory outing {})) = _
  rw [geofenceFindings, outing_fixes]
  simp only [crossings, legs, List.flatMap_cons, List.flatMap_nil, List.append_nil, Leg.crossings,
    west, far]
  rfl

/-- The two crossings are at two places, so neither event tells what the other does. -/
theorem outingEvents_apart : (outingEvent leaving).same (outingEvent arriving) = false := by
  have place : (outingEvent leaving).sameLocation (outingEvent arriving) = false :=
    (by decide +kernel : (⟨37, -1.5⟩ : Point Float).same ⟨38, -1.5⟩ = false)
  simp [Event.same, place]

theorem leaving_news {s : Stores} (h : s.events = []) :
    outingWatch.published? s leaving = some (outingEvent leaving) := by
  rw [published?_of_event (event?_steady (.inl rfl) _ _), Stores.knows, h]
  rfl

theorem arriving_news {s : Stores} (h : s.events = [outingEvent leaving]) :
    outingWatch.published? s arriving = some (outingEvent arriving) := by
  have called : outingWatch.event? (outingWatch.last s) arriving = some (outingEvent arriving) :=
    event?_steady (.inl rfl) _ _
  rw [published?_of_event called, Stores.knows, h]
  simp [outingEvents_apart]

/-- The stores with the way out told of. -/
def outingLeft : Stores := outingWatch.posted { now := .epoch } leaving

theorem outingLeft_events : outingLeft.events = [outingEvent leaving] := by
  rw [outingLeft, posted_events, leaving_news rfl]
  rfl

/-- The way out was told of, the way in is refused. -/
theorem outing_refused :
    (outingWatch.run outing {}).exec (shaky (.refusing offline) noValues) ({ now := .epoch }, 1) =
      (.error (.call .createEvent offline), (outingWatch.recorded outingLeft arriving, 0)) := by
  have passed : (outingWatch.settle leaving).exec (shaky (.refusing offline) noValues)
      ({ now := .epoch }, 1) = (.ok ⟨leaving, some (outingEvent leaving)⟩, (outingLeft, 0)) :=
    settle_passed (leaving_news rfl) rfl 0
  have refused : (outingWatch.settle arriving).exec (shaky (.refusing offline) noValues)
      (outingLeft, 0) =
        (.error (.call .createEvent offline), (outingWatch.recorded outingLeft arriving, 0)) :=
    settle_refused (arriving_news outingLeft_events)
  rw [run_eq, Analysis.exec_bind, prepare_spared outing {} (fun _ _ => rfl) (fun _ _ => rfl),
    found_outing]
  dsimp only
  rw [List.mapM_cons, Analysis.exec_bind_of_ok passed, List.mapM_cons, Analysis.exec_bind,
    Analysis.exec_bind, refused]

theorem outing_events : ((outingWatch.run outing {}).exec (Stores.responder noValues)
    { now := .epoch }).2.events = [outingEvent leaving, outingEvent arriving] := by
  obtain ⟨outcomes, t, ht, same⟩ := run_ok (found_outing { now := .epoch })
  rw [ht, (Stores.unpaused_eq_iff.mp same).2.2.2, List.foldl_cons, List.foldl_cons, List.foldl_nil,
    ← outingLeft, posted_events, arriving_news outingLeft_events, outingLeft_events]
  rfl

/-- A retry tells of the way in. The alert of exposure it does not tell again. -/
theorem retry_events_footprintWatch :
    (let once := (footprintWatch.run sighting {}).exec (Stores.responder highValues)
        { now := .epoch }
      let first := (footprintWatch.run sighting {}).exec (shaky (.refusing offline) highValues)
        ({ now := .epoch }, 0)
      let second := (footprintWatch.run sighting {}).exec (Stores.responder highValues) first.2.1
      first.1 = .error (.call .createEvent offline) ∧ (∃ outcomes, second.1 = .ok outcomes) ∧
        ∃ published, once.2.events = [] ++ published ∧
          if published.any (footprintWatch.forgets { now := .epoch }) then second.2.events = []
          else once.2.events.Sublist second.2.events) ∧
    (let first := (outingWatch.run outing {}).exec (shaky (.refusing offline) noValues)
        ({ now := .epoch }, 1)
      let second := (outingWatch.run outing {}).exec (Stores.responder noValues) first.2.1
      first.1 = .error (.call .createEvent offline) ∧ first.2.1.events = [outingEvent leaving] ∧
        (∃ outcomes, second.1 = .ok outcomes) ∧
        [outingEvent leaving, outingEvent arriving].Sublist second.2.events) := by
  refine ⟨⟨footprintWatch_refused, retry_events footprintWatch { now := .epoch } highValues sighting
    {} offline 0 footprintWatch_refused⟩, ?_⟩
  intro first second
  have refused : first.1 = .error (.call .createEvent offline) := by
    rw [show first = _ from outing_refused]
  obtain ⟨succeeds, published, honce, told⟩ :=
    retry_events outingWatch { now := .epoch } noValues outing {} offline 1 refused
  rw [List.nil_append, outing_events] at honce
  rw [← honce, outing_events,
    if_neg (by simp [forgets, outingEvent, Event.ofFinding, onceOnly])] at told
  have left : first.2.1.events = [outingEvent leaving] := by
    rw [show first = _ from outing_refused, recorded_events, outingLeft_events]
  exact ⟨refused, left, succeeds, told⟩

/-- A retry of a refused alert of exposure publishes nothing: the record holds its finding. -/
theorem footprintWatch_forgets :
    ¬ ∀ (a : Analyzer) (s : Stores) (sampler : Sampler) (given : Option (List Observation))
      (filter : TrackFilter Float) (error : StoreError) (k : Nat),
      let once := (a.run given filter).exec (Stores.responder sampler) s
      let first := (a.run given filter).exec (shaky (.refusing error) sampler) (s, k)
      let second := (a.run given filter).exec (Stores.responder sampler) first.2.1
      first.1 = .error (.call .createEvent error) →
        ∀ e ∈ once.2.events, e ∈ second.2.events := by
  intro h
  have lost := h footprintWatch { now := .epoch } highValues sighting {} offline 0
    footprintWatch_refused
  have one : ((footprintWatch.run sighting {}).exec (Stores.responder highValues)
      { now := .epoch }).2.events.length = 1 := by decide +kernel
  have none : ((footprintWatch.run sighting {}).exec (Stores.responder highValues)
      ((footprintWatch.run sighting {}).exec (shaky (.refusing offline) highValues)
        ({ now := .epoch }, 0)).2.1).2.events = [] := by
    rw [← List.length_eq_zero_iff]
    decide +kernel
  obtain ⟨e, he⟩ := List.length_eq_one_iff.mp one
  have := lost e (by simp [he])
  rw [none] at this
  cases this

end Analyzer

end Geotrack
