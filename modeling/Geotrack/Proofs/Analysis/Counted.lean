import Mathlib.Data.List.Basic
import Geotrack.Proofs.Analysis.Accounts
import Geotrack.Proofs.Analysis.Failure
import Geotrack.Proofs.Analysis.Fences
import Geotrack.Proofs.Analysis.Quiet

/-!
# Events that a batch counts

A run publishes its events one after the other, and a batch counts them by what the run returns. A
run that fails returns none of them, whatever it has published before. So what the sink gains is
what the batch counts and, apart from that, what failed runs have published: `events_counted`.
-/

namespace Geotrack

variable {σ τ α β : Type}

/-- The event that a call publishes. -/
def Call.event? {β : Type} : Call β → Option Event
  | .publish e => some e
  | _ => none

/-- The sink of a responder holds what is published, in order. A call that fails adds nothing. -/
structure Responder.Keeps (responder : Responder σ) (sink : σ → List Event) : Prop where
  answer {β : Type} (call : Call β) (s : σ) : sink (responder.answer call s).2 =
    sink s ++ ((responder.answer call s).1.toOption.bind fun _ => call.event?).toList

theorem Stores.keeps (sampler : Sampler) : (responder sampler).Keeps (·.events) := by
  refine ⟨fun call s => ?_⟩
  simp only [responder, answer]
  cases call with
  | observations subject window => simp [Call.event?]
  | sample fixes settings => simp [Call.event?]
  | latest subject config => simp [Call.event?]
  | record f => simp [Call.event?, record]
  | known e => simp [Call.event?]
  | publish e => simp [Call.event?, publish, Except.toOption]
  | isQuiet key =>
    obtain ⟨pauses, h, -⟩ := s.exists_isQuiet key
    simp [Call.event?, h]
  | pause key length =>
    cases h : s.now.plus? length <;> simp [Call.event?, pause, h]

variable {responder : Responder σ} {sink : σ → List Event}

theorem Responder.Keeps.faulty (keeps : responder.Keeps sink) (policy : FaultPolicy τ) :
    (responder.faulty policy).Keeps fun w : σ × τ => sink w.1 := by
  refine ⟨fun call ⟨s, m⟩ => ?_⟩
  simp only [Responder.faulty]
  rcases policy.fault call m with ⟨_ | e, n⟩
  · exact keeps.answer call s
  · simp [Except.toOption]

/-! ### What an analysis adds to the sink -/

/-- An analysis only adds to the sink, and what it adds when it succeeds fits what it returns. -/
def Analysis.Adds (responder : Responder σ) (sink : σ → List Event) (x : Analysis α)
    (fits : α → List Event → Prop) : Prop :=
  ∀ s, ∃ added, sink (x.exec responder s).2 = sink s ++ added ∧
    ∀ a, (x.exec responder s).1 = .ok a → fits a added

namespace Analysis.Adds

variable {x : Analysis α} {f : α → Analysis β} {fits : α → List Event → Prop}

theorem pure {a : α} (h : fits a []) : Adds responder sink (Pure.pure a) fits := by
  refine fun s => ⟨[], (List.append_nil _).symm, ?_⟩
  rintro _ ⟨⟩
  exact h

theorem ofExcept {result : Except AnalysisError α} (h : ∀ a, result = .ok a → fits a []) :
    Adds responder sink (.ofExcept result) fits :=
  fun _ => ⟨[], (List.append_nil _).symm, h⟩

theorem ask (keeps : responder.Keeps sink) (call : Call α) :
    Adds responder sink (.ask call) fun _ added => added = call.event?.toList := by
  intro s
  refine ⟨_, keeps.answer call s, fun a h => ?_⟩
  rw [exec_ask] at h
  cases answered : (responder.answer call s).1 with
  | error e => simp [answered, Except.mapError] at h
  | ok b => rfl

/-- What the first half adds stands before what the second half adds. -/
theorem bind {more : β → List Event → Prop} (hx : Adds responder sink x fits)
    (hf : ∀ a added, fits a added →
      Adds responder sink (f a) fun b later => more b (added ++ later)) :
    Adds responder sink (x >>= f) more := by
  intro s
  obtain ⟨added, hadded, hfits⟩ := hx s
  rw [exec_bind]
  rcases hexec : x.exec responder s with ⟨e | a, t⟩
  · rw [hexec] at hadded
    exact ⟨added, hadded, fun b hb => nomatch hb⟩
  · rw [hexec] at hadded hfits
    obtain ⟨later, hlater, hmore⟩ := hf a added (hfits a rfl) t
    refine ⟨added ++ later, ?_, hmore⟩
    rw [← List.append_assoc, ← hadded]
    exact hlater

/-- Of analyses that add nothing one after the other adds nothing. -/
theorem nothing : Composes fun x => Adds responder sink x fun _ added => added = [] where
  pure _ := .pure rfl
  bind first second := first.bind fun a added hadded => by
    subst hadded
    exact second a

theorem mapM {g : β → List Event} {f : α → Analysis β}
    (hf : ∀ a, Adds responder sink (f a) fun b added => added = g b) (as : List α) :
    Adds responder sink (as.mapM f) fun bs added => added = bs.flatMap g := by
  induction as with
  | nil => exact .pure rfl
  | cons a as ih =>
    rw [List.mapM_cons]
    refine (hf a).bind fun b own hown => ih.bind fun bs later hlater => .pure ?_
    rw [hown, hlater, List.append_nil, List.flatMap_cons]

end Analysis.Adds

namespace Analyzer

open Analysis (Adds)

variable {a : Analyzer}

theorem pause_adds (keeps : responder.Keeps sink) :
    Adds responder sink a.pause fun _ added => added = [] := by
  unfold pause
  cases a.config.quietPeriod with
  | none => exact .pure rfl
  | some length =>
    intro s
    refine ⟨[], ?_, fun _ _ => rfl⟩
    change sink (responder.answer (.pause _ length) s).2 = _
    rw [keeps.answer]
    simp [Call.event?]

theorem announce_adds (keeps : responder.Keeps sink) (f : Finding) (event : Option Event) :
    Adds responder sink (a.announce f event) fun o added => added = o.event.toList := by
  unfold announce
  cases event with
  | none => exact .pure rfl
  | some e =>
    have asked : Adds responder sink (a.isKnown e) fun _ added => added = [] := by
      unfold isKnown
      split
      · exact .ask keeps (.known e)
      · exact .pure rfl
    refine asked.bind fun known _ hasked => ?_
    subst hasked
    split
    · exact .pure rfl
    · refine (Adds.ask keeps (.publish e)).bind fun _ _ hpublished => ?_
      refine (pause_adds keeps).bind fun _ _ hpaused => .pure ?_
      rw [hpublished, hpaused]
      rfl

/-- Settling a finding publishes the event of its outcome. -/
theorem settle_adds (keeps : responder.Keeps sink) (f : Finding) :
    Adds responder sink (a.settle f) fun o added => added = o.event.toList := by
  rw [settle_eq]
  refine (Adds.ask keeps (.latest _ _)).bind fun last _ hlast => ?_
  have kept : Adds responder sink (a.keep f last) fun _ added => added = [] := by
    unfold keep
    split
    · exact .ask keeps (.record f)
    · exact .pure rfl
  refine kept.bind fun _ _ hkept => ?_
  rw [hlast, hkept]
  exact announce_adds keeps f _

/-- Before any finding is settled nothing is published. -/
theorem prepare_adds (keeps : responder.Keeps sink) (given : Option (List Observation))
    (filter : TrackFilter Float) :
    Adds responder sink (a.prepare given filter) fun _ added => added = [] :=
  prepare_of a Adds.nothing given filter (fun _ => .ofExcept fun _ _ => rfl)
    (fun _ => .ask keeps _) fun _ _ => .ask keeps _

/-- A run publishes the events of its outcomes. One that fails takes no event back. -/
theorem run_adds (keeps : responder.Keeps sink) (given : Option (List Observation))
    (filter : TrackFilter Float) :
    Adds responder sink (a.run given filter) fun outcomes added =>
      added = outcomes.filterMap (·.event) := by
  rw [run_eq]
  refine (prepare_adds keeps given filter).bind fun fs _ hprepared => ?_
  subst hprepared
  simpa only [List.nil_append, List.filterMap_eq_flatMap_toList] using
    Adds.mapM (settle_adds keeps) fs

end Analyzer

namespace Batch

variable {settings : Settings} {cancelled : Nat → Bool}

/-- Nothing is published when an analyzer is asked whether it pauses. -/
theorem isQuiet_adds (keeps : responder.Keeps sink) (a : Analyzer) (s : σ) :
    sink (a.isQuiet.exec responder s).2 = sink s := by
  rcases exec_isQuiet_left responder a s with h | h
  · rw [h]
  · rw [h, keeps.answer]
    simp [Call.event?]

variable (settings) in
/-- A visit whose run does not fail publishes the events that it tells of. -/
theorem visit_adds (keeps : responder.Keeps sink) (p : Subject × AnalyzerConfig) (s : σ) :
    let visited := (visit settings p.1 p.2).exec responder s
    ∃ added, sink visited.2 = sink s ++ added ∧
      (visited.1.isFailedRun = false → added = visited.1.events) := by
  intro visited
  cases made : Analyzer.ofConfig p.1 p.2 settings.context with
  | error e =>
    refine ⟨[], ?_⟩
    simp only [visited, exec_visit_unbuilt made, Visit.events, List.append_nil, implies_true,
      and_self]
  | ok a =>
    have asked := isQuiet_adds keeps a s
    obtain ⟨added, hadded, hfits⟩ := Analyzer.run_adds keeps none (settings.filter p.1)
      (a.isQuiet.exec responder s).2
    simp only [visited, exec_visit made]
    split
    · exact ⟨[], by rw [asked, List.append_nil], fun _ => rfl⟩
    · refine ⟨added, by rw [← asked]; exact hadded, fun passed => ?_⟩
      change added = Visit.events (.ran a _)
      change Visit.isFailedRun (.ran a (Analysis.exec responder _ _).1) = false at passed
      cases hran : (Analysis.exec responder (a.run none (settings.filter p.1))
        (a.isQuiet.exec responder s).2).1 with
      | error e => simp [hran, Visit.isFailedRun] at passed
      | ok outcomes => exact hfits outcomes hran

variable (responder sink settings) in
/-- The visits to configurations in turn, each with what it adds to the sink. -/
def additions : List (Subject × AnalyzerConfig) → σ → List (Visit × List Event)
  | [], _ => []
  | p :: pairs, s =>
    let visited := (visit settings p.1 p.2).exec responder s
    (visited.1, (sink visited.2).drop (sink s).length) :: additions pairs visited.2

variable (sink) in
theorem map_additions (pairs : List (Subject × AnalyzerConfig)) (s : σ) :
    (additions responder sink settings pairs s).map (·.1) =
      ((visitAll settings pairs).exec responder s).1 := by
  induction pairs generalizing s with
  | nil => rfl
  | cons p pairs ih =>
    rw [exec_visitAll_cons, additions, List.map_cons, ih]

/-- What the sink gains is what each visit adds. -/
theorem sink_visitAll (keeps : responder.Keeps sink) (pairs : List (Subject × AnalyzerConfig))
    (s : σ) :
    sink ((visitAll settings pairs).exec responder s).2 =
      sink s ++ (additions responder sink settings pairs s).flatMap (·.2) := by
  induction pairs generalizing s with
  | nil => exact (List.append_nil _).symm
  | cons p pairs ih =>
    obtain ⟨added, hadded, -⟩ := visit_adds settings keeps p s
    rw [exec_visitAll_cons, additions, List.flatMap_cons, ← List.append_assoc]
    dsimp only
    rw [ih, hadded, List.drop_left]

theorem events_additions (keeps : responder.Keeps sink)
    {pairs : List (Subject × AnalyzerConfig)} {s : σ} :
    ∀ x ∈ additions responder sink settings pairs s,
      x.1.isFailedRun = false → x.2 = x.1.events := by
  induction pairs generalizing s with
  | nil => exact fun x hx => nomatch hx
  | cons p pairs ih =>
    intro x hx passed
    rcases List.mem_cons.mp hx with rfl | later
    · obtain ⟨added, hadded, hfits⟩ := visit_adds settings keeps p s
      dsimp only at passed ⊢
      rw [hadded, List.drop_left]
      exact hfits passed
    · exact ih x later passed

/-- A list is as long as its parts of either kind. -/
theorem length_flatMap_filter {α β : Type} (q : α → Bool) (g : α → List β) (as : List α) :
    (as.flatMap g).length =
      ((as.filter (!q ·)).flatMap g).length + ((as.filter q).flatMap g).length := by
  induction as with
  | nil => rfl
  | cons a as ih =>
    cases h : q a <;> simp only [List.filter_cons, h, List.flatMap_cons, List.length_append, ih,
      Bool.not_true, Bool.not_false, Bool.false_eq_true, if_true, if_false] <;> omega

theorem Visit.events_of_failed {x : Visit} (failed : x.isFailedRun = true) : x.events = [] := by
  cases x with
  | unbuilt e => rfl
  | skipped a => rfl
  | ran a result =>
    cases result with
    | error e => rfl
    | ok outcomes => cases failed

/-- The events that visits tell of are those that they add where no run fails. -/
theorem flatMap_events {added : List (Visit × List Event)}
    (own : ∀ x ∈ added, x.1.isFailedRun = false → x.2 = x.1.events) :
    added.flatMap (·.1.events) = (added.filter (!·.1.isFailedRun)).flatMap (·.2) := by
  induction added with
  | nil => rfl
  | cons x added ih =>
    have others := ih fun y hy => own y (List.mem_cons_of_mem _ hy)
    rw [List.flatMap_cons, others]
    cases failed : x.1.isFailedRun with
    -- a failed run tells of no event, whatever it adds
    | true => simp [failed, Visit.events_of_failed failed]
    | false => simp [failed, own x List.mem_cons_self failed]

/-- The sink gains what each visit of a batch adds. Where no run fails that is the events that the
visit tells of, and these the batch counts. What failed runs publish it does not count. -/
theorem events_counted (responder : Responder σ) (sink : σ → List Event)
    (keeps : responder.Keeps sink) (settings : Settings) (cancelled : Nat → Bool)
    (jobs : List Job) (s : σ) :
    let ended := (run settings cancelled jobs).exec responder s
    let tally := ended.1.1
    let pairs := (jobs.take tally.subjects).flatMap Job.pairs
    let added := additions responder sink settings pairs s
    let gained := added.flatMap (·.2)
    let untold := (added.filter (·.1.isFailedRun)).flatMap (·.2)
    added.map (·.1) = ((visitAll settings pairs).exec responder s).1 ∧
    sink ended.2 = sink s ++ gained ∧
    (∀ x ∈ added, x.1.isFailedRun = false → x.2 = x.1.events) ∧
    gained.length = tally.events + untold.length ∧
    (tally.events = gained.length ↔ untold = []) := by
  intro ended tally pairs added gained untold
  have hpairs : pairs = (jobs.take (turns cancelled jobs 0)).flatMap Job.pairs := by
    simp only [pairs, tally, ended, exec_run_eq]
  have hsink : sink ended.2 = sink s ++ gained := by
    simp only [gained, added, hpairs, ← sink_visitAll keeps, ended, exec_run_eq]
  have hevents : tally.events = (added.flatMap (·.1.events)).length := by
    have hmap : added.flatMap (·.1.events) =
        ((visitAll settings pairs).exec responder s).1.flatMap (·.events) := by
      rw [← map_additions sink, List.flatMap_map]
    rw [hmap, hpairs]
    simp only [tally, ended, exec_run_eq, Tally.foldl_count, Nat.zero_add]
  have hgained : gained.length = tally.events + untold.length := by
    rw [hevents, flatMap_events (events_additions keeps)]
    exact length_flatMap_filter (·.1.isFailedRun) (·.2) added
  refine ⟨map_additions sink pairs s, hsink, events_additions keeps, hgained, ?_⟩
  rw [hgained, ← List.length_eq_zero_iff]
  omega

/-! ### A batch in which a look at the record fails -/

open Analyzer

/-- The fences of two squares as features. -/
def squares : List (Feature Float) :=
  [westFence, eastFence].map fun fence =>
    { id := fence.id, name := fence.name, shape := .polygons (fence.boundary.map (⟨·, []⟩)) }

def parkSettings : Settings where
  context := { catalog := [("parks", squares)] }

def parkJob : Job where
  subject := parkWatch.subject
  configs := [parkWatch.config]

theorem ofConfig_parkWatch :
    Analyzer.ofConfig parkWatch.subject parkWatch.config parkSettings.context = .ok parkWatch := by
  have fences : Fence.ofFeatures squares .critical = .ok [westFence, eastFence] := by decide +kernel
  have groups : fencesOf parkSettings.context.catalog { criticalGroup := "parks" } =
      .ok [westFence, eastFence] := by
    have group : parkSettings.context.catalog.optionalGroup (some "parks") = .ok squares := rfl
    rw [fencesOf, group]
    change ((Fence.ofFeatures squares .critical).mapError .geometry >>= _) = _
    rw [fences]
    rfl
  change (do let fences ← fencesOf parkSettings.context.catalog { criticalGroup := "parks" }; _) = _
  rw [groups]
  rfl

/-- Stores that hold the walk. -/
def walkSeen : Stores where
  now := .epoch
  observations := walk

theorem observed_walkSeen : parkWatch.observed walkSeen none = walk := by
  have ordered : walk.Pairwise fun a b => a.time ≤ b.time := by decide
  have own : walkSeen.observations.filter (·.subject = parkWatch.subject.id) = walk := by
    decide +kernel
  have start : parkWatch.defaultWindow.start? walkSeen.now = some (.ofNanos (-86400000000000)) := by
    decide +kernel
  have recent : (walk.filter fun o => .ofNanos (-86400000000000) ≤ o.time) = walk := by
    decide +kernel
  unfold observed Stores.observationsOf
  dsimp only
  rw [own, start]
  dsimp only
  rw [recent, List.mergeSort_of_pairwise (ordered.imp fun hab => decide_eq_true hab)]
  rfl

theorem found_walkSeen :
    parkWatch.found walkSeen noValues none {} =
      .ok [edgeFinding westFence, edgeFinding eastFence] := by
  have findings : geofenceFindings parkWatch.subject parkWatch.reference [westFence, eastFence] []
      (parkWatch.trajectory walk {}) = [edgeFinding westFence, edgeFinding eastFence] := by
    rw [geofenceFindings, walk_crossings _ (by simp), walk_fixes]
    rfl
  rw [found, observed_walkSeen]
  exact congrArg Except.ok findings

theorem walkSeen_calls :
    (parkWatch.run none {}).calls (Stores.responder noValues) walkSeen =
      ⟨_, .observations .nil parkWatch.defaultWindow⟩ ::
        (parkWatch.settling walkSeen (edgeFinding westFence) ++
          parkWatch.settling (parkWatch.settled walkSeen (edgeFinding westFence))
            (edgeFinding eastFence)) := by
  rw [calls_run, found_walkSeen]
  change _ :: ([] ++ (_ ++ (_ ++ []))) = _
  rw [List.append_nil, List.nil_append]
  rfl

theorem walkSeen_settling :
    parkWatch.settling walkSeen (edgeFinding westFence) =
      [⟨_, .latest .nil .nil⟩, ⟨_, .record (edgeFinding westFence)⟩,
        ⟨_, .known (edgeEvent westFence)⟩, ⟨_, .publish (edgeEvent westFence)⟩] := rfl

/-- The stores with the first finding on record and its event published. -/
def edgeTold : Stores :=
  { walkSeen with findings := [edgeFinding westFence], events := [edgeEvent westFence] }

/-- The sixth call fails. It is the look at the record for the second finding. -/
def lastLookDown : List (Option StoreError) := [none, none, none, none, none, some offline]

theorem walkSeen_ended :
    (parkWatch.run none {}).exec (shaky .scripted noValues) (walkSeen, lastLookDown) =
      (.error (.call .loadHistory offline), (edgeTold, [])) := by
  -- the run stops at its sixth call with the effects of the five before
  have calls := walkSeen_calls
  rw [walkSeen_settling] at calls
  have sixth : ((parkWatch.run none {}).calls (Stores.responder noValues) walkSeen)[5]? =
      some ⟨_, .latest .nil .nil⟩ := by
    rw [calls]
    rfl
  have stopped := (aborting_run (a := parkWatch) none {}).exec_stopped (Stores.responder noValues)
    sixth rfl offline []
  change Run.exec _ _ _ =
    (_, (Responder.after _ (List.take 5 (Analysis.calls _ _ _)) _, _)) at stopped
  rw [calls] at stopped
  exact stopped

theorem parkJob_visited :
    (visitAll parkSettings parkJob.pairs).exec (shaky .scripted noValues) (walkSeen, lastLookDown) =
      ([.ran parkWatch (.error (.call .loadHistory offline))], (edgeTold, [])) := by
  have ran : (parkWatch.run none (parkSettings.filter parkWatch.subject)).exec
      (shaky .scripted noValues) (walkSeen, lastLookDown) =
        (.error (.call .loadHistory offline), (edgeTold, [])) := walkSeen_ended
  change (visitAll parkSettings [(parkWatch.subject, parkWatch.config)]).exec _ _ = _
  rw [exec_visitAll_cons, exec_visit ofConfig_parkWatch]
  change ([Visit.ran _ (Analysis.exec _ _ (walkSeen, lastLookDown)).1],
    (Analysis.exec _ _ (walkSeen, lastLookDown)).2) = _
  rw [ran]

theorem parkJob_ended :
    let ended := (run parkSettings (fun _ => false) [parkJob]).exec (shaky .scripted noValues)
      (walkSeen, lastLookDown)
    ended.1.1.subjects = 1 ∧ ended.1.1.events = 0 ∧ ended.2.1.events = [edgeEvent westFence] := by
  have done : ([parkJob].take (turns (fun _ => false) [parkJob] 0)).flatMap Job.pairs =
      parkJob.pairs := rfl
  rw [exec_run_eq, done, parkJob_visited]
  exact ⟨rfl, rfl, rfl⟩

/-- The one event that is published here is of a run that fails. -/
theorem events_counted_parkJob :
    let responder := shaky .scripted noValues
    let sink := fun w : Stores × List (Option StoreError) => w.1.events
    let ended := (run parkSettings (fun _ => false) [parkJob]).exec responder
      (walkSeen, lastLookDown)
    let added := additions responder sink parkSettings parkJob.pairs (walkSeen, lastLookDown)
    responder.Keeps sink ∧ ended.1.1.events = 0 ∧
      ((added.filter (·.1.isFailedRun)).flatMap (·.2)).length = 1 := by
  have keeps : (shaky .scripted noValues).Keeps
      fun w : Stores × List (Option StoreError) => w.1.events :=
    (Stores.keeps noValues).faulty .scripted
  obtain ⟨hsubjects, hevents, hsink⟩ := parkJob_ended
  have counted := events_counted (shaky .scripted noValues) (·.1.events) keeps parkSettings
    (fun _ => false) [parkJob] (walkSeen, lastLookDown)
  dsimp only at counted hsubjects hevents hsink ⊢
  rw [hsubjects, hevents, hsink] at counted
  obtain ⟨-, gained, -, counted, -⟩ := counted
  change _ = [] ++ List.flatMap _ _ at gained
  rw [List.nil_append] at gained
  rw [← gained, Nat.zero_add] at counted
  exact ⟨keeps, hevents, counted.symm⟩

/-- A batch does not count what was published by a run that fails. -/
theorem parkJob_untold :
    ¬ ∀ (settings : Settings) (cancelled : Nat → Bool) (jobs : List Job)
      (policy : FaultPolicy (List (Option StoreError))) (sampler : Sampler) (s : Stores)
      (m : List (Option StoreError)),
      let ended := (run settings cancelled jobs).exec (shaky policy sampler) (s, m)
      ended.2.1.events.length = s.events.length + ended.1.1.events := by
  intro h
  obtain ⟨-, hevents, hsink⟩ := parkJob_ended
  have counted := h parkSettings (fun _ => false) [parkJob] .scripted noValues walkSeen lastLookDown
  dsimp only at counted hevents hsink
  rw [hevents, hsink] at counted
  cases counted

end Batch

end Geotrack
