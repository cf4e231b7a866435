import Geotrack.Proofs.Analysis.Quiet

/-!
# Alerts and all-clears in turn

A finding of immobility or exposure is told of by what is on record: an alert of exposure only if
it says something new, an all-clear only after an alert. Where the findings of a subject under a
configuration come in the order of their times, the latest one on record is the one recorded last.
So over any course of runs each all-clear follows an alert, and exposure is told of once for a time
unless it is cleared: `all_clear_discipline`.
-/

namespace Geotrack

/-! ### Events in their order -/

/-- Whether events of the kind say that an alert is over. -/
def EventKind.clears : EventKind → Bool
  | .immobilityAllClear | .environmentalAllClear => true
  | _ => false

/-- A list grown by one is cut at the new entry or within the old ones. -/
theorem concat_cut {α : Type} {l front rest : List α} {x y : α}
    (h : l ++ [y] = front ++ x :: rest) :
    (rest = [] ∧ l = front ∧ y = x) ∨ ∃ rest', rest = rest' ++ [y] ∧ l = front ++ x :: rest' := by
  rcases List.eq_nil_or_concat rest with rfl | ⟨rest', z, rfl⟩
  · obtain ⟨hl, hy⟩ := List.append_inj' h rfl
    exact .inl ⟨rfl, hl, List.singleton_inj.mp hy⟩
  · rw [List.concat_eq_append, ← List.cons_append, ← List.append_assoc] at h
    obtain ⟨hl, hy⟩ := List.append_inj' h rfl
    obtain rfl := List.singleton_inj.mp hy
    exact .inr ⟨rest', List.concat_eq_append, hl⟩

namespace Event

/-- What an event of immobility or exposure asks of the events before it: an all-clear directly
follows an alert, and of two alerts of exposure at one time the first is cleared in between. -/
structure Fits (before : List Event) (e : Event) : Prop where
  cleared : e.kind.clears = true → ∃ d, before.getLast? = some d ∧ d.kind.clears = false
  apart : e.kind = .environmentalValue → ∀ front d mid, before = front ++ d :: mid →
    d.kind = .environmentalValue → d.time = e.time → ∃ c ∈ mid, c.kind.clears = true

/-- Whether each event fits those before it. -/
def Disciplined (events : List Event) : Prop :=
  ∀ before e after, events = before ++ e :: after → e.Fits before

theorem disciplined_nil : Disciplined [] := by
  intro before e after h
  simp at h

theorem disciplined_concat {events : List Event} {e : Event} (h : Disciplined events)
    (fits : e.Fits events) : Disciplined (events ++ [e]) := by
  intro before x after hcut
  rcases concat_cut hcut with ⟨-, rfl, rfl⟩ | ⟨after', -, hevents⟩
  · exact fits
  · exact h before x after' hevents

end Event

/-! ### One finding -/

/-- Whether an alert says something new after those on record. -/
def Finding.News (own : List Finding) (f : Finding) : Prop :=
  ∀ l, own.getLast? = some l → l.level ≠ .critical ∨ l.time < f.time

/-- What a finding adds to those on record for its subject and configuration, and to the events. -/
inductive Finding.Adds (own : List Finding) (f : Finding) : List Finding → List Event → Prop
  | alert {e : Event} (level : f.level = .critical) (kind : e.kind.clears = false)
    (time : e.time = f.time) (news : e.kind = .environmentalValue → f.News own) : Adds own f [f] [e]
  | repeated {l : Finding} (level : f.level = .critical) (last : own.getLast? = some l)
    (alerting : l.level = .critical) : Adds own f [f] []
  | clear {e : Event} {l : Finding} (level : f.level = .ok) (last : own.getLast? = some l)
    (alerting : l.level.alerting = true) (kind : e.kind.clears = true) : Adds own f [f] [e]
  | silent (level : f.level = .ok)
    (calm : ∀ l, own.getLast? = some l → l.level.alerting = false) : Adds own f [] []

/-- What holds of the findings that were made for a subject and a configuration, those of them on
record, and the events. -/
structure Balanced (made own : List Finding) (events : List Event) : Prop where
  recorded : own.Sublist made
  disciplined : Event.Disciplined events
  /-- While the last finding on record alerts the last event does. -/
  told : ∀ l, own.getLast? = some l → l.level.alerting = true →
    ∃ d, events.getLast? = some d ∧ d.kind.clears = false
  /-- An event that is not cleared is no later than the last finding on record, which alerts. -/
  pending : ∀ front d mid, events = front ++ d :: mid →
    (∀ e ∈ d :: mid, e.kind.clears = false) →
      ∃ l, own.getLast? = some l ∧ l.level = .critical ∧ d.time ≤ l.time

namespace Balanced

variable {made own more : List Finding} {events news : List Event} {f l : Finding} {e : Event}

theorem start : Balanced [] [] [] where
  recorded := .refl _
  disciplined := Event.disciplined_nil
  told := by simp
  pending front d mid h := by simp at h

theorem le_of_last (h : Balanced made own events) (later : ∀ g ∈ made, g.time ≤ f.time)
    (last : own.getLast? = some l) : l.time ≤ f.time :=
  later l (h.recorded.subset (List.mem_of_getLast? last))

theorem fits_alert (h : Balanced made own events) (kind : e.kind.clears = false)
    (time : e.time = f.time) (news : e.kind = .environmentalValue → f.News own) :
    e.Fits events where
  cleared clears := absurd (kind.symm.trans clears) Bool.false_ne_true
  apart value front d mid hcut hd same := by
    by_cases between : ∃ c ∈ mid, c.kind.clears = true
    · exact between
    have uncleared : ∀ c ∈ d :: mid, c.kind.clears = false := by
      intro c hc
      rcases List.mem_cons.mp hc with rfl | hc
      · rw [hd]; rfl
      · simpa using fun clears => between ⟨c, hc, clears⟩
    obtain ⟨l, last, critical, le⟩ := h.pending front d mid hcut uncleared
    rcases news value l last with other | lt
    · exact absurd critical other
    · exact absurd lt (Instant.not_lt.mpr (time ▸ same ▸ le))

/-- A finding keeps what holds of findings and events if none before it is later. -/
theorem adds (h : Balanced made own events) (adds : f.Adds own more news)
    (later : ∀ g ∈ made, g.time ≤ f.time) :
    Balanced (made ++ [f]) (own ++ more) (events ++ news) := by
  cases adds with
  | @alert e level kind time fresh =>
    refine ⟨h.recorded.append (.refl _),
      Event.disciplined_concat h.disciplined (h.fits_alert kind time fresh), ?_, ?_⟩
    · exact fun l _ _ => ⟨e, List.getLast?_concat, kind⟩
    · intro front d mid hcut uncleared
      refine ⟨f, List.getLast?_concat, level, ?_⟩
      rcases concat_cut hcut with ⟨-, -, rfl⟩ | ⟨mid', rfl, hevents⟩
      · exact time ▸ Instant.le_refl _
      · obtain ⟨l, last, -, le⟩ := h.pending front d mid' hevents
          fun e he => uncleared e (List.mem_append_left _ he)
        exact Instant.le_trans le (h.le_of_last later last)
  | @repeated l level last alerting =>
    rw [List.append_nil]
    refine ⟨h.recorded.append (.refl _), h.disciplined, ?_, ?_⟩
    · exact fun _ _ _ => h.told l last (by rw [alerting]; rfl)
    · intro front d mid hcut uncleared
      obtain ⟨l, last, -, le⟩ := h.pending front d mid hcut uncleared
      exact ⟨f, List.getLast?_concat, level, Instant.le_trans le (h.le_of_last later last)⟩
  | @clear e l level last alerting kind =>
    have fits : e.Fits events :=
      ⟨fun _ => h.told l last alerting, fun value => by rw [value] at kind; cases kind⟩
    refine ⟨h.recorded.append (.refl _), Event.disciplined_concat h.disciplined fits, ?_, ?_⟩
    · intro l' hl' alerts
      obtain rfl : f = l' := Option.some.inj (List.getLast?_concat.symm.trans hl')
      rw [level] at alerts
      cases alerts
    · intro front d mid hcut uncleared
      have hlast : (d :: mid).getLast? = some e := by
        have := congrArg List.getLast? hcut
        simpa [List.getLast?_append, List.getLast?_cons] using this.symm
      rw [uncleared e (List.mem_of_getLast? hlast)] at kind
      cases kind
  | silent level calm =>
    rw [List.append_nil, List.append_nil]
    exact ⟨h.recorded.trans (List.sublist_append_left _ _), h.disciplined, h.told, h.pending⟩

end Balanced

/-- Of findings in the order of their times the last one is the latest. -/
theorem Stores.latest_of_ordered {s : Stores} {subject config : Uuid}
    (h : (s.own subject config).Pairwise (·.time ≤ ·.time)) :
    s.latest subject config = (s.own subject config).getLast? := by
  have fold (b : Finding) (fs : List Finding) (h : (b :: fs).Pairwise (·.time ≤ ·.time)) :
      fs.foldl Finding.later (some b) = (b :: fs).getLast? := by
    induction fs generalizing b with
    | nil => rfl
    | cons f fs ih =>
      obtain ⟨le, ordered⟩ := List.pairwise_cons.mp h
      have hlater : Finding.later (some b) f = some f :=
        if_pos (by simpa using le f List.mem_cons_self)
      rw [List.foldl_cons, hlater, ih f ordered, List.getLast?_cons_cons]
  rw [latest_eq]
  cases hown : s.own subject config with
  | nil => rfl
  | cons b fs => exact fold b fs (hown ▸ h)

namespace Analyzer

variable {a : Analyzer} {s t : Stores} {f : Finding} {sampler : Sampler}

/-- An alert is told of unless it is one of exposure that says nothing new. -/
theorem eventKind?_of_alerting (single : a.task.kind = .immobility ∨ a.task.kind = .environmental)
    (last : Option Finding) (alerting : f.level.alerting = true) :
    (∃ kind, a.eventKind? last f = some kind ∧ kind.clears = false ∧
      (kind = .environmentalValue → exposureChanged last f = true)) ∨
    (a.eventKind? last f = none ∧ exposureChanged last f = false) := by
  unfold eventKind?
  cases ht : a.task with
  | geofence fences regions => simp [ht, Task.kind] at single
  | proximity settings features => simp [ht, Task.kind] at single
  | immobility settings => exact .inl ⟨.immobility, by simp [alerting], rfl, nofun⟩
  | environmental settings =>
    cases changed : exposureChanged last f with
    | true => exact .inl ⟨.environmentalValue, by simp [alerting], rfl, fun _ => rfl⟩
    | false => exact .inr ⟨by simp [alerting], rfl⟩

/-- What is no alert is told of if it clears one. -/
theorem eventKind?_of_calm (single : a.task.kind = .immobility ∨ a.task.kind = .environmental)
    (last : Option Finding) (calm : f.level.alerting = false) :
    if f.allClear last then ∃ kind, a.eventKind? last f = some kind ∧ kind.clears = true
    else a.eventKind? last f = none := by
  unfold eventKind?
  cases ht : a.task with
  | geofence fences regions => simp [ht, Task.kind] at single
  | proximity settings features => simp [ht, Task.kind] at single
  | immobility settings => split <;> simp [*, EventKind.clears]
  | environmental settings => split <;> simp [*, EventKind.clears]

section Settled

variable {own : List Finding} (single : a.task.kind = .immobility ∨ a.task.kind = .environmental)
  (last : a.last s = own.getLast?)

include single last

theorem adds_of_ok (ok : f.level = .ok) :
    f.Adds own (if a.records (a.last s) f then [f] else []) (a.published? s f).toList := by
  have calm : f.level.alerting = false := by rw [ok]; rfl
  have hkind := eventKind?_of_calm single own.getLast? calm
  rw [published?_of_single single, event?, records_of_single single, last, calm]
  cases hclear : f.allClear own.getLast? with
  | true =>
    rw [hclear, if_pos rfl] at hkind
    obtain ⟨kind, hkind, clears⟩ := hkind
    obtain ⟨l, hl, alerting⟩ : ∃ l, own.getLast? = some l ∧ l.level.alerting = true := by
      simpa [Finding.allClear, ok, Option.any_eq_true] using hclear
    rw [hkind]
    exact .clear ok hl alerting clears
  | false =>
    rw [hclear, if_neg Bool.false_ne_true] at hkind
    rw [hkind]
    refine .silent ok fun l hl => ?_
    simpa [Finding.allClear, ok, hl] using hclear

theorem adds_of_critical (critical : f.level = .critical) :
    f.Adds own (if a.records (a.last s) f then [f] else []) (a.published? s f).toList := by
  have alerting : f.level.alerting = true := by rw [critical]; rfl
  rw [published?_of_single single, event?, records_of_single single, last, alerting, Bool.true_or,
    if_pos rfl]
  rcases eventKind?_of_alerting single own.getLast? alerting with
    ⟨kind, hkind, calls, fresh⟩ | ⟨hkind, old⟩
  · rw [hkind]
    refine .alert critical calls rfl fun value l hl => ?_
    simpa [exposureChanged, hl, critical] using fresh value
  · rw [hkind]
    obtain ⟨l, hl, same, -⟩ : ∃ l, own.getLast? = some l ∧ l.level = f.level ∧ _ := by
      simpa [exposureChanged, Option.all_eq_false] using old
    exact .repeated critical hl (same.trans critical)

end Settled

/-! ### Runs -/

/-- A finding is of the analyzer's subject and configuration. -/
def Owns (a : Analyzer) (f : Finding) : Prop :=
  f.subject = a.subject.id ∧ f.analyzer.config = a.config.id

theorem owns_found {given : Option (List Observation)} {filter : TrackFilter Float}
    {fs : List Finding} (h : a.found s sampler given filter = .ok fs) : ∀ f ∈ fs, a.Owns f := by
  cases ht : a.task with
  | geofence fences regions =>
    rw [found, sampled, ht] at h
    cases h
    exact List.forall_mem_map.mpr fun c _ => ⟨rfl, rfl⟩
  | proximity settings features =>
    rw [found, sampled, ht] at h
    cases h
    exact List.forall_mem_map.mpr fun c _ => ⟨rfl, rfl⟩
  | immobility settings =>
    obtain ⟨f, rfl, own⟩ := found_single (.inl (by rw [ht]; rfl)) h
    exact List.forall_mem_singleton.mpr own
  | environmental settings =>
    obtain ⟨f, rfl, own⟩ := found_single (.inr (by rw [ht]; rfl)) h
    exact List.forall_mem_singleton.mpr own

theorem settled_findings : (a.settled s f).findings =
    s.findings ++ if a.records (a.last s) f then [f] else [] := by
  rw [← recorded_findings, ← posted_findings]
  unfold settled
  split
  · obtain ⟨pauses, h, -⟩ := a.exists_paused (a.posted s f)
    rw [h]
  · rfl

/-- Settled findings are on record for the analyzer's own subject and configuration. -/
theorem own_settled (own : a.Owns f) :
    (a.settled s f).own a.subject.id a.config.id =
      s.own a.subject.id a.config.id ++ if a.records (a.last s) f then [f] else [] := by
  rw [Stores.own, Stores.own, settled_findings, List.filter_append]
  split
  · rw [List.filter_cons_of_pos (by simp [own.1, own.2])]
    rfl
  · rfl

theorem own_foldl_settled_other {subject config : Uuid}
    (other : ¬ (a.subject.id = subject ∧ a.config.id = config)) {fs : List Finding}
    (own : ∀ f ∈ fs, a.Owns f) :
    (fs.foldl a.settled s).own subject config = s.own subject config := by
  induction fs generalizing s with
  | nil => rfl
  | cons f fs ih =>
    obtain ⟨hsubject, hconfig⟩ := own f List.mem_cons_self
    rw [List.foldl_cons, ih fun g hg => own g (List.mem_cons_of_mem _ hg), Stores.own, Stores.own,
      settled_findings, List.filter_append]
    split
    · rw [List.filter_cons_of_neg (by simpa [hsubject, hconfig] using other)]
      exact List.append_nil _
    · exact List.append_nil _

theorem outcomes_finding (fs : List Finding) : (a.outcomes s fs).map (·.finding) = fs := by
  induction fs generalizing s with
  | nil => rfl
  | cons f fs ih => exact congrArg (f :: ·) ih

/-- A run that has come to its end: the stores before it, and what became of its findings. -/
structure Report where
  analyzer : Analyzer
  before : Stores
  outcomes : List Outcome

namespace Report

def findings (x : Report) : List Finding := x.outcomes.map (·.finding)

def events (x : Report) : List Event := x.outcomes.filterMap (·.event)

/-- Whether the run was of an analyzer of a subject and a configuration. -/
def isFor (subject config : Uuid) (x : Report) : Bool :=
  x.analyzer.subject.id = subject && x.analyzer.config.id = config

/-- Whether the run clears an alert exactly if it finds that all is well while the last finding on
record for a subject and a configuration alerts. -/
def ClearsDuly (subject config : Uuid) (x : Report) : Prop :=
  (∃ e ∈ x.events, e.kind.clears = true) ↔ (∃ f ∈ x.findings, f.level = .ok) ∧
    ∃ l, (x.before.own subject config).getLast? = some l ∧ l.level.alerting = true

end Report

/-- Runs of any analyzers that have all come to their ends, over stores that had neither findings
nor events on record to begin with. In between anything but these may change. -/
inductive Course : Stores → List Report → Prop
  | start {s : Stores} (unrecorded : s.findings = []) (unpublished : s.events = []) : Course s []
  | change {s t : Stores} {reports : List Report} (course : Course s reports)
    (recorded : t.findings = s.findings) (published : t.events = s.events) : Course t reports
  | run {s t : Stores} {reports : List Report} (course : Course s reports) (a : Analyzer)
    (sampler : Sampler) (given : Option (List Observation)) (filter : TrackFilter Float)
    (outcomes : List Outcome)
    (ended : (a.run given filter).exec (Stores.responder sampler) s = (.ok outcomes, t)) :
    Course t (reports ++ [⟨a, s, outcomes⟩])

/-- A run that comes to its end settles its findings. -/
theorem settled_of_ended {given : Option (List Observation)} {filter : TrackFilter Float}
    {outcomes : List Outcome}
    (h : (a.run given filter).exec (Stores.responder sampler) s = (.ok outcomes, t)) :
    ∃ fs, a.found s sampler given filter = .ok fs ∧ outcomes = a.outcomes s fs ∧
      t = fs.foldl a.settled s := by
  rw [exec_run] at h
  cases hf : a.found s sampler given filter with
  | error e => rw [hf] at h; cases h
  | ok fs => rw [hf] at h; cases h; exact ⟨fs, rfl, rfl, rfl⟩

theorem Course.events_eq {reports : List Report} (course : Course s reports) :
    s.events = reports.flatMap (·.events) := by
  induction course with
  | start unrecorded unpublished => rw [unpublished]; rfl
  | change course recorded published ih => rw [published, ih]
  | run course a sampler given filter outcomes ended ih =>
    obtain ⟨fs, -, rfl, rfl⟩ := settled_of_ended ended
    rw [foldl_settled_events, ih, List.flatMap_append, List.flatMap_singleton]
    rfl

/-- What a run for a subject and a configuration of immobility or exposure adds. -/
theorem adds_of_ended (single : a.task.kind = .immobility ∨ a.task.kind = .environmental)
    {given : Option (List Observation)} {filter : TrackFilter Float} {outcomes : List Outcome}
    (h : (a.run given filter).exec (Stores.responder sampler) s = (.ok outcomes, t))
    (ordered : (s.own a.subject.id a.config.id).Pairwise (·.time ≤ ·.time)) :
    let x : Report := ⟨a, s, outcomes⟩
    ∃ f more, x.findings = [f] ∧ f.Adds (s.own a.subject.id a.config.id) more x.events ∧
      t.own a.subject.id a.config.id = s.own a.subject.id a.config.id ++ more := by
  obtain ⟨fs, hfound, rfl, rfl⟩ := settled_of_ended h
  obtain ⟨f, rfl, subject, config, level⟩ := found_single_level single hfound
  have last := Stores.latest_of_ordered ordered
  have adds := level.elim (adds_of_ok single last) (adds_of_critical single last)
  refine ⟨f, _, outcomes_finding [f], ?_, own_settled ⟨subject, config⟩⟩
  have events : (⟨a, s, a.outcomes s [f]⟩ : Report).events = (a.published? s f).toList := by
    change [a.published? s f].filterMap id = _
    cases a.published? s f <;> rfl
  rw [events]
  exact adds

end Analyzer

/-- A run clears an alert exactly if its finding says that all is well while an alert stands. -/
theorem Finding.Adds.clears_iff {own more : List Finding} {events : List Event} {f : Finding}
    (adds : f.Adds own more events) : (∃ e ∈ events, e.kind.clears = true) ↔
      f.level = .ok ∧ ∃ l, own.getLast? = some l ∧ l.level.alerting = true := by
  cases adds with
  | alert level kind => simp [level, kind]
  | repeated level last alerting => simp [level]
  | @clear e l level last alerting kind => simp [level, kind, last, alerting]
  | silent level calm =>
    simp only [List.not_mem_nil, false_and, exists_false, level, true_and, false_iff]
    rintro ⟨l, last, alerting⟩
    rw [calm l last] at alerting
    cases alerting

namespace Analyzer

variable {s : Stores} {reports : List Report} {subject : Uuid} {config : AnalyzerConfig}

/-- A course keeps the findings and events of a subject and a configuration in balance. -/
theorem Course.balanced (course : Course s reports)
    (single : config.kind = .immobility ∨ config.kind = .environmental)
    (steady : ∀ x ∈ reports, x.analyzer.config.id = config.id → x.analyzer.config = config)
    (ordered : ((reports.filter (·.isFor subject config.id)).flatMap (·.findings)).Pairwise
      (·.time ≤ ·.time)) :
    Balanced ((reports.filter (·.isFor subject config.id)).flatMap (·.findings))
      (s.own subject config.id) ((reports.filter (·.isFor subject config.id)).flatMap (·.events)) ∧
    ∀ x ∈ reports.filter (·.isFor subject config.id), x.ClearsDuly subject config.id := by
  induction course with
  | start unrecorded unpublished =>
    rw [Stores.own, unrecorded]
    exact ⟨.start, by simp⟩
  | change course recorded published ih =>
    rw [Stores.own, recorded]
    exact ih steady ordered
  | @run s t reports course a sampler given filter outcomes ended ih =>
    rw [List.filter_append, List.flatMap_append] at ordered ⊢
    rw [List.flatMap_append]
    obtain ⟨before, last, later⟩ := List.pairwise_append.mp ordered
    obtain ⟨balanced, duly⟩ := ih (fun x hx => steady x (List.mem_append_left _ hx)) before
    let x : Report := ⟨a, s, outcomes⟩
    by_cases own : a.subject.id = subject ∧ a.config.id = config.id
    · have hx : [x].filter (·.isFor subject config.id) = [x] :=
        List.filter_cons_of_pos (by simpa [x, Report.isFor] using own)
      obtain ⟨rfl, hconfig⟩ := own
      obtain rfl : a.config = config := steady x (by simp [x]) hconfig
      obtain ⟨f, more, made, adds, added⟩ := adds_of_ended (a.kind_eq ▸ single) ended
        (before.sublist balanced.recorded)
      rw [hx, List.flatMap_singleton, made] at later
      rw [hx, List.flatMap_singleton, List.flatMap_singleton, made, added]
      refine ⟨balanced.adds adds fun g hg => later g hg f List.mem_cons_self, ?_⟩
      refine List.forall_mem_append.mpr ⟨duly, List.forall_mem_singleton.mpr ?_⟩
      rw [Report.ClearsDuly, adds.clears_iff, made]
      simp [x]
    · have hx : [x].filter (·.isFor subject config.id) = [] :=
        List.filter_cons_of_neg (by simpa [x, Report.isFor] using own)
      obtain ⟨fs, hfound, -, rfl⟩ := settled_of_ended ended
      rw [hx, own_foldl_settled_other own (owns_found hfound)]
      simp only [List.flatMap_nil, List.append_nil]
      exact ⟨balanced, duly⟩

/-- Over runs that all come to their ends, the events are those that the runs publish. Where a
configuration watches immobility or exposure, its id names no other one, and the findings for it and
a subject come in the order of their times: each all-clear among their events directly follows an
alert, an all-clear stands between any two alerts of exposure at one time, and a run clears an alert
exactly if it finds that all is well while the finding recorded last alerts. -/
theorem all_clear_discipline (course : Course s reports) (subject : Uuid) (config : AnalyzerConfig)
    (single : config.kind = .immobility ∨ config.kind = .environmental)
    (steady : ∀ x ∈ reports, x.analyzer.config.id = config.id → x.analyzer.config = config)
    (ordered : ((reports.filter (·.isFor subject config.id)).flatMap (·.findings)).Pairwise
      (·.time ≤ ·.time)) :
    s.events = reports.flatMap (·.events) ∧
    (∀ before e after,
      (reports.filter (·.isFor subject config.id)).flatMap (·.events) = before ++ e :: after →
        e.Fits before) ∧
    ∀ x ∈ reports.filter (·.isFor subject config.id), x.ClearsDuly subject config.id :=
  ⟨course.events_eq, (course.balanced single steady ordered).1.disciplined,
    (course.balanced single steady ordered).2⟩

/-! ### An exposure that is cleared and comes back -/

/-- The report of a run that watches one position of the subject. -/
def sightingReport (sampler : Sampler) (s : Stores) : Report where
  analyzer := footprintWatch
  before := s
  outcomes :=
    (((footprintWatch.run sighting {}).exec (Stores.responder sampler) s).1.toOption).getD []

/-- The stores after such a run. -/
def sighted (sampler : Sampler) (s : Stores) : Stores :=
  ((footprintWatch.run sighting {}).exec (Stores.responder sampler) s).2

theorem Course.sighted {s : Stores} {reports : List Report} (course : Course s reports)
    (sampler : Sampler) (found : (footprintWatch.found s sampler sighting {}).isOk = true) :
    Course (sighted sampler s) (reports ++ [sightingReport sampler s]) := by
  obtain ⟨fs, hfs⟩ : ∃ fs, footprintWatch.found s sampler sighting {} = .ok fs := by
    cases h : footprintWatch.found s sampler sighting {} with
    | error e => rw [h] at found; cases found
    | ok fs => exact ⟨fs, rfl⟩
  obtain ⟨outcomes, t, ht, -⟩ := run_ok hfs
  have hreport : sightingReport sampler s = ⟨footprintWatch, s, outcomes⟩ := by
    rw [sightingReport, ht]
    rfl
  rw [hreport]
  exact .run course footprintWatch sampler sighting {} outcomes (by rw [ht, Analyzer.sighted, ht])

/-- High, low and high again at one time. -/
def alertedAgain : List Report :=
  let first := sighted highValues { now := .epoch }
  [sightingReport highValues { now := .epoch }, sightingReport noValues first,
    sightingReport highValues (sighted noValues first)]

theorem all_clear_discipline_alertedAgain : ∃ s, Course s alertedAgain ∧
    (∀ x ∈ alertedAgain, x.analyzer.config = footprintWatch.config) ∧
    s.events.map (·.kind) = [.environmentalValue, .environmentalAllClear, .environmentalValue] ∧
    s.events = alertedAgain.flatMap (·.events) ∧
    (∀ before e after,
      (alertedAgain.filter (·.isFor .nil footprintWatch.config.id)).flatMap (·.events) =
        before ++ e :: after → e.Fits before) ∧
    ∀ x ∈ alertedAgain.filter (·.isFor .nil footprintWatch.config.id),
      x.ClearsDuly .nil footprintWatch.config.id := by
  have course : Course
      (sighted highValues (sighted noValues (sighted highValues { now := .epoch }))) alertedAgain :=
    (((Course.start rfl rfl).sighted highValues (by decide +kernel)).sighted noValues
      (by decide +kernel)).sighted highValues (by decide +kernel)
  have steady : ∀ x ∈ alertedAgain, x.analyzer.config = footprintWatch.config := by
    simp [alertedAgain, sightingReport]
  have ordered : ((alertedAgain.filter (·.isFor .nil footprintWatch.config.id)).flatMap
      (·.findings)).Pairwise (·.time ≤ ·.time) := by
    decide +kernel
  exact ⟨_, course, steady, by decide +kernel,
    all_clear_discipline course .nil footprintWatch.config (.inr rfl) (fun x hx _ => steady x hx)
      ordered⟩

end Analyzer

end Geotrack
