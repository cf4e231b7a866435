import Geotrack.Proofs.Analysis.Exec

/-!
# What settling findings does to the stores

`Analyzer.posted` is the effect of a finding on record and events, as a function. `settle_cases`
says that settling a finding has this effect or fails at one of its calls, whichever calls fail, and
`settleAll_cases` says the same of a list of findings.
-/

namespace Geotrack

/-- The stores without their pauses, on which no finding depends. -/
def Stores.unpaused (s : Stores) : Stores := { s with pauses := [] }

theorem Stores.unpaused_eq_iff {s t : Stores} : s.unpaused = t.unpaused ↔
    s.now = t.now ∧ s.observations = t.observations ∧ s.findings = t.findings ∧
      s.events = t.events := by
  simp [unpaused]

/-- The later one of the best finding so far and a new one. -/
def Finding.later (best : Option Finding) (f : Finding) : Option Finding :=
  if best.all (·.time ≤ f.time) then some f else best

namespace Stores

/-- The findings on record for a subject under a configuration. -/
def own (s : Stores) (subject config : Uuid) : List Finding :=
  s.findings.filter fun f => f.subject = subject && f.analyzer.config = config

theorem latest_eq (s : Stores) (subject config : Uuid) :
    s.latest subject config = (s.own subject config).foldl Finding.later none := by
  unfold latest own
  dsimp only
  congr 1
  funext best f
  cases best with
  | none => rfl
  | some b => by_cases h : b.time ≤ f.time <;> simp [Finding.later, h]

/-- Of two findings of one time the one recorded later is the latest. -/
theorem latest_record (s : Stores) (f : Finding) :
    (s.record f).latest f.subject f.analyzer.config =
      Finding.later (s.latest f.subject f.analyzer.config) f := by
  simp only [latest_eq, own, record, List.filter_append, List.foldl_append]
  rw [List.filter_cons_of_pos (by simp)]
  rfl

end Stores

namespace Analyzer

/-- The latest finding on record for the analyzer's subject and configuration. -/
def last (a : Analyzer) (s : Stores) : Option Finding := s.latest a.subject.id a.config.id

/-- The stores once a finding is on record, if it is worth it. -/
def recorded (a : Analyzer) (s : Stores) (this : Finding) : Stores :=
  if a.records (a.last s) this then s.record this else s

/-- The event that settling a finding publishes. -/
def published? (a : Analyzer) (s : Stores) (this : Finding) : Option Event :=
  (a.event? (a.last s) this).filter fun e => !(a.skipsKnownEvents && s.knows e)

/-- The stores once a finding is settled, but for the pause that follows an event. -/
def posted (a : Analyzer) (s : Stores) (this : Finding) : Stores :=
  match a.published? s this with
  | none => a.recorded s this
  | some e => (a.recorded s this).publish e

variable (a : Analyzer) (s : Stores) (this : Finding)

theorem recorded_findings : (a.recorded s this).findings =
    s.findings ++ if a.records (a.last s) this then [this] else [] := by
  unfold recorded
  split <;> simp [Stores.record]

@[simp] theorem recorded_events : (a.recorded s this).events = s.events := by
  unfold recorded
  split <;> rfl

@[simp] theorem posted_findings : (a.posted s this).findings = (a.recorded s this).findings := by
  unfold posted
  split <;> rfl

@[simp] theorem posted_events : (a.posted s this).events =
    s.events ++ (a.published? s this).toList := by
  unfold posted
  cases a.published? s this <;> simp [Stores.publish]

@[simp] theorem recorded_now : (a.recorded s this).now = s.now := by
  unfold recorded
  split <;> rfl

@[simp] theorem recorded_observations : (a.recorded s this).observations = s.observations := by
  unfold recorded
  split <;> rfl

theorem recorded_unpaused : (a.recorded s this).unpaused = a.recorded s.unpaused this := by
  unfold recorded
  split <;> split <;> simp_all [last, Stores.unpaused, Stores.latest, Stores.record]

@[simp] theorem posted_now : (a.posted s this).now = s.now := by
  unfold posted
  split <;> simp [Stores.publish]

@[simp] theorem posted_observations : (a.posted s this).observations = s.observations := by
  unfold posted
  split <;> simp [Stores.publish]

theorem posted_unpaused : (a.posted s this).unpaused = a.posted s.unpaused this := by
  have h : a.published? s.unpaused this = a.published? s this := rfl
  unfold posted
  rw [h, ← recorded_unpaused]
  cases a.published? s this <;> rfl

variable {a s this} in
theorem last_recorded (hsubject : this.subject = a.subject.id)
    (hconfig : this.analyzer.config = a.config.id) (records : a.records (a.last s) this = true) :
    a.last (a.recorded s this) = Finding.later (a.last s) this := by
  rw [recorded, if_pos records, last, last, ← hsubject, ← hconfig]
  exact Stores.latest_record s this

variable {a s} in
theorem last_of_findings {t : Stores} (h : t.findings = s.findings) : a.last t = a.last s := by
  simp only [last, Stores.latest, h]

variable {s} in
theorem last_congr {t : Stores} (h : s.unpaused = t.unpaused) : a.last s = a.last t :=
  last_of_findings (Stores.unpaused_eq_iff.mp h).2.2.1

variable {s} in
theorem published?_congr {t : Stores} (h : s.unpaused = t.unpaused) :
    a.published? s this = a.published? t this := by
  change a.published? s.unpaused this = a.published? t.unpaused this
  rw [h]

variable {a s this} in
theorem published?_of_event {e : Event} (h : a.event? (a.last s) this = some e) :
    a.published? s this = if a.skipsKnownEvents && s.knows e then none else some e := by
  rw [published?, h, Option.filter_some]
  cases a.skipsKnownEvents && s.knows e <;> rfl

/-! ### Settling one finding -/

/-- Records a finding, if it is worth it. -/
def keep (last : Option Finding) : Analysis Unit :=
  if a.records last this then Analysis.ask (.record this) else pure ()

/-- Publishes the event of a finding and starts the pause after it. -/
def announce (event : Option Event) : Analysis Outcome :=
  match event with
  | none => return ⟨this, none⟩
  | some event => do
    if ← a.isKnown event then return ⟨this, none⟩
    else
      Analysis.ask (.publish event)
      a.pause
      return ⟨this, some event⟩

theorem settle_eq : a.settle this =
    Analysis.ask (.latest a.subject.id a.config.id) >>= fun last =>
      a.keep this last >>= fun _ => a.announce this (a.event? last this) := by
  unfold settle
  congr 1
  funext last
  cases h : a.records last this with
  | true => simp only [keep, h, if_true]; rfl
  | false => simp only [keep, h, Bool.false_eq_true, if_false]; rfl

section Faults

variable {τ : Type} (policy : FaultPolicy τ) (sampler : Sampler)

/-- The stores with calls that fail. -/
abbrev shaky : Responder (Stores × τ) := (Stores.responder sampler).faulty policy

/-- How settling a finding can end: it is settled, or the call named by the case has failed. -/
inductive Settles : Except AnalysisError Outcome → Stores → τ → Prop
  | settled {t : Stores} {n : τ} (same : t.unpaused = (a.posted s this).unpaused) :
    Settles (.ok ⟨this, a.published? s this⟩) t n
  | unread {m n : τ} {e : StoreError}
    (fault : policy.fault (.latest a.subject.id a.config.id) m = (some e, n)) :
    Settles (.error (.call .loadHistory e)) s n
  | unrecorded {m n : τ} {e : StoreError} (records : a.records (a.last s) this = true)
    (fault : policy.fault (.record this) m = (some e, n)) :
    Settles (.error (.call .recordResult e)) s n
  | unchecked {m n : τ} {e : StoreError} {event : Event}
    (call : a.event? (a.last s) this = some event)
    (fault : policy.fault (.known event) m = (some e, n)) :
    Settles (.error (.call .createEvent e)) (a.recorded s this) n
  | unpublished {m n : τ} {e : StoreError} {event : Event}
    (call : a.published? s this = some event)
    (fault : policy.fault (.publish event) m = (some e, n)) :
    Settles (.error (.call .createEvent e)) (a.recorded s this) n

variable {a s this policy sampler} {t u : Stores} {m n : τ}

theorem keep_cases {r : Except AnalysisError Unit}
    (h : (a.keep this (a.last s)).exec (shaky policy sampler) (s, m) = (r, (t, n))) :
    (r = .ok () ∧ t = a.recorded s this) ∨
      ∃ e, a.records (a.last s) this = true ∧ policy.fault (.record this) m = (some e, n) ∧
        r = .error (.call .recordResult e) ∧ t = s := by
  unfold keep at h
  cases hr : a.records (a.last s) this with
  | true =>
    rw [if_pos hr] at h
    rcases Analysis.exec_faulty_ask h with ⟨e, fault, rfl, rfl⟩ | ⟨rfl, rfl⟩
    · exact .inr ⟨e, rfl, fault, rfl, rfl⟩
    · exact .inl ⟨rfl, by rw [recorded, if_pos hr]; rfl⟩
  | false =>
    rw [if_neg (by simp [hr])] at h
    cases h
    exact .inl ⟨rfl, by rw [recorded, if_neg (by simp [hr])]⟩

theorem isKnown_cases {event : Event} {r : Except AnalysisError Bool}
    (h : (a.isKnown event).exec (shaky policy sampler) (s, m) = (r, (t, n))) :
    t = s ∧ (r = .ok (a.skipsKnownEvents && s.knows event) ∨
      ∃ e, policy.fault (.known event) m = (some e, n) ∧ r = .error (.call .createEvent e)) := by
  unfold isKnown at h
  cases hs : a.skipsKnownEvents with
  | true =>
    rw [if_pos hs] at h
    rcases Analysis.exec_faulty_ask h with ⟨e, fault, rfl, rfl⟩ | ⟨rfl, rfl⟩
    · exact ⟨rfl, .inr ⟨e, fault, rfl⟩⟩
    · exact ⟨rfl, .inl rfl⟩
  | false =>
    rw [if_neg (by simp [hs])] at h
    cases h
    exact ⟨rfl, .inl rfl⟩

theorem answer_pause (key : String) (length : Int) :
    ((shaky policy sampler).answer (.pause key length) (s, m)).2.1.unpaused = s.unpaused := by
  simp only [Responder.faulty]
  rcases policy.fault (.pause key length) m with ⟨_ | e, m'⟩
  · change (Stores.answer sampler (.pause key length) s).2.unpaused = _
    cases hp : s.now.plus? length <;> simp [Stores.answer, Stores.pause, hp, Stores.unpaused]
  · rfl

/-- Starting a pause never fails and touches nothing but pauses. -/
theorem pause_cases {r : Except AnalysisError Unit}
    (h : a.pause.exec (shaky policy sampler) (s, m) = (r, (t, n))) :
    r = .ok () ∧ t.unpaused = s.unpaused := by
  unfold pause at h
  cases hq : a.config.quietPeriod with
  | none =>
    rw [hq] at h
    cases h
    exact ⟨rfl, rfl⟩
  | some length =>
    rw [hq] at h
    refine ⟨(congrArg Prod.fst h).symm, ?_⟩
    have ht : ((shaky policy sampler).answer
        (.pause (quietKey a.config.id a.subject.id) length) (s, m)).2.1 = t := congrArg (·.2.1) h
    rw [← ht]
    exact answer_pause _ _

/-- A finding that is on record is announced or one of the calls for its event fails. -/
theorem announce_cases {r : Except AnalysisError Outcome}
    (h : (a.announce this (a.event? (a.last s) this)).exec (shaky policy sampler)
      (a.recorded s this, m) = (r, (t, n))) : a.Settles s this policy r t n := by
  have hknows (event : Event) : (a.recorded s this).knows event = s.knows event := by
    simp [Stores.knows]
  unfold announce at h
  cases he : a.event? (a.last s) this with
  | none =>
    rw [he] at h
    have hp : a.published? s this = none := by simp [published?, he]
    cases h
    rw [← hp]
    exact .settled (by simp [posted, hp])
  | some event =>
    rw [he] at h
    change (a.isKnown event >>= fun _ => _).exec _ _ = _ at h
    rw [Analysis.exec_bind] at h
    rcases hk : (a.isKnown event).exec (shaky policy sampler) (a.recorded s this, m)
      with ⟨k, t₁, m₁⟩
    rw [hk] at h
    obtain ⟨rfl, rfl | ⟨e, fault, rfl⟩⟩ := isKnown_cases hk
    · rw [hknows] at h
      cases hs : a.skipsKnownEvents && s.knows event with
      | true =>
        have hp : a.published? s this = none := by rw [published?_of_event he, if_pos hs]
        rw [hs] at h
        cases h
        rw [← hp]
        exact .settled (by simp [posted, hp])
      | false =>
        have hp : a.published? s this = some event := by
          rw [published?_of_event he, if_neg (by simp [hs])]
        rw [hs] at h
        change (Analysis.ask (.publish event) >>= fun _ => _).exec _ _ = _ at h
        rw [Analysis.exec_bind] at h
        rcases hq : (Analysis.ask (.publish event)).exec (shaky policy sampler)
          (a.recorded s this, m₁) with ⟨q, t₂, m₂⟩
        rw [hq] at h
        rcases Analysis.exec_faulty_ask hq with ⟨e, fault, rfl, ht⟩ | ⟨rfl, ht⟩
        · subst t₂
          cases h
          exact .unpublished hp fault
        · change (a.pause >>= fun _ => _).exec (shaky policy sampler) (t₂, m₂) = _ at h
          rw [Analysis.exec_bind] at h
          rcases hu : a.pause.exec (shaky policy sampler) (t₂, m₂) with ⟨u, t₃, m₃⟩
          rw [hu] at h
          obtain ⟨rfl, unpaused⟩ := pause_cases hu
          cases h
          rw [← hp]
          refine .settled (unpaused.trans ?_)
          rw [ht, posted, hp]
          rfl
    · cases h
      exact .unchecked he fault

/-- Settling a finding settles it or fails at one of its calls. -/
theorem settle_cases {r : Except AnalysisError Outcome}
    (h : (a.settle this).exec (shaky policy sampler) (s, m) = (r, (t, n))) :
    a.Settles s this policy r t n := by
  rw [settle_eq, Analysis.exec_bind] at h
  rcases hl : (Analysis.ask (.latest a.subject.id a.config.id)).exec (shaky policy sampler) (s, m)
    with ⟨l, t₁, m₁⟩
  rw [hl] at h
  rcases Analysis.exec_faulty_ask hl with ⟨e, fault, rfl, ht⟩ | ⟨rfl, ht⟩
  · subst t₁
    cases h
    exact .unread fault
  · change t₁ = s at ht
    subst t₁
    change (a.keep this (a.last s) >>= fun _ => _).exec (shaky policy sampler) (s, m₁) = _ at h
    rw [Analysis.exec_bind] at h
    rcases hk : (a.keep this (a.last s)).exec (shaky policy sampler) (s, m₁) with ⟨k, t₂, m₂⟩
    rw [hk] at h
    rcases keep_cases hk with ⟨rfl, rfl⟩ | ⟨e, records, fault, rfl, ht⟩
    · exact announce_cases h
    · subst t₂
      cases h
      exact .unrecorded records fault

/-! ### Settling a list of findings -/

theorem foldl_posted_unpaused (fs : List Finding) :
    (fs.foldl a.posted s).unpaused = fs.foldl a.posted s.unpaused := by
  induction fs generalizing s with
  | nil => rfl
  | cons f fs ih => rw [List.foldl_cons, ih, posted_unpaused]; rfl

theorem foldl_posted_now (fs : List Finding) : (fs.foldl a.posted s).now = s.now := by
  induction fs generalizing s with
  | nil => rfl
  | cons f fs ih => rw [List.foldl_cons, ih, posted_now]

theorem foldl_posted_observations (fs : List Finding) :
    (fs.foldl a.posted s).observations = s.observations := by
  induction fs generalizing s with
  | nil => rfl
  | cons f fs ih => rw [List.foldl_cons, ih, posted_observations]

/-- Settling a list of findings settles all of them or fails at one, with those before it
settled. -/
theorem settleAll_cases {fs : List Finding} {r : Except AnalysisError (List Outcome)}
    (h : (fs.mapM a.settle).exec (shaky policy sampler) (s, m) = (r, (t, n))) :
    (∃ outcomes, r = .ok outcomes ∧ t.unpaused = (fs.foldl a.posted s).unpaused) ∨
      ∃ before f after e s₁, fs = before ++ f :: after ∧
        s₁.unpaused = (before.foldl a.posted s).unpaused ∧ r = .error e ∧
        a.Settles s₁ f policy (.error e) t n := by
  induction fs generalizing s t m n r with
  | nil =>
    cases h
    exact .inl ⟨[], rfl, rfl⟩
  | cons f fs ih =>
    rw [List.mapM_cons, Analysis.exec_bind] at h
    rcases hf : (a.settle f).exec (shaky policy sampler) (s, m) with ⟨e | o, t₁, m₁⟩
    · rw [hf] at h
      cases h
      exact .inr ⟨[], f, fs, e, s, rfl, rfl, rfl, settle_cases hf⟩
    · rw [hf] at h
      have same : t₁.unpaused = (a.posted s f).unpaused := by
        cases settle_cases hf with
        | settled same => exact same
      have step (gs : List Finding) : (gs.foldl a.posted t₁).unpaused =
          ((f :: gs).foldl a.posted s).unpaused := by
        rw [foldl_posted_unpaused, same, ← foldl_posted_unpaused, List.foldl_cons]
      change (fs.mapM a.settle >>= fun _ => _).exec _ _ = _ at h
      rw [Analysis.exec_bind] at h
      rcases hr : (fs.mapM a.settle).exec (shaky policy sampler) (t₁, m₁) with ⟨r', t₂, m₂⟩
      rw [hr] at h
      rcases ih hr with ⟨outcomes, rfl, h₂⟩ | ⟨before, g, after, e, s₁, rfl, hs₁, rfl, failed⟩
      · cases h
        exact .inl ⟨o :: outcomes, rfl, h₂.trans (step fs)⟩
      · cases h
        exact .inr ⟨f :: before, g, after, e, s₁, rfl, hs₁.trans (step before), rfl, failed⟩

/-- Without failures all findings are settled. -/
theorem settleAll_ok (fs : List Finding) :
    ∃ outcomes t, (fs.mapM a.settle).exec (Stores.responder sampler) s = (.ok outcomes, t) ∧
      t.unpaused = (fs.foldl a.posted s).unpaused := by
  rcases h : (fs.mapM a.settle).exec (Stores.responder sampler) s with ⟨r, t⟩
  have hc := Analysis.exec_calm (Stores.responder sampler) (fs.mapM a.settle) s
  rw [h] at hc
  rcases settleAll_cases hc with ⟨outcomes, rfl, ht⟩ | ⟨_, _, _, _, _, _, _, _, failed⟩
  · exact ⟨outcomes, t, rfl, ht⟩
  · cases failed <;> rename_i fault <;> cases fault

/-! ### Whole runs -/

variable (a s) in
/-- The observations that a run analyzes when nothing fails. -/
def observed (given : Option (List Observation)) : List Observation :=
  match given with
  | some (o :: os) => o :: os
  | _ => s.observationsOf a.subject.id a.defaultWindow

variable (a) in
/-- The part of a run before any finding is settled. -/
def prepare (given : Option (List Observation)) (filter : TrackFilter Float) :
    Analysis (List Finding) :=
  a.observations given >>= fun observations => a.findings (a.trajectory observations filter)

theorem run_eq (given : Option (List Observation)) (filter : TrackFilter Float) :
    a.run given filter = a.prepare given filter >>= fun findings => findings.mapM a.settle := by
  rw [prepare, bind_assoc]
  rfl

/-- The observations are read from the stores or reading them fails. -/
theorem observations_cases {given : Option (List Observation)}
    {r : Except AnalysisError (List Observation)}
    (h : (a.observations given).exec (shaky policy sampler) (s, m) = (r, (t, n))) :
    t = s ∧ (r = .ok (a.observed s given) ∨ ∃ e, r = .error (.call .fetchObservations e)) := by
  rcases given with _ | _ | ⟨o, os⟩
  case some.cons =>
    cases h
    exact ⟨rfl, .inl rfl⟩
  all_goals
    rcases Analysis.exec_faulty_ask h with ⟨e, fault, rfl, rfl⟩ | ⟨rfl, rfl⟩
    · exact ⟨rfl, .inr ⟨e, rfl⟩⟩
    · exact ⟨rfl, .inl rfl⟩

variable (a sampler) in
/-- The findings of a trajectory, with the answer of the sampler itself. -/
def sampled (t : Trajectory Float) : Except AnalysisError (List Finding) :=
  match a.task with
  | .geofence fences regions => .ok (geofenceFindings a.subject a.reference fences regions t)
  | .immobility settings => immobilityFindings a.subject a.reference settings t
  | .proximity settings features =>
    .ok (proximityFindings a.subject a.reference settings features t)
  | .environmental settings =>
    match t.fixes.getLast? with
    | none => .error (.shortage .noFixesToSample)
    | some newest =>
      match sampler t.fixes settings with
      | .error e => .error (.call .sample e)
      | .ok none => .ok [settings.lowFinding a.subject a.reference newest]
      | .ok (some mean) =>
        .ok [settings.finding a.subject a.reference newest t.fixes.length mean]

variable (a s sampler) in
/-- The findings of a run in which nothing fails. -/
def found (given : Option (List Observation)) (filter : TrackFilter Float) :
    Except AnalysisError (List Finding) :=
  a.sampled sampler (a.trajectory (a.observed s given) filter)

theorem findings_spared (t : Trajectory Float)
    (samples : ∀ fixes settings, policy.fault (.sample fixes settings) m = (none, m)) :
    (a.findings t).exec (shaky policy sampler) (s, m) = (a.sampled sampler t, (s, m)) := by
  unfold findings sampled
  cases ht : a.task with
  | geofence fences regions => rfl
  | immobility settings => rfl
  | proximity settings features => rfl
  | environmental settings =>
    cases hn : t.fixes.getLast? with
    | none => rfl
    | some newest =>
      dsimp only
      rw [Analysis.exec_bind, Analysis.exec_ask_spared (samples t.fixes settings),
        Analysis.exec_ask]
      simp only [Stores.responder, Stores.answer]
      rcases sampler t.fixes settings with e | _ | mean <;> rfl

/-- Preparing depends on reading observations and on sampling, and touches no store. -/
theorem prepare_spared (given : Option (List Observation)) (filter : TrackFilter Float)
    (reads : ∀ subject window, policy.fault (.observations subject window) m = (none, m))
    (samples : ∀ fixes settings, policy.fault (.sample fixes settings) m = (none, m)) :
    (a.prepare given filter).exec (shaky policy sampler) (s, m) =
      (a.found s sampler given filter, (s, m)) := by
  have hread : (a.observations given).exec (shaky policy sampler) (s, m) =
      (.ok (a.observed s given), (s, m)) := by
    rcases given with _ | _ | ⟨o, os⟩
    · exact Analysis.exec_ask_spared (reads _ _) s
    · exact Analysis.exec_ask_spared (reads _ _) s
    · rfl
  rw [prepare, Analysis.exec_bind_of_ok hread]
  exact findings_spared _ samples

/-- Where nothing fails, preparing finds what a run finds. -/
theorem exec_prepare (given : Option (List Observation)) (filter : TrackFilter Float) :
    (a.prepare given filter).exec (Stores.responder sampler) s =
      (a.found s sampler given filter, s) := by
  have hcalm := Analysis.exec_calm (Stores.responder sampler) (a.prepare given filter) s
  rw [prepare_spared given filter (fun _ _ => rfl) (fun _ _ => rfl)] at hcalm
  exact Prod.ext (congrArg Prod.fst hcalm).symm (congrArg (·.2.1) hcalm).symm

/-- What a run finds depends on the time and the observations alone. -/
theorem found_congr (hn : t.now = s.now) (ho : t.observations = s.observations)
    (given : Option (List Observation)) (filter : TrackFilter Float) :
    a.found t sampler given filter = a.found s sampler given filter := by
  simp only [found, observed, Stores.observationsOf, hn, ho]

/-- A run without failures settles the findings, unless there is an error in place of them. -/
theorem run_ok {fs : List Finding} {given : Option (List Observation)}
    {filter : TrackFilter Float} (h : a.found s sampler given filter = .ok fs) :
    ∃ outcomes t, (a.run given filter).exec (Stores.responder sampler) s = (.ok outcomes, t) ∧
      t.unpaused = (fs.foldl a.posted s).unpaused := by
  obtain ⟨outcomes, t, ht, same⟩ := @settleAll_ok a s sampler fs
  refine ⟨outcomes, t, ?_, same⟩
  rw [run_eq, Analysis.exec_bind, exec_prepare, h]
  exact ht

end Faults

end Analyzer

end Geotrack
