import Geotrack.Proofs.Analysis.Published
import Geotrack.Proofs.Track.Order

/-!
# What is told of crossed fences

A run over fences passes over a crossing at the time of the latest finding, and over an event that
tells the same as a published one; neither looks at the fence. `UpToDate` is what each settled
finding preserves, and `crossings_told` says what a run leaves of every crossing.
-/

namespace Geotrack

/-- The name that a fence is shown by. -/
def Fence.title (fence : Fence Float) : String :=
  if fence.name.isEmpty then "Un-named Feature" else fence.name

/-- The name of the fence among the values of a finding or the details of an event. -/
def fenceNamed (values : Directory Json) : Option Json := Directory.find? "geofence_name" values

namespace Crossing

variable (c : Crossing Float) (subject : Subject) (analyzer : AnalyzerReference)
  (regions : List (Region Float)) (fixCount : Nat)

theorem fenceNamed_finding :
    fenceNamed (c.finding subject analyzer regions fixCount).values = some (.text c.fenceTitle) :=
  rfl

theorem fenceNamed_event (kind : EventKind) :
    fenceNamed
        (Event.ofFinding kind subject (c.finding subject analyzer regions fixCount)).details =
      some (.text c.fenceTitle) := rfl

theorem alerting_finding :
    (c.finding subject analyzer regions fixCount).level.alerting = true := by
  cases h : c.level <;> simp [finding, h, WarnLevel.level, Level.alerting]

end Crossing

/-- A fence's crossings are among those of all fences, and are shown by its name. -/
theorem mem_crossings_of_fence {fences : List (Fence Float)} {regions : List (Region Float)}
    {trajectories : List (Trajectory Float)} {fence : Fence Float} (hf : fence ∈ fences)
    {c : Crossing Float} (hc : c ∈ crossings [fence] regions trajectories) :
    c ∈ crossings fences regions trajectories ∧ c.fenceTitle = fence.title := by
  simp only [crossings, List.mem_flatMap, List.mem_singleton] at hc ⊢
  obtain ⟨t, ht, leg, hleg, g, rfl, hg⟩ := hc
  refine ⟨⟨t, ht, leg, hleg, g, hf, hg⟩, ?_⟩
  obtain ⟨p, -, rfl⟩ := List.mem_map.mp hg
  rfl

namespace Analyzer

variable {a : Analyzer} {s : Stores}

/-! ### Findings on record -/

/-- An alert of the analyzer's own about its subject. -/
structure OwnAlert (a : Analyzer) (f : Finding) : Prop where
  alerting : f.level.alerting = true
  subject : f.subject = a.subject.id
  config : f.analyzer.config = a.config.id

/-- What is on record of findings taken in order: the latest one on record is one of them, and none
of them is later. -/
structure UpToDate (a : Analyzer) (taken : List Finding) (s : Stores) : Prop where
  newest : ∀ f ∈ taken, ∃ l, a.last s = some l ∧ f.time ≤ l.time
  taken : ∀ l, a.last s = some l → l ∈ s.findings ∧ l ∈ taken

theorem upToDate_start (h : s.findings = []) : a.UpToDate [] s := by
  have hl : a.last s = none := by simp [last, Stores.latest, h]
  exact ⟨by simp, by simp [hl]⟩

theorem upToDate_of_last {taken : List Finding} {l : Finding} (hl : a.last s = some l)
    (recorded : l ∈ s.findings) (htaken : l ∈ taken) (hmax : ∀ f ∈ taken, f.time ≤ l.time) :
    a.UpToDate taken s := by
  refine ⟨fun f hf => ⟨l, hl, hmax f hf⟩, ?_⟩
  intro l' hl'
  obtain rfl : l = l' := by simpa [hl] using hl'
  exact ⟨recorded, htaken⟩

theorem UpToDate.le_last {taken : List Finding} {l : Finding} (h : a.UpToDate taken s)
    (hl : a.last s = some l) {f : Finding} (hf : f ∈ taken) : f.time ≤ l.time := by
  obtain ⟨l', hl', hle⟩ := h.newest f hf
  obtain rfl : l = l' := by simpa [hl] using hl'
  exact hle

theorem task_of_kind (kind : a.task.kind = .geofence) :
    ∃ fences regions, a.task = .geofence fences regions := by
  cases ht : a.task with
  | geofence fences regions => exact ⟨fences, regions, rfl⟩
  | immobility settings => simp [ht, Task.kind] at kind
  | proximity settings features => simp [ht, Task.kind] at kind
  | environmental settings => simp [ht, Task.kind] at kind

/-- A finding at a fence is recorded unless the latest one on record has its time. -/
theorem records_of_fence (kind : a.task.kind = .geofence) {f : Finding}
    (alerting : f.level.alerting = true) (last : Option Finding) :
    a.records last f = !(last.any (·.time = f.time)) := by
  obtain ⟨fences, regions, task⟩ := task_of_kind kind
  simp [records, task, alerting]

theorem posted_of_recorded {f : Finding} (own : a.OwnAlert f)
    (records : a.records (a.last s) f = true) :
    (a.posted s f).findings = s.findings ++ [f] ∧
      a.last (a.posted s f) = Finding.later (a.last s) f := by
  constructor
  · rw [posted_findings, recorded_findings, if_pos records]
  · rw [← last_recorded own.subject own.config records]
    exact last_of_findings (posted_findings a s f)

theorem posted_of_not_recorded {f : Finding} (records : a.records (a.last s) f = false) :
    (a.posted s f).findings = s.findings ∧ a.last (a.posted s f) = a.last s := by
  have hf : (a.posted s f).findings = s.findings := by
    rw [posted_findings, recorded_findings, records]
    exact List.append_nil _
  exact ⟨hf, last_of_findings hf⟩

theorem forall_snoc {taken : List Finding} {f : Finding} {time : Instant}
    (h : ∀ g ∈ taken, g.time ≤ time) (hf : f.time ≤ time) : ∀ g ∈ taken ++ [f], g.time ≤ time :=
  List.forall_mem_append.mpr ⟨h, by simpa using hf⟩

/-- Settling a finding at a fence keeps the record up to date. The finding is on record then, or the
latest one before it has its time. -/
theorem UpToDate.step {taken : List Finding} (h : a.UpToDate taken s)
    (kind : a.task.kind = .geofence) {f : Finding} (own : a.OwnAlert f) :
    a.UpToDate (taken ++ [f]) (a.posted s f) ∧
      (f ∈ (a.posted s f).findings ∨
        ∃ l ∈ taken, l ∈ s.findings ∧ l.time = f.time ∧ ∀ g ∈ taken, g.time ≤ f.time) := by
  have hrecords := records_of_fence kind own.alerting (a.last s)
  cases hl : a.last s with
  | none =>
    obtain ⟨hfindings, hlast⟩ := posted_of_recorded own (hrecords.trans (by simp [hl]))
    have hmem : f ∈ (a.posted s f).findings := hfindings ▸ List.mem_append_right _ (by simp)
    rw [hl] at hlast
    have hnone : ∀ g ∈ taken, g.time ≤ f.time := by
      intro g hg
      obtain ⟨l, hsome, -⟩ := h.newest g hg
      rw [hl] at hsome
      cases hsome
    exact ⟨upToDate_of_last hlast hmem (by simp) (forall_snoc hnone (Instant.le_refl _)), .inl hmem⟩
  | some l =>
    obtain ⟨hfound, htaken⟩ := h.taken l hl
    by_cases htime : l.time = f.time
    · obtain ⟨hfindings, hlast⟩ := posted_of_not_recorded (hrecords.trans (by simp [hl, htime]))
      have hmax : ∀ g ∈ taken, g.time ≤ f.time := fun g hg => htime ▸ h.le_last hl hg
      exact ⟨upToDate_of_last (hlast.trans hl) (hfindings ▸ hfound)
        (List.mem_append_left _ htaken)
        (forall_snoc (fun g hg => h.le_last hl hg) (htime ▸ Instant.le_refl _)),
        .inr ⟨l, htaken, hfound, htime, hmax⟩⟩
    · obtain ⟨hfindings, hlast⟩ := posted_of_recorded own (hrecords.trans (by simp [hl, htime]))
      have hmem : f ∈ (a.posted s f).findings := hfindings ▸ List.mem_append_right _ (by simp)
      refine ⟨?_, .inl hmem⟩
      rw [hl] at hlast
      by_cases hle : l.time ≤ f.time
      · exact upToDate_of_last (hlast.trans (if_pos (by simpa using hle))) hmem (by simp)
          (forall_snoc (fun g hg => Instant.le_trans (h.le_last hl hg) hle) (Instant.le_refl _))
      · exact upToDate_of_last (hlast.trans (if_neg (by simpa using hle)))
          (hfindings ▸ List.mem_append_left _ hfound) (List.mem_append_left _ htaken)
          (forall_snoc (fun g hg => h.le_last hl hg) ((Instant.le_total _ _).resolve_right hle))

theorem findings_sublist_foldl (fs : List Finding) :
    s.findings.Sublist (fs.foldl a.posted s).findings := by
  induction fs generalizing s with
  | nil => exact .refl _
  | cons f fs ih =>
    refine .trans ?_ ih
    rw [posted_findings, recorded_findings]
    exact List.sublist_append_left _ _

/-- Of findings at fences each is recorded unless one of those before it has its time and none of
them is later. -/
theorem recorded_or_latest (kind : a.task.kind = .geofence) (start : s.findings = [])
    (before after : List Finding) (f : Finding)
    (own : ∀ g ∈ before ++ f :: after, a.OwnAlert g) :
    f ∈ ((before ++ f :: after).foldl a.posted s).findings ∨
      ∃ l ∈ before, l ∈ ((before ++ f :: after).foldl a.posted s).findings ∧ l.time = f.time ∧
        ∀ g ∈ before, g.time ≤ f.time := by
  have run : ∀ fs taken u, (∀ g ∈ fs, a.OwnAlert g) → a.UpToDate taken u →
      a.UpToDate (taken ++ fs) (fs.foldl a.posted u) := by
    intro fs
    induction fs with
    | nil => simp
    | cons g fs ih =>
      intro taken u hfs hu
      have := ih (taken ++ [g]) _ (fun x hx => hfs x (List.mem_cons_of_mem _ hx))
        (hu.step kind (hfs g List.mem_cons_self)).1
      simpa using this
  have hbefore := run before [] s (fun g hg => own g (List.mem_append_left _ hg))
    (upToDate_start start)
  rw [List.foldl_append, List.foldl_cons]
  have later := (findings_sublist_foldl (a := a)
    (s := a.posted (before.foldl a.posted s) f) after).subset
  rcases (hbefore.step kind (own f (by simp))).2 with h | ⟨l, hl, hrec, htime, hmax⟩
  · exact .inl (later h)
  · refine .inr ⟨l, hl, later ?_, htime, hmax⟩
    rw [posted_findings, recorded_findings]
    exact List.mem_append_left _ hrec

/-! ### Runs over fences -/

theorem event?_of_fence (kind : a.task.kind = .geofence) {f : Finding}
    (alerting : f.level.alerting = true) (last : Option Finding) :
    a.event? last f = some (.ofFinding .geofenceBreak a.subject f) := by
  obtain ⟨fences, regions, task⟩ := task_of_kind kind
  simp [event?, eventKind?, task, alerting]

/-- The findings that a run over fences settles are those of all crossings of its track. -/
theorem run_fences {τ : Type} {policy : FaultPolicy τ} {sampler : Sampler}
    {fences : List (Fence Float)} {regions : List (Region Float)}
    (task : a.task = .geofence fences regions) {given : Option (List Observation)}
    {filter : TrackFilter Float} {m n : τ} {outcomes : List Outcome} {t : Stores}
    (h : (a.run given filter).exec (shaky policy sampler) (s, m) = (.ok outcomes, (t, n))) :
    t.unpaused = ((geofenceFindings a.subject a.reference fences regions
      (a.trajectory (a.observed s given) filter)).foldl a.posted s).unpaused := by
  rw [run_eq, prepare] at h
  obtain ⟨fs, ⟨u, m₁⟩, hprepare, hsettle⟩ := Analysis.exec_bind_ok h
  obtain ⟨os, ⟨v, m₂⟩, hread, hfind⟩ := Analysis.exec_bind_ok hprepare
  obtain ⟨rfl, hos | ⟨e, he⟩⟩ := observations_cases hread
  · cases hos
    rw [findings, task] at hfind
    cases hfind
    rcases settleAll_cases hsettle with ⟨_, _, same⟩ | ⟨_, _, _, _, _, _, _, he, _⟩
    · exact same
    · cases he
  · cases he

/-- After a run over fences from an empty record, each crossing's finding is on record unless the
latest crossing before it has its time, and its event is published unless one at the same time and
place is. Both show the fence's name. -/
theorem crossings_told {τ : Type} (policy : FaultPolicy τ) (sampler : Sampler) (a : Analyzer)
    (fences : List (Fence Float)) (regions : List (Region Float)) (s : Stores)
    (given : Option (List Observation)) (filter : TrackFilter Float) (m n : τ)
    (outcomes : List Outcome) (t : Stores) (task : a.task = .geofence fences regions)
    (unrecorded : s.findings = []) (unpublished : s.events = [])
    (h : (a.run given filter).exec (shaky policy sampler) (s, m) = (.ok outcomes, (t, n))) :
    let track := a.trajectory (a.observed s given) filter
    let finding (c : Crossing Float) :=
      c.finding a.subject a.reference regions track.fixes.length
    let event (c : Crossing Float) := Event.ofFinding .geofenceBreak a.subject (finding c)
    (∀ fence ∈ fences, ∀ c ∈ crossings [fence] regions [track],
      c ∈ crossings fences regions [track] ∧
      fenceNamed (finding c).values = some (.text fence.title) ∧
      fenceNamed (event c).details = some (.text fence.title)) ∧
    ∀ before c after, crossings fences regions [track] = before ++ c :: after →
      (finding c ∈ t.findings ∨ ∃ b ∈ before, finding b ∈ t.findings ∧
        b.fix.time = c.fix.time ∧ ∀ b' ∈ before, b'.fix.time ≤ c.fix.time) ∧
      (event c ∈ t.events ∨ ∃ b ∈ before, event b ∈ t.events ∧ (event b).same (event c)) := by
  intro track finding event
  have kind : a.task.kind = .geofence := by rw [task]; rfl
  obtain ⟨-, -, hfindings, hevents⟩ := Stores.unpaused_eq_iff.mp (run_fences task h)
  change t.findings = (((crossings fences regions [track]).map finding).foldl a.posted s).findings
    at hfindings
  change t.events = (((crossings fences regions [track]).map finding).foldl a.posted s).events
    at hevents
  have own (c : Crossing Float) : a.OwnAlert (finding c) :=
    ⟨c.alerting_finding a.subject a.reference regions _, rfl, rfl⟩
  refine ⟨?_, ?_⟩
  · intro fence hf c hc
    obtain ⟨hmem, htitle⟩ := mem_crossings_of_fence hf hc
    rw [← htitle]
    exact ⟨hmem, c.fenceNamed_finding a.subject a.reference regions _,
      c.fenceNamed_event a.subject a.reference regions _ _⟩
  · intro before c after hcut
    rw [hcut, List.map_append, List.map_cons] at hfindings hevents
    refine ⟨?_, ?_⟩
    · rw [hfindings]
      have alerts : ∀ g ∈ before.map finding ++ finding c :: after.map finding, a.OwnAlert g := by
        rw [← List.map_cons, ← List.map_append]
        exact List.forall_mem_map.mpr fun c _ => own c
      rcases recorded_or_latest kind unrecorded _ _ _ alerts with hc | ⟨l, hl, hrec, htime, hmax⟩
      · exact .inl hc
      · obtain ⟨b, hb, rfl⟩ := List.mem_map.mp hl
        exact .inr ⟨b, hb, hrec, htime, fun b' hb' => hmax _ (List.mem_map_of_mem hb')⟩
    · have called (cs : List (Crossing Float)) :
          (cs.map finding).filterMap (a.event? none) = cs.map event := by
        rw [List.filterMap_map, ← List.filterMap_eq_map]
        congr 1
        funext c
        exact event?_of_fence kind (own c).alerting none
      rw [← List.map_cons, ← List.map_append, foldl_posted_events (event?_steady (.inl kind)),
        called, unpublished, List.map_append, List.map_cons] at hevents
      rw [hevents]
      rcases Event.added_or_known a.skipsKnownEvents (before.map event) (after.map event) (event c)
        with hc | ⟨x, hx, hpub, same⟩
      · exact .inl hc
      · obtain ⟨b, hb, rfl⟩ := List.mem_map.mp hx
        exact .inr ⟨b, hb, hpub, same⟩

/-! ### Two fences with a common edge -/

/-- A fence around a square of one degree. -/
def squareFence (name : String) (west south : Float) : Fence Float where
  id := name
  name := name
  boundary := [[⟨west, south⟩, ⟨west + 1, south⟩, ⟨west + 1, south + 1⟩, ⟨west, south + 1⟩,
    ⟨west, south⟩]]
  level := .critical

def westFence : Fence Float := squareFence "West" 36 (-2)

def eastFence : Fence Float := squareFence "East" 37 (-2)

/-- Watches both fences. -/
def parkWatch : Analyzer where
  subject := { id := .nil, name := "Tembo" }
  config := { id := .nil, name := "parks", settings := .geofence { criticalGroup := "parks" } }
  task := .geofence [westFence, eastFence] []
  active := rfl
  kind_eq := rfl

/-- A walk from one square to the other. -/
def walkLeg : Leg Float :=
  ⟨⟨⟨36.5, -1.5⟩, .epoch⟩, ⟨⟨37.5, -1.5⟩, .ofNanos 3600000000000⟩⟩

def walk : List Observation :=
  [⟨.nil, .epoch, -1.5, 36.5⟩, ⟨.nil, .ofNanos 3600000000000, -1.5, 37.5⟩]

theorem walk_fixes : (parkWatch.trajectory walk {}).fixes = [walkLeg.start, walkLeg.finish] := by
  have ordered : [walkLeg.start, walkLeg.finish].Pairwise fun a b => a.time ≤ b.time := by
    simpa using (by decide : walkLeg.start.time ≤ walkLeg.finish.time)
  have kept : TrackFilter.keep {} none [walkLeg.start, walkLeg.finish] =
      [walkLeg.start, walkLeg.finish] := by decide +kernel
  exact Trajectory.fixes_of_kept .nil ordered kept

/-- The crossing of the common edge, as one of the fences has it. -/
def edgeCrossing (fence : Fence Float) : Crossing Float where
  subject := .nil
  speed := walkLeg.speed
  heading := walkLeg.heading
  fix := walkLeg.fixAt ⟨37, -1.5⟩
  fraction := walkLeg.fractionAt ⟨37, -1.5⟩
  fenceId := fence.id
  fenceName := fence.name
  level := fence.level
  startRegions := []
  finishRegions := []

theorem walk_crossings (fences : List (Fence Float))
    (h : ∀ fence ∈ fences, fence = westFence ∨ fence = eastFence) :
    crossings fences [] [parkWatch.trajectory walk {}] = fences.map edgeCrossing := by
  have west : walkLeg.crossingPoints westFence.boundary = [⟨37, -1.5⟩] := by decide +kernel
  have east : walkLeg.crossingPoints eastFence.boundary = [⟨37, -1.5⟩] := by decide +kernel
  have legs : (parkWatch.trajectory walk {}).legs = [walkLeg] := by
    rw [Trajectory.legs, walk_fixes]
    rfl
  simp only [crossings, legs, List.flatMap_cons, List.flatMap_nil, List.append_nil]
  induction fences with
  | nil => rfl
  | cons fence fences ih =>
    rw [List.flatMap_cons, List.map_cons, ih fun f hf => h f (List.mem_cons_of_mem _ hf)]
    rcases h fence List.mem_cons_self with rfl | rfl
    · rw [Leg.crossings, west]; rfl
    · rw [Leg.crossings, east]; rfl

/-- The finding of a crossing of the common edge. -/
def edgeFinding (fence : Fence Float) : Finding :=
  (edgeCrossing fence).finding parkWatch.subject parkWatch.reference [] 2

def edgeEvent (fence : Fence Float) : Event :=
  .ofFinding .geofenceBreak parkWatch.subject (edgeFinding fence)

theorem edgeEvent_same (f g : Fence Float) : (edgeEvent f).same (edgeEvent g) = true := by
  have place : (⟨37, -1.5⟩ : Point Float).same ⟨37, -1.5⟩ = true := by decide +kernel
  have location : (edgeEvent f).sameLocation (edgeEvent g) = true := place
  have time : (edgeEvent f).time = (edgeEvent g).time := rfl
  rw [Event.same, location, time]
  simp [edgeEvent, Event.ofFinding]

theorem crossings_told_parkWatch : ∃ outcomes t,
    (parkWatch.run walk {}).exec (shaky .calm noValues) ({ now := .epoch }, ()) =
      (.ok outcomes, (t, ())) ∧
    edgeFinding westFence ∈ t.findings ∧ edgeEvent westFence ∈ t.events := by
  obtain ⟨outcomes, t, ht, -⟩ := @run_ok parkWatch { now := .epoch } noValues _ walk {} rfl
  have h := Analysis.exec_calm (Stores.responder noValues) (parkWatch.run walk {}) { now := .epoch }
  rw [ht] at h
  have told := (crossings_told .calm noValues parkWatch [westFence, eastFence] [] { now := .epoch }
    walk {} () () outcomes t rfl rfl rfl h).2 [] (edgeCrossing westFence) [edgeCrossing eastFence]
    (walk_crossings _ (by simp))
  simp only [List.not_mem_nil, false_and, exists_false, or_false] at told
  change Crossing.finding _ _ _ [] (parkWatch.trajectory walk {}).fixes.length ∈ _ ∧
    Event.ofFinding _ _ (Crossing.finding _ _ _ [] (parkWatch.trajectory walk {}).fixes.length) ∈ _
    at told
  rw [walk_fixes] at told
  exact ⟨outcomes, t, h, told⟩

/-- Of two fences crossed at their common edge only the first is told of. -/
theorem parkWatch_swallows :
    ¬ ∀ (a : Analyzer) (fences : List (Fence Float)) (regions : List (Region Float)) (s : Stores)
      (sampler : Sampler) (given : Option (List Observation)) (filter : TrackFilter Float)
      (outcomes : List Outcome) (t : Stores), a.task = .geofence fences regions →
      s.findings = [] → s.events = [] →
      (a.run given filter).exec (Stores.responder sampler) s = (.ok outcomes, t) →
      ∀ fence ∈ fences, crossings [fence] regions [a.trajectory (a.observed s given) filter] ≠ [] →
        t.findings ≠ [] ∧ ∃ e ∈ t.events, e.kind = .geofenceBreak ∧
          fenceNamed e.details = some (.text fence.title) := by
  intro h
  obtain ⟨outcomes, t, ht, same⟩ := @run_ok parkWatch { now := .epoch } noValues _ walk {} rfl
  obtain ⟨-, e, he, -, named⟩ := h parkWatch [westFence, eastFence] [] { now := .epoch } noValues
    walk {} outcomes t rfl rfl rfl ht eastFence (by simp) (by
      change crossings _ _ [parkWatch.trajectory walk {}] ≠ []
      rw [walk_crossings _ (by simp)]
      simp)
  have told : t.events = [edgeEvent westFence] := by
    rw [(Stores.unpaused_eq_iff.mp same).2.2.2, foldl_posted_events (event?_steady (.inl rfl))]
    change ((geofenceFindings _ _ _ [] (parkWatch.trajectory walk {})).filterMap _).foldl _ [] = _
    rw [geofenceFindings, walk_crossings _ (by simp), walk_fixes]
    change [edgeEvent westFence, edgeEvent eastFence].foldl (Event.addNew true) [] = _
    simp [Event.addNew, edgeEvent_same]
  obtain rfl : e = edgeEvent westFence := by simpa [told] using he
  rw [edgeEvent, edgeFinding, Crossing.fenceNamed_event] at named
  have same_title : (edgeCrossing westFence).fenceTitle = eastFence.title := by simpa using named
  exact absurd same_title (by decide)

end Analyzer

end Geotrack
