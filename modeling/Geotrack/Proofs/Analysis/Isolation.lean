import Geotrack.Proofs.Analysis.Accounts
import Geotrack.Proofs.Analysis.Expiry
import Geotrack.Proofs.Analysis.Failure

/-!
# Failures that leave no trace

A run that fails before it settles a finding has only asked. If asking leaves nothing behind that a
later call could find, a batch goes on as if there had been no such configuration:
`failure_isolated`. The stores are of this kind, though they drop a pause that is over when they are
asked for it.
-/

namespace Geotrack

variable {σ α β : Type}

/-- Whether a call only asks. -/
def Call.asks {β : Type} : Call β → Bool
  | .record _ | .publish _ | .pause .. => false
  | _ => true

/-- A responder whose answers depend on the call and the state alone, and on no more of the state
than states have in common that are alike. These agree on what is on record and what is published,
and they stay alike through every call. A call that only asks leaves a state alike to that
before. -/
structure Responder.Steady (responder : Responder σ) (history : σ → List Finding)
    (sink : σ → List Event) (alike : σ → σ → Prop) : Prop where
  refl (s : σ) : alike s s
  trans {s t u : σ} (first : alike s t) (second : alike t u) : alike s u
  recorded {s t : σ} (same : alike s t) : history s = history t
  published {s t : σ} (same : alike s t) : sink s = sink t
  answer {β : Type} (call : Call β) {s t : σ} (same : alike s t) :
    (responder.answer call s).1 = (responder.answer call t).1 ∧
      alike (responder.answer call s).2 (responder.answer call t).2
  asked {β : Type} (call : Call β) (asks : call.asks = true) (s : σ) :
    alike (responder.answer call s).2 s

variable {responder : Responder σ} {history : σ → List Finding} {sink : σ → List Event}
  {alike : σ → σ → Prop}

/-- Whatever is run from states that are alike returns the same and leaves them alike. -/
theorem Run.exec_alike (steady : responder.Steady history sink alike) (r : Run α) {s t : σ}
    (same : alike s t) :
    (r.exec responder s).1 = (r.exec responder t).1 ∧
      alike (r.exec responder s).2 (r.exec responder t).2 := by
  induction r generalizing s t with
  | done a => exact ⟨rfl, same⟩
  | ask c next ih =>
    obtain ⟨hanswer, hleft⟩ := steady.answer c same
    simp only [Run.exec]
    rw [hanswer]
    exact ih _ hleft

/-! ### The stores -/

/-- Whether stores are the same but for their pauses, and tell the same of these. Of two such stores
one may hold a pause that is over and that the other has dropped. -/
structure Stores.Alike (s t : Stores) : Prop where
  unpaused : s.unpaused = t.unpaused
  isQuiet (key : String) : (s.isQuiet key).1 = (t.isQuiet key).1

namespace Stores

variable {s t u : Stores}

theorem Alike.refl (s : Stores) : s.Alike s := ⟨rfl, fun _ => rfl⟩

theorem Alike.symm (h : s.Alike t) : t.Alike s :=
  ⟨h.unpaused.symm, fun key => (h.isQuiet key).symm⟩

theorem Alike.trans (first : s.Alike t) (second : t.Alike u) : s.Alike u :=
  ⟨first.unpaused.trans second.unpaused, fun key => (first.isQuiet key).trans (second.isQuiet key)⟩

theorem isQuiet_congr (now : s.now = t.now) (pauses : s.pauses = t.pauses) (key : String) :
    (s.isQuiet key).1 = (t.isQuiet key).1 := by
  rw [isQuiet_fst, isQuiet_fst, now, pauses]

/-- A pause that is dropped was over. -/
theorem alike_isQuiet (s : Stores) (key : String) : (s.isQuiet key).2.Alike s := by
  obtain ⟨pauses, h, -⟩ := s.exists_isQuiet key
  refine ⟨by rw [h]; rfl, fun other => ?_⟩
  have hnow : (s.isQuiet key).2.now = s.now := by rw [h]
  rw [isQuiet_fst, isQuiet_fst, hnow, lasting_isQuiet]

/-- A call that is not about pauses touches none. -/
theorem answer_pauses (sampler : Sampler) {call : Call β} (apart : call.onPauses = false) :
    (answer sampler call s).2.pauses = s.pauses := by
  cases call with
  | isQuiet key => cases apart
  | pause key length => cases apart
  | _ => rfl

theorem Alike.pause (h : s.Alike t) (key : String) (length : Int) (sampler : Sampler) :
    (answer sampler (.pause key length) s).1 = (answer sampler (.pause key length) t).1 ∧
      (answer sampler (.pause key length) s).2.Alike (answer sampler (.pause key length) t).2 := by
  obtain ⟨hnow, hothers⟩ := unpaused_eq_iff.mp h.unpaused
  simp only [answer, Stores.pause, hnow]
  cases t.now.plus? length with
  | none => exact ⟨rfl, h⟩
  | some finish =>
    refine ⟨rfl, unpaused_eq_iff.mpr ⟨rfl, hothers⟩, fun other => ?_⟩
    have known := h.isQuiet other
    rw [isQuiet_fst, isQuiet_fst, hnow] at known
    simp only [isQuiet_fst, Directory.find?_put]
    split
    · rfl
    · exact known

theorem steady (sampler : Sampler) :
    (Stores.responder sampler).Steady (·.findings) (·.events) Alike where
  refl := Alike.refl
  trans := Alike.trans
  recorded h := (unpaused_eq_iff.mp h.unpaused).2.2.1
  published h := (unpaused_eq_iff.mp h.unpaused).2.2.2
  answer call s t h := by
    cases apart : call.onPauses with
    | false =>
      -- time and pauses are as before the call, and so is what is told of pauses
      obtain ⟨hanswer, hleft⟩ := answer_unpaused sampler apart h.unpaused
      refine ⟨hanswer, hleft, fun key => ?_⟩
      change ((answer sampler call s).2.isQuiet key).1 = ((answer sampler call t).2.isQuiet key).1
      rw [isQuiet_congr (answer_now sampler call) (answer_pauses sampler apart),
        isQuiet_congr (answer_now sampler call) (answer_pauses sampler apart), h.isQuiet]
    | true =>
      cases call with
      | isQuiet key =>
        refine ⟨congrArg Except.ok (h.isQuiet key), ?_⟩
        exact ((alike_isQuiet s key).trans h).trans (alike_isQuiet t key).symm
      | pause key length => exact h.pause key length sampler
      | _ => cases apart
  asked call asks s := by
    cases call with
    | isQuiet key => exact alike_isQuiet s key
    | record f => cases asks
    | publish e => cases asks
    | pause key length => cases asks
    | _ => exact .refl s

end Stores

/-- Services that are down answer nothing and change nothing, so that the rest is as steady. -/
theorem Responder.Steady.without (steady : responder.Steady history sink alike)
    (down : List Service) : (responder.without down).Steady history sink alike where
  refl := steady.refl
  trans := steady.trans
  recorded := steady.recorded
  published := steady.published
  answer call s t same := by
    simp only [Responder.without]
    split
    · exact ⟨rfl, same⟩
    · exact steady.answer call same
  asked call asks s := by
    simp only [Responder.without]
    split
    · exact steady.refl s
    · exact steady.asked call asks s

/-! ### Runs that fail before they settle a finding -/

/-- Whether a run that fails at the stage has not settled any finding. -/
def Stage.early : Stage → Bool
  | .fetchObservations | .analyze | .sample => true
  | _ => false

namespace Analysis

/-- An analysis that does not fail at an early stage. -/
def FailsLate (responder : Responder σ) (x : Analysis α) : Prop :=
  ∀ s e, (x.exec responder s).1 = .error e → e.stage.early = false

namespace FailsLate

theorem pure (a : α) : FailsLate responder (Pure.pure a) := fun _ _ h => nomatch h

theorem ask (call : Call α) (late : call.stage.early = false) :
    FailsLate responder (.ask call) := by
  intro s e h
  rw [exec_ask] at h
  cases answered : (responder.answer call s).1 with
  | ok b => simp [answered, Except.mapError] at h
  | error cause =>
    obtain rfl : AnalysisError.call call.stage cause = e := by
      simpa [answered, Except.mapError] using h
    exact late

end FailsLate

theorem Composes.failsLate : Composes fun x => FailsLate responder x where
  pure := .pure
  bind {_ _ x f} hx hf s e h := by
    have first := hx s
    rw [exec_bind] at h
    rcases hexec : x.exec responder s with ⟨e' | a, t⟩
    · rw [hexec] at h first
      cases h
      exact first _ rfl
    · rw [hexec] at h
      exact hf a t e h

end Analysis

namespace Analyzer

open Analysis (Composes FailsLate Moves)

variable {a : Analyzer}

/-- Before a finding is settled a run only asks. -/
theorem prepare_asks (steady : responder.Steady history sink alike)
    (given : Option (List Observation)) (filter : TrackFilter Float) (s : σ) :
    alike ((a.prepare given filter).exec responder s).2 s := by
  have composes : Composes fun x => Moves responder (fun s t => alike t s) x :=
    .moves steady.refl fun _ _ _ first second => steady.trans second first
  exact prepare_of a composes given filter (fun _ => steady.refl) (fun _ => steady.asked _ rfl)
    (fun _ _ => steady.asked _ rfl) s

theorem settle_failsLate (f : Finding) : FailsLate responder (a.settle f) := by
  refine settle_of a .failsLate f (.ask _ rfl) (.ask _ rfl) (fun _ => .ask _ rfl)
    (fun _ => .ask _ rfl) ?_
  unfold pause
  split
  · exact .pure _
  · exact fun _ _ h => nomatch h

/-- A run that fails at an early stage has only asked. -/
theorem run_early (steady : responder.Steady history sink alike) {given : Option (List Observation)}
    {filter : TrackFilter Float} {s : σ} {e : AnalysisError}
    (failed : ((a.run given filter).exec responder s).1 = .error e) (early : e.stage.early = true) :
    alike ((a.run given filter).exec responder s).2 s := by
  have asked := prepare_asks (a := a) steady given filter s
  rw [run_eq, Analysis.exec_bind] at failed ⊢
  rcases hexec : (a.prepare given filter).exec responder s with ⟨e' | fs, t⟩
  · rw [hexec] at asked
    exact asked
  · rw [hexec] at failed
    have late := Analysis.Composes.failsLate.mapM settle_failsLate fs t e failed
    rw [early] at late
    cases late

end Analyzer

namespace Batch

variable {settings : Settings} {cancelled : Nat → Bool}

/-- Whether no analyzer could be made, or its run failed at an early stage. -/
def Visit.failsEarly : Visit → Bool
  | .unbuilt _ => true
  | .ran _ (.error e) => e.stage.early
  | _ => false

theorem isQuiet_asks (steady : responder.Steady history sink alike) (a : Analyzer) (s : σ) :
    alike (a.isQuiet.exec responder s).2 s := by
  rcases exec_isQuiet_left responder a s with h | h
  · rw [h]
    exact steady.refl s
  · rw [h]
    exact steady.asked _ rfl s

/-- A visit that fails early leaves no trace. -/
theorem visit_early (steady : responder.Steady history sink alike)
    {subject : Subject} {config : AnalyzerConfig} {s : σ}
    (early : ((visit settings subject config).exec responder s).1.failsEarly = true) :
    alike ((visit settings subject config).exec responder s).2 s := by
  cases made : Analyzer.ofConfig subject config settings.context with
  | error e =>
    rw [exec_visit_unbuilt made]
    exact steady.refl s
  | ok a =>
    have asked := isQuiet_asks steady a s
    rw [exec_visit made] at early ⊢
    dsimp only at early ⊢
    split at early
    · cases early
    · rename_i running
      rw [if_neg running]
      refine steady.trans ?_ asked
      change Visit.failsEarly (.ran a (Analysis.exec responder _ _).1) = true at early
      cases failed : (Analysis.exec responder (a.run none (settings.filter subject))
        (a.isQuiet.exec responder s).2).1 with
      | ok outcomes => simp [failed, Visit.failsEarly] at early
      | error e =>
        rw [failed] at early
        exact Analyzer.run_early steady failed early

/-- The visits before and after one that fails early are the same without it. -/
theorem visitAll_early (steady : responder.Steady history sink alike)
    {front : List (Subject × AnalyzerConfig)} {subject : Subject} {config : AnalyzerConfig}
    (back : List (Subject × AnalyzerConfig)) {s : σ} :
    let x := ((visit settings subject config).exec responder
      ((visitAll settings front).exec responder s).2).1
    let whole := (visitAll settings (front ++ (subject, config) :: back)).exec responder s
    let short := (visitAll settings (front ++ back)).exec responder s
    x.failsEarly = true →
    alike whole.2 short.2 ∧ ∃ xs ys, whole.1 = xs ++ x :: ys ∧ short.1 = xs ++ ys := by
  intro x whole short early
  obtain ⟨same, left⟩ := Run.exec_alike steady (visitAll settings back) (visit_early steady early)
  simp only [whole, short, exec_visitAll_append, exec_visitAll_cons]
  exact ⟨left, _, _, congrArg (_ ++ _ :: ·) same, rfl⟩

/-! ### A batch with and without a configuration -/

/-- A batch that is not cancelled before the end of some jobs goes on after them. -/
theorem turns_append {earlier rest : List Job} {n : Nat}
    (running : ∀ i < earlier.length, cancelled (n + i) = false) :
    turns cancelled (earlier ++ rest) n =
      earlier.length + turns cancelled rest (n + earlier.length) := by
  induction earlier generalizing n with
  | nil => simp
  | cons job earlier ih =>
    have first : cancelled n = false := running 0 (Nat.zero_lt_succ _)
    have others : ∀ i < earlier.length, cancelled (n + 1 + i) = false := fun i hi => by
      rw [Nat.add_assoc, Nat.add_comm 1]
      exact running (i + 1) (Nat.succ_lt_succ hi)
    rw [List.cons_append, turns, first, if_neg Bool.false_ne_true, ih others, List.length_cons]
    rw [Nat.add_right_comm, Nat.add_assoc n, Nat.add_comm 1]

/-- A batch that is not cancelled before a job does this job and, of those after it, the ones that
it would do if there were another in its place. -/
theorem take_turns {earlier : List Job} (running : ∀ n ≤ earlier.length, cancelled n = false)
    (job : Job) (later : List Job) :
    let more := turns cancelled later (earlier.length + 1)
    turns cancelled (earlier ++ job :: later) 0 = earlier.length + (more + 1) ∧
      (earlier ++ job :: later).take (earlier.length + (more + 1)) =
        earlier ++ job :: later.take more := by
  intro more
  constructor
  · rw [turns_append fun i hi => by rw [Nat.zero_add]; exact running i (Nat.le_of_lt hi)]
    rw [Nat.zero_add, turns, running _ (Nat.le_refl _), if_neg Bool.false_ne_true]
  · rw [List.take_length_add_append, List.take_succ_cons]

/-- What a visit that tells of an error adds to a tally does not depend on when it is counted. -/
theorem foldl_count_insert {x : Visit} {e : AnalysisError} (failed : x.error? = some e)
    (t : Tally) (xs ys : List Visit) :
    (xs ++ x :: ys).foldl Tally.count t =
      Tally.countError { (xs ++ ys).foldl Tally.count t with
        analyzersRun := ((xs ++ ys).foldl Tally.count t).analyzersRun + x.isRun.toNat } e := by
  have hskip : x.isSkip = false ∧ x.outcomes = [] ∧ x.events = [] := by
    cases x with
    | unbuilt e => exact ⟨rfl, rfl, rfl⟩
    | skipped a => cases failed
    | ran a result =>
      cases result with
      | ok outcomes => cases failed
      | error e => exact ⟨rfl, rfl, rfl⟩
  obtain ⟨hskip, houtcomes, hevents⟩ := hskip
  simp only [Tally.foldl_count, Tally.countError_eq, List.countP_append, countP_cons_toNat,
    List.filterMap_append, List.filterMap_cons, failed, List.flatMap_append, List.flatMap_cons,
    hskip, houtcomes, hevents, List.nil_append, List.length_append, Bool.toNat_false, Nat.add_zero,
    Nat.add_assoc, Nat.add_comm, Nat.add_left_comm]

theorem Visit.failsEarly_error {x : Visit} (early : x.failsEarly = true) :
    ∃ e, x.error? = some e := by
  cases x with
  | unbuilt e => exact ⟨e, rfl⟩
  | skipped a => cases early
  | ran a result =>
    cases result with
    | ok outcomes => cases early
    | error e => exact ⟨e, rfl⟩

variable (responder settings) in
/-- What a batch that reaches a job leaves and counts, by what the job visits. -/
theorem exec_run_around {earlier : List Job} (running : ∀ n ≤ earlier.length, cancelled n = false)
    (job : Job) (later : List Job) (s : σ) :
    let more := turns cancelled later (earlier.length + 1)
    let ended := (run settings cancelled (earlier ++ job :: later)).exec responder s
    let visited := (visitAll settings (earlier.flatMap Job.pairs ++ (job.pairs ++
      (later.take more).flatMap Job.pairs))).exec responder s
    ended.2 = visited.2 ∧ ended.1.1 = { visited.1.foldl Tally.count {} with
      subjects := earlier.length + (more + 1)
      cancelled := earlier.length + (more + 1) < earlier.length + (later.length + 1) } := by
  intro more ended visited
  obtain ⟨hturns, htake⟩ := take_turns running job later
  simp only [ended, visited, exec_run_eq, hturns, htake, List.flatMap_append, List.flatMap_cons,
    List.length_append, List.length_cons, more, and_self]

theorem pairs_of_active {subject : Subject} (watched : subject.active = true)
    (configs : List AnalyzerConfig) :
    Job.pairs ⟨subject, configs⟩ = (configs.filter (·.active)).map (subject, ·) :=
  if_pos watched

/-- A configuration that fails early makes no difference to a batch but that its error is counted,
and its run if there was one. -/
theorem failure_isolated (responder : Responder σ) (history : σ → List Finding)
    (sink : σ → List Event) (alike : σ → σ → Prop)
    (steady : responder.Steady history sink alike) (settings : Settings) (cancelled : Nat → Bool)
    (earlier later : List Job) (subject : Subject) (before after : List AnalyzerConfig)
    (config : AnalyzerConfig) (s : σ) (watched : subject.active = true)
    (active : config.active = true) (running : ∀ n ≤ earlier.length, cancelled n = false) :
    let reached := (run settings (fun _ => false) (earlier ++ [⟨subject, before⟩])).exec responder s
    let x := ((visit settings subject config).exec responder reached.2).1
    let ended := (run settings cancelled
      (earlier ++ ⟨subject, before ++ config :: after⟩ :: later)).exec responder s
    let without := (run settings cancelled
      (earlier ++ ⟨subject, before ++ after⟩ :: later)).exec responder s
    x.failsEarly = true →
    history ended.2 = history without.2 ∧ sink ended.2 = sink without.2 ∧
    (∀ a : Analyzer,
      (a.isQuiet.exec responder ended.2).1 = (a.isQuiet.exec responder without.2).1) ∧
    alike ended.2 without.2 ∧
    ∃ e, x.error? = some e ∧
      ended.1.1 = Tally.countError { without.1.1 with
        analyzersRun := without.1.1.analyzersRun + x.isRun.toNat } e := by
  intro reached x ended without early
  -- both batches visit `front` before the configuration's turn and `back` after it
  let front := earlier.flatMap Job.pairs ++ Job.pairs ⟨subject, before⟩
  let more := turns cancelled later (earlier.length + 1)
  let back := Job.pairs ⟨subject, after⟩ ++ (later.take more).flatMap Job.pairs
  have hreached : reached.2 = ((visitAll settings front).exec responder s).2 := by
    simp only [reached, front, exec_run_eq, turns_never, List.take_length, List.flatMap_append,
      List.flatMap_singleton]
  have hx : x = ((visit settings subject config).exec responder
      ((visitAll settings front).exec responder s).2).1 := by rw [← hreached]
  rw [hx] at early
  obtain ⟨close, xs, ys, hwhole, hshort⟩ := visitAll_early steady back early
  rw [← hx] at early hwhole
  obtain ⟨hended, htally⟩ := exec_run_around responder settings running
    ⟨subject, before ++ config :: after⟩ later s
  obtain ⟨hwithout, htally'⟩ := exec_run_around responder settings running
    ⟨subject, before ++ after⟩ later s
  have hwith : earlier.flatMap Job.pairs ++ (Job.pairs ⟨subject, before ++ config :: after⟩ ++
      (later.take more).flatMap Job.pairs) = front ++ (subject, config) :: back := by
    simp [front, back, pairs_of_active watched, active]
  have hcut : earlier.flatMap Job.pairs ++ (Job.pairs ⟨subject, before ++ after⟩ ++
      (later.take more).flatMap Job.pairs) = front ++ back := by
    simp [front, back, pairs_of_active watched]
  rw [hwith] at hended htally
  rw [hcut] at hwithout htally'
  rw [← hended, ← hwithout] at close
  obtain ⟨e, he⟩ := Visit.failsEarly_error early
  refine ⟨steady.recorded close, steady.published close,
    fun a => (Run.exec_alike steady a.isQuiet close).1, close, e, he, ?_⟩
  rw [htally, htally', hwhole, hshort]
  dsimp only
  rw [foldl_count_insert he]
  simp only [Tally.countError_eq]

/-! ### A subject that was seen too briefly -/

/-- Watches whether the subject of the hourly watch rests. One position does not tell. -/
def restConfig : AnalyzerConfig where
  id := { bits := 3 }
  name := "rest"
  settings := .immobility {}

theorem failure_isolated_restConfig :
    let settings : Settings := { context := { sampler := some Analyzer.highValues } }
    let world := Stores.responder Analyzer.highValues
    let batch (jobs : List Job) := (run settings (fun _ => false) jobs).exec world
      { now := .epoch, observations := Analyzer.sighting }
    let subject := hourlyWatch.subject
    let x := ((visit settings subject restConfig).exec world
      (batch [hourlyWatch, ⟨subject, []⟩]).2).1
    let ended := batch [hourlyWatch, ⟨subject, restConfig :: hourlyWatch.configs⟩, hourlyWatch]
    let without := batch [hourlyWatch, ⟨subject, hourlyWatch.configs⟩, hourlyWatch]
    x.failsEarly = true ∧ ended.2.findings = without.2.findings ∧
    ended.2.events = without.2.events ∧ without.1.1.events = 1 ∧ without.1.1.quietSkipped = 2 ∧
    ended.1.1 = { without.1.1 with
      analyzersRun := without.1.1.analyzersRun + 1
      insufficientData := without.1.1.insufficientData + 1 } := by
  intro settings world batch subject x ended without
  have early : x.failsEarly = true := by decide +kernel
  have ran : x.isRun = true := by decide +kernel
  have short : x.error?.all (·.isShortage) = true := by decide +kernel
  obtain ⟨hfindings, hevents, -, -, e, he, htally⟩ :=
    failure_isolated world _ _ Stores.Alike (Stores.steady Analyzer.highValues) settings
      (fun _ => false) [hourlyWatch] [hourlyWatch] subject [] hourlyWatch.configs restConfig
      { now := .epoch, observations := Analyzer.sighting } (by decide) (by decide) (fun _ _ => rfl)
      early
  refine ⟨early, hfindings, hevents, by decide +kernel, by decide +kernel, htally.trans ?_⟩
  have he : x.error? = some e := he
  rw [he, Option.all_some] at short
  change Tally.countError { without.1.1 with
    analyzersRun := without.1.1.analyzersRun + x.isRun.toNat } e = _
  rw [Tally.countError, if_pos short, ran]
  rfl

end Batch

end Geotrack
