import Geotrack.Proofs.Analysis.Retry
import Geotrack.Proofs.Analysis.Scope
import Geotrack.Proofs.Analysis.Visits
import Geotrack.Proofs.Time.Span

/-!
# Quiet periods over a history of batches

A published event starts a pause for its configuration and subject, and while the pause lasts
batches skip the two. `Kept` is what the end of the pause knows of all visits so far. It holds of
every history of batches and moves of the clock: `History.kept`.
-/

namespace Geotrack

theorem exists_ok_of_bind {ε α β : Type} {x : Except ε α} {f : α → Except ε β} {b : β}
    (h : x >>= f = .ok b) : ∃ a, x = .ok a ∧ f a = .ok b := by
  cases x with
  | error e => cases h
  | ok a => exact ⟨a, rfl, h⟩

namespace Analyzer

variable {a : Analyzer} {s : Stores} {f : Finding} {key : String} {length : Int} {finish : Instant}

/-! ### The effect of settling on a pause -/

/-- Starting a pause touches the analyzer's own key and nothing else. -/
theorem exists_paused (a : Analyzer) (s : Stores) : ∃ pauses, a.paused s = { s with pauses } ∧
    ∀ key, key ≠ quietKey a.config.id a.subject.id →
      Directory.find? key pauses = Directory.find? key s.pauses := by
  unfold paused
  split
  · exact ⟨_, rfl, fun _ _ => rfl⟩
  · unfold Stores.pause
    cases s.now.plus? _ with
    | none => exact ⟨_, rfl, fun _ _ => rfl⟩
    | some finish => exact ⟨_, rfl, fun key other => by rw [Directory.find?_put, if_neg other.symm]⟩

@[simp] theorem paused_now : (a.paused s).now = s.now := by
  obtain ⟨pauses, h, -⟩ := a.exists_paused s
  rw [h]

@[simp] theorem paused_events : (a.paused s).events = s.events := by
  obtain ⟨pauses, h, -⟩ := a.exists_paused s
  rw [h]

@[simp] theorem settled_now : (a.settled s f).now = s.now := by
  unfold settled
  split <;> simp

@[simp] theorem settled_events :
    (a.settled s f).events = s.events ++ (a.published? s f).toList := by
  unfold settled
  split <;> simp

theorem posted_pauses : (a.posted s f).pauses = s.pauses := by
  unfold posted recorded
  split <;> split <;> rfl

theorem find?_paused (period : a.config.quietPeriod = some length)
    (ends : s.now.plus? length = some finish) :
    Directory.find? (quietKey a.config.id a.subject.id) (a.paused s).pauses = some finish := by
  simp [paused, period, Stores.pause, ends, Directory.find?_put]

theorem find?_foldl_settled_other (other : key ≠ quietKey a.config.id a.subject.id)
    (fs : List Finding) :
    Directory.find? key (fs.foldl a.settled s).pauses = Directory.find? key s.pauses := by
  induction fs generalizing s with
  | nil => rfl
  | cons f fs ih =>
    rw [List.foldl_cons, ih, settled]
    split
    · obtain ⟨pauses, h, hother⟩ := a.exists_paused (a.posted s f)
      rw [h, hother key other, posted_pauses]
    · rw [posted_pauses]

theorem foldl_settled_events (fs : List Finding) :
    (fs.foldl a.settled s).events = s.events ++ (a.outcomes s fs).filterMap (·.event) := by
  induction fs generalizing s with
  | nil => simp [outcomes]
  | cons f fs ih =>
    rw [List.foldl_cons, ih, settled_events, outcomes, List.append_assoc]
    cases a.published? s f <;> simp

/-- Settling findings starts the pause if an event is published, and leaves it alone otherwise. -/
theorem find?_foldl_settled (period : a.config.quietPeriod = some length)
    (ends : s.now.plus? length = some finish) (fs : List Finding) :
    Directory.find? (quietKey a.config.id a.subject.id) (fs.foldl a.settled s).pauses =
      if (a.outcomes s fs).filterMap (·.event) = [] then
        Directory.find? (quietKey a.config.id a.subject.id) s.pauses
      else some finish := by
  induction fs generalizing s with
  | nil => rfl
  | cons f fs ih =>
    rw [List.foldl_cons, ih (by simpa using ends), outcomes]
    cases h : a.published? s f with
    | none =>
      have hsettled : a.settled s f = a.posted s f := by simp [settled, h]
      rw [hsettled, posted_pauses]
      rfl
    | some e =>
      have hsettled : a.settled s f = a.paused (a.posted s f) := by simp [settled, h]
      rw [hsettled, find?_paused period (by simpa using ends)]
      simp

/-! ### Asking whether an analyzer pauses -/

theorem exec_isQuiet (sampler : Sampler) (period : a.config.quietPeriod = some length) :
    a.isQuiet.exec (Stores.responder sampler) s =
      s.isQuiet (quietKey a.config.id a.subject.id) := by
  unfold isQuiet
  rw [period]
  rfl

theorem forSubject_ok {subject : Subject} {config : AnalyzerConfig} {task : Task}
    {h : task.kind = config.kind} (made : forSubject subject config task h = .ok a) :
    a.subject = subject ∧ a.config = config := by
  unfold forSubject at made
  split at made
  · cases made
    exact ⟨rfl, rfl⟩
  · cases made

/-- An analyzer is of the subject and the configuration that it is made of. -/
theorem ofConfig_ok {subject : Subject} {config : AnalyzerConfig} {context : Context}
    (made : ofConfig subject config context = .ok a) : a.subject = subject ∧ a.config = config := by
  unfold ofConfig at made
  split at made
  · unfold geofence at made
    split at made
    · obtain ⟨fences, -, made⟩ := exists_ok_of_bind made
      obtain ⟨regions, -, made⟩ := exists_ok_of_bind made
      exact forSubject_ok made
    · cases made
  · unfold immobility at made
    split at made
    · exact forSubject_ok made
    · cases made
  · unfold proximity at made
    split at made
    · obtain ⟨features, -, made⟩ := exists_ok_of_bind made
      exact forSubject_ok made
    · cases made
  · split at made
    · unfold environmental at made
      split at made
      · exact forSubject_ok made
      · cases made
    · cases made

end Analyzer

/-! ### What a visit does -/

namespace Stores

variable (s : Stores) (key : String)

theorem isQuiet_cases :
    (∃ finish, Directory.find? key s.pauses = some finish ∧ s.now < finish ∧
      s.isQuiet key = (true, s)) ∨
    ((∀ finish, Directory.find? key s.pauses = some finish → finish ≤ s.now) ∧
      (s.isQuiet key).1 = false ∧ Directory.find? key (s.isQuiet key).2.pauses = none) := by
  unfold isQuiet
  cases h : Directory.find? key s.pauses with
  | none => exact .inr ⟨nofun, rfl, h⟩
  | some finish =>
    by_cases lasts : s.now < finish
    · exact .inl ⟨finish, rfl, lasts, by simp [lasts]⟩
    · refine .inr ⟨?_, by simp [lasts], by simp [lasts, Directory.find?_remove]⟩
      rintro _ ⟨⟩
      exact Instant.not_lt.mp lasts

/-- Asking for a pause touches its key and nothing else. -/
theorem exists_isQuiet :
    ∃ pauses, (s.isQuiet key).2 = { s with pauses } ∧
      ∀ other, other ≠ key → Directory.find? other pauses = Directory.find? other s.pauses := by
  unfold isQuiet
  split
  · split
    · exact ⟨_, rfl, fun _ _ => rfl⟩
    · exact ⟨_, rfl, fun other h => by rw [Directory.find?_remove, if_neg h.symm]⟩
  · exact ⟨_, rfl, fun _ _ => rfl⟩

variable {s}

theorem answer_now {β : Type} (sampler : Sampler) (c : Call β) :
    (answer sampler c s).2.now = s.now := by
  cases c with
  | isQuiet key =>
    obtain ⟨pauses, h, -⟩ := s.exists_isQuiet key
    change (s.isQuiet key).2.now = s.now
    rw [h]
  | pause key length =>
    simp only [answer, pause]
    cases s.now.plus? length <;> rfl
  | _ => rfl

end Stores

/-- Runs do not move the clock. -/
theorem Run.exec_now {α : Type} (sampler : Sampler) (r : Run α) (s : Stores) :
    (r.exec (Stores.responder sampler) s).2.now = s.now := by
  induction r generalizing s with
  | done a => rfl
  | ask c next ih => exact (ih _ _).trans (Stores.answer_now sampler c)

namespace Analyzer

variable (sampler : Sampler)

/-- An analyzer that is asked whether it pauses touches its own key and nothing else. -/
theorem exists_exec_isQuiet (a : Analyzer) (s : Stores) :
    ∃ pauses, (a.isQuiet.exec (Stores.responder sampler) s).2 = { s with pauses } ∧
      ∀ key, key ≠ quietKey a.config.id a.subject.id →
        Directory.find? key pauses = Directory.find? key s.pauses := by
  cases period : a.config.quietPeriod with
  | none => exact ⟨s.pauses, by simp [isQuiet, period, Run.exec], fun _ _ => rfl⟩
  | some length =>
    rw [exec_isQuiet sampler period]
    exact s.exists_isQuiet _

end Analyzer

namespace Batch

variable {settings : Settings} {subject : Subject} {config : AnalyzerConfig} {a : Analyzer}
  {sampler : Sampler} {s : Stores}

/-- The events of a visit are published. -/
theorem exec_visit_events :
    ((visit settings subject config).exec (Stores.responder sampler) s).2.events =
      s.events ++ ((visit settings subject config).exec (Stores.responder sampler) s).1.events := by
  cases made : Analyzer.ofConfig subject config settings.context with
  | error e => simp [exec_visit_unbuilt made, Visit.events]
  | ok a =>
    obtain ⟨pauses, hasked, -⟩ := a.exists_exec_isQuiet sampler s
    rw [exec_visit made]
    dsimp only
    rw [hasked]
    split
    · simp [Visit.events]
    · rw [Analyzer.exec_run]
      cases a.found { s with pauses } sampler none (settings.filter subject) with
      | error e => simp [Visit.events]
      | ok fs => simp [Visit.events, Analyzer.foldl_settled_events]

namespace Visit

/-- Whether the visit was to an analyzer of a configuration and a subject. -/
def isFor (config subject : Uuid) : Visit → Prop
  | .unbuilt _ => False
  | .skipped a => a.config.id = config ∧ a.subject.id = subject
  | .ran a _ => a.config.id = config ∧ a.subject.id = subject

/-- Whether a visit to an analyzer of a configuration and a subject published an event. -/
def publishes (config subject : Uuid) (x : Visit) : Prop := x.isFor config subject ∧ x.events ≠ []

/-- Whether an analyzer of a configuration and a subject was skipped. -/
def skips (config subject : Uuid) (x : Visit) : Prop := x.isFor config subject ∧ x.isSkip = true

/-- How a visit at a time finds the end of the pause of a configuration and a subject, and how it
leaves it. -/
inductive Moves (config subject : Uuid) (length : Int) (now : Instant) :
    Option Instant → Visit → Option Instant → Prop
  | other {finish? : Option Instant} {x : Visit} (h : ¬ x.isFor config subject) :
    Moves config subject length now finish? x finish?
  | skipped {finish : Instant} {a : Analyzer} (lasts : now < finish) :
    Moves config subject length now (some finish) (.skipped a) (some finish)
  | ran {finish? left : Option Instant} {a : Analyzer}
    {result : Except AnalysisError (List Outcome)} (own : (ran a result).isFor config subject)
    (ended : ∀ finish, finish? = some finish → finish ≤ now)
    (anew : left = if (ran a result).events = [] then none else now.plus? length) :
    Moves config subject length now finish? (.ran a result) left

end Visit

/-- A visit moves the end of the pause if configurations of the id have the length of the pause. -/
theorem exec_visit_moves {watched of : Uuid} {length : Int} {finish : Instant}
    (steady : config.id = watched → config.quietPeriod = some length)
    (ends : s.now.plus? length = some finish) :
    Visit.Moves watched of length s.now (Directory.find? (quietKey watched of) s.pauses)
      ((visit settings subject config).exec (Stores.responder sampler) s).1
      (Directory.find? (quietKey watched of)
        ((visit settings subject config).exec (Stores.responder sampler) s).2.pauses) := by
  cases made : Analyzer.ofConfig subject config settings.context with
  | error e =>
    rw [exec_visit_unbuilt made]
    exact .other id
  | ok a =>
    obtain ⟨-, rfl⟩ := Analyzer.ofConfig_ok made
    rw [exec_visit made]
    by_cases own : a.config.id = watched ∧ a.subject.id = of
    · obtain ⟨rfl, rfl⟩ := own
      have period := steady rfl
      rw [Analyzer.exec_isQuiet sampler period]
      rcases s.isQuiet_cases (quietKey a.config.id a.subject.id) with
        ⟨finish, hfind, lasts, hquiet⟩ | ⟨ended, hquiet, hnone⟩
      · rw [hquiet, hfind]
        simp only [if_pos, hfind]
        exact .skipped lasts
      · -- asked in vain the store forgets the pause, so that an event starts it anew
        have hnow : (s.isQuiet (quietKey a.config.id a.subject.id)).2.now = s.now :=
          Stores.answer_now sampler (.isQuiet (quietKey a.config.id a.subject.id))
        simp only [hquiet, Bool.false_eq_true, if_false, Analyzer.exec_run]
        cases a.found (s.isQuiet (quietKey a.config.id a.subject.id)).2 sampler none
          (settings.filter subject) with
        | error e => exact .ran ⟨rfl, rfl⟩ ended hnone
        | ok fs =>
          refine .ran ⟨rfl, rfl⟩ ended ?_
          dsimp only
          rw [Analyzer.find?_foldl_settled period (hnow ▸ ends), hnone, ends]
          rfl
    · have other : quietKey watched of ≠ quietKey a.config.id a.subject.id := fun h =>
        own ⟨(quietKey_inj h).1.symm, (quietKey_inj h).2.symm⟩
      obtain ⟨pauses, hasked, hother⟩ := a.exists_exec_isQuiet sampler s
      dsimp only
      rw [hasked, ← hother _ other]
      split
      · exact .other own
      · rw [Analyzer.exec_run]
        cases a.found { s with pauses } sampler none (settings.filter subject) with
        | error e => exact .other own
        | ok fs =>
          dsimp only
          rw [Analyzer.find?_foldl_settled_other other]
          exact .other own

/-! ### What the end of a pause knows -/

/-- A visit and the time at which it was made. -/
abbrev Logged := Instant × Visit

/-- What holds of all visits so far, oldest first, and the end of the pause of a configuration and a
subject. -/
structure Kept (config subject : Uuid) (length : Int) (log : List Logged)
    (finish? : Option Instant) (now : Instant) : Prop where
  past : ∀ x ∈ log, x.1 ≤ now
  /-- What a publication started is over or still stands. -/
  ended : ∀ x ∈ log, x.2.publishes config subject →
    ∃ finish, x.1.plus? length = some finish ∧ (finish ≤ now ∨ finish? = some finish)
  started : ∀ finish, finish? = some finish →
    ∃ x ∈ log, x.2.publishes config subject ∧ x.1.plus? length = some finish
  apart : log.Pairwise fun x y => x.2.publishes config subject → y.2.publishes config subject →
    Instant.AtLeast length x.1 y.1
  repeats : ∀ before y, before ++ [y] <+: log → y.2.skips config subject →
    ∃ x ∈ before, x.2.publishes config subject ∧ Instant.Within length x.1 y.1

namespace Kept

variable {watched of : Uuid} {length : Int} {log : List Logged} {now : Instant}
  {finish? left : Option Instant} {x : Visit} {finish : Instant}

theorem start : Kept watched of length [] none now where
  past := by simp
  ended := by simp
  started := by simp
  apart := .nil
  repeats before y h := by simp at h

theorem later (h : Kept watched of length log finish? now) {next : Instant} (le : now ≤ next) :
    Kept watched of length log finish? next where
  past x hx := Instant.le_trans (h.past x hx) le
  ended x hx published := by
    obtain ⟨finish, hfinish, ended⟩ := h.ended x hx published
    exact ⟨finish, hfinish, ended.imp_left fun ended => Instant.le_trans ended le⟩
  started := h.started
  apart := h.apart
  repeats := h.repeats

/-- An analyzer that publishes was not pausing. -/
theorem ended_of_publishes (moves : x.Moves watched of length now finish? left)
    (published : x.publishes watched of) :
    (∀ finish, finish? = some finish → finish ≤ now) ∧ left = now.plus? length := by
  cases moves with
  | other h => exact absurd published.1 h
  | skipped lasts => exact absurd rfl published.2
  | ran own ended anew => exact ⟨ended, by rw [anew, if_neg published.2]⟩

/-- An analyzer that is skipped is pausing. -/
theorem lasts_of_skips (moves : x.Moves watched of length now finish? left)
    (skipped : x.skips watched of) : ∃ finish, finish? = some finish ∧ now < finish := by
  cases moves with
  | other h => exact absurd skipped.1 h
  | skipped lasts => exact ⟨_, rfl, lasts⟩
  | ran own ended anew => exact absurd skipped.2 Bool.false_ne_true

/-- A visit keeps what the end of the pause knows. -/
theorem visited (h : Kept watched of length log finish? now)
    (moves : x.Moves watched of length now finish? left) (ends : now.plus? length = some finish) :
    Kept watched of length (log ++ [(now, x)]) left now where
  past y hy := by
    rcases List.mem_append.mp hy with hy | hy
    · exact h.past y hy
    · obtain rfl := List.mem_singleton.mp hy
      exact Instant.le_refl now
  ended y hy published := by
    rcases List.mem_append.mp hy with hy | hy
    · obtain ⟨f, hf, ended⟩ := h.ended y hy published
      refine ⟨f, hf, ?_⟩
      -- a visit that may start the pause anew has found the old one over
      cases moves with
      | other _ => exact ended
      | skipped _ => exact ended
      | ran _ past _ => exact .inl (ended.elim id (past f))
    · obtain rfl := List.mem_singleton.mp hy
      exact ⟨finish, ends, .inr ((ended_of_publishes moves published).2.trans ends)⟩
  started f hf := by
    have lift (known : finish? = some f) : ∃ y ∈ log ++ [(now, x)],
        y.2.publishes watched of ∧ y.1.plus? length = some f := by
      obtain ⟨y, hy, hstarted⟩ := h.started f known
      exact ⟨y, List.mem_append_left _ hy, hstarted⟩
    cases moves with
    | other _ => exact lift hf
    | skipped _ => exact lift hf
    | ran own _ anew =>
      rw [anew] at hf
      split at hf
      · cases hf
      · rename_i told
        exact ⟨_, List.mem_append_right _ List.mem_cons_self, ⟨own, told⟩, hf⟩
  apart := by
    refine List.pairwise_append.mpr ⟨h.apart, List.pairwise_singleton _ _, fun y hy z hz => ?_⟩
    obtain rfl := List.mem_singleton.mp hz
    intro earlier later
    -- what the earlier publication started cannot stand, or the later one would have been skipped
    obtain ⟨f, hf, ended⟩ := h.ended y hy earlier
    exact Instant.atLeast_of_le hf (ended.elim id ((ended_of_publishes moves later).1 f))
  repeats before y hprefix skipped := by
    rcases List.prefix_concat_iff.mp hprefix with last | known
    · obtain ⟨rfl, hy⟩ := List.append_inj' last rfl
      obtain rfl := List.singleton_inj.mp hy
      obtain ⟨f, hf, lasts⟩ := lasts_of_skips moves skipped
      obtain ⟨z, hz, started, hfinish⟩ := h.started f hf
      exact ⟨z, hz, started, Instant.within_of_lt (h.past z hz) hfinish lasts⟩
    · exact h.repeats before y known skipped

end Kept

/-! ### Histories -/

/-- What a batch did: the stores before and after, its tally, and its visits. -/
structure Report where
  before : Stores
  after : Stores
  tally : Tally
  visits : List Visit

/-- The report of a batch. -/
def report (settings : Settings) (cancelled : Nat → Bool) (jobs : List Job) (sampler : Sampler)
    (s : Stores) : Report where
  before := s
  after := ((run settings cancelled jobs).exec (Stores.responder sampler) s).2
  tally := ((run settings cancelled jobs).exec (Stores.responder sampler) s).1.1
  visits := ((visits settings cancelled jobs 0).exec (Stores.responder sampler) s).1

def Report.logged (r : Report) : List Logged := r.visits.map (r.before.now, ·)

/-- Batches over stores without pauses to begin with. In between the clock moves on, and all but the
pauses may change. Configurations of the id have one quiet period, and the clock can tell its
end. -/
inductive History (config : Uuid) (length : Int) : Stores → List Report → Prop
  | start {s : Stores} (empty : s.pauses = []) : History config length s []
  | move {s t : Stores} {reports : List Report} (history : History config length s reports)
    (later : s.now ≤ t.now) (same : t.pauses = s.pauses) : History config length t reports
  | batch {s : Stores} {reports : List Report} (history : History config length s reports)
    (settings : Settings) (cancelled : Nat → Bool) (jobs : List Job) (sampler : Sampler)
    (steady : ∀ job ∈ jobs, ∀ c ∈ job.configs, c.id = config → c.quietPeriod = some length)
    (ends : (s.now.plus? length).isSome) :
    History config length (report settings cancelled jobs sampler s).after
      (reports ++ [report settings cancelled jobs sampler s])

variable {cancelled : Nat → Bool} {jobs : List Job} {watched of : Uuid} {length : Int}
  {reports : List Report}

theorem report_quietSkipped :
    (report settings cancelled jobs sampler s).tally.quietSkipped =
      (report settings cancelled jobs sampler s).visits.countP (·.isSkip) := by
  have h : (report settings cancelled jobs sampler s).tally.ofVisits =
      (report settings cancelled jobs sampler s).visits.foldl Tally.count {} :=
    (exec_run _ jobs s).1
  change (report settings cancelled jobs sampler s).tally.ofVisits.quietSkipped = _
  rw [h, Tally.foldl_count]
  exact Nat.zero_add _

theorem report_after :
    (report settings cancelled jobs sampler s).after =
      ((visits settings cancelled jobs 0).exec (Stores.responder sampler) s).2 :=
  (exec_run _ jobs s).2

theorem report_events :
    (report settings cancelled jobs sampler s).after.events =
      s.events ++ (report settings cancelled jobs sampler s).visits.flatMap (·.events) := by
  rw [report_after]
  refine kept_visits (fun xs (t : Stores) => t.events = s.events ++ xs.flatMap (·.events)) ?_
    (by simp)
  intro job _ config _ xs t ht
  rw [exec_visit_events, ht]
  simp

/-- A batch keeps what the end of a pause knows. -/
theorem Kept.batch {log : List Logged}
    (steady : ∀ job ∈ jobs, ∀ c ∈ job.configs, c.id = watched → c.quietPeriod = some length)
    (ends : (s.now.plus? length).isSome)
    (h : Kept watched of length log (Directory.find? (quietKey watched of) s.pauses) s.now) :
    Kept watched of length (log ++ (report settings cancelled jobs sampler s).logged)
      (Directory.find? (quietKey watched of)
        (report settings cancelled jobs sampler s).after.pauses)
      (report settings cancelled jobs sampler s).after.now := by
  obtain ⟨finish, hfinish⟩ := Option.isSome_iff_exists.mp ends
  rw [report_after]
  refine (kept_visits (fun xs (t : Stores) => t.now = s.now ∧
    Kept watched of length (log ++ xs.map (s.now, ·))
      (Directory.find? (quietKey watched of) t.pauses) t.now) ?_ ⟨rfl, by simpa using h⟩).2
  rintro job hjob config hconfig xs t ⟨hnow, kept⟩
  have ends' : t.now.plus? length = some finish := by rw [hnow, hfinish]
  have moved := kept.visited
    (exec_visit_moves (steady job hjob config hconfig) ends' :
      Visit.Moves watched of length t.now (Directory.find? (quietKey watched of) t.pauses)
        ((visit settings job.subject config).exec (Stores.responder sampler) t).1 _) ends'
  have hleft := Run.exec_now sampler (visit settings job.subject config) t
  refine ⟨hleft.trans hnow, ?_⟩
  rw [List.append_assoc, hnow] at moved
  rw [hleft, hnow, List.map_append]
  exact moved

/-- The end of a pause knows all visits of a history. -/
theorem History.kept {s : Stores} (h : History watched length s reports) :
    Kept watched of length (reports.flatMap Report.logged)
      (Directory.find? (quietKey watched of) s.pauses) s.now := by
  induction h with
  | start empty =>
    rw [empty]
    exact .start
  | move history later same ih =>
    rw [same]
    exact ih.later later
  | batch history settings cancelled jobs sampler steady ends ih =>
    rw [List.flatMap_append, List.flatMap_singleton]
    exact ih.batch steady ends

theorem History.report_eq {s : Stores} (h : History watched length s reports) :
    ∀ r ∈ reports, r.tally.quietSkipped = r.visits.countP (·.isSkip) ∧
      r.after.events = r.before.events ++ r.visits.flatMap (·.events) := by
  induction h with
  | start empty => simp
  | move history later same ih => exact ih
  | batch history settings cancelled jobs sampler steady ends ih =>
    intro r hr
    rcases List.mem_append.mp hr with hr | hr
    · exact ih r hr
    · obtain rfl := List.mem_singleton.mp hr
      exact ⟨report_quietSkipped, report_events⟩

/-- Over any history of batches an analyzer of one configuration and one subject publishes at times
that are no less than the quiet period apart, and is skipped only less than the quiet period after
it has published. The tally counts just the visits that are skipped, and what visits publish is what
the stores gain. -/
theorem quiet_periods {config : Uuid} {length : Int} {s : Stores} {reports : List Report}
    (history : History config length s reports) (subject : Uuid) :
    (∀ r ∈ reports, r.tally.quietSkipped = r.visits.countP (·.isSkip) ∧
      r.after.events = r.before.events ++ r.visits.flatMap (·.events)) ∧
    ((reports.flatMap Report.logged).Pairwise fun x y =>
      x.2.publishes config subject → y.2.publishes config subject →
        Instant.AtLeast length x.1 y.1) ∧
    ∀ before y, before ++ [y] <+: reports.flatMap Report.logged → y.2.skips config subject →
      ∃ x ∈ before, x.2.publishes config subject ∧ Instant.Within length x.1 y.1 :=
  ⟨history.report_eq, history.kept.apart, history.kept.repeats⟩

/-! ### A pause that is kept and one that is over -/

/-- Watches the exposure of a subject and pauses an hour after an event. -/
def hourlyWatch : Job where
  subject := Analyzer.footprintWatch.subject
  configs := [{ Analyzer.footprintWatch.config with quietSeconds := some 3600 }]

/-- The report of a batch of one watch. -/
def watchOnce (s : Stores) : Report :=
  report { context := { sampler := some Analyzer.highValues } } (fun _ => false) [hourlyWatch]
    Analyzer.highValues s

def atEpoch : Report := watchOnce { now := .epoch, observations := Analyzer.sighting }

def oneSecondOn : Report := watchOnce { atEpoch.after with now := .ofNanos 1000000000 }

/-- A batch two hours after the epoch, for which the subject has been sighted anew. -/
def twoHoursOn : Report :=
  watchOnce { oneSecondOn.after with
    now := .ofNanos 7200000000000
    observations := [⟨.nil, .ofNanos 7200000000000, -1.3, 36.8⟩] }

theorem History.watchOnce {s : Stores} (h : History .nil 3600000000000 s reports)
    (ends : (s.now.plus? 3600000000000).isSome) :
    History .nil 3600000000000 (watchOnce s).after (reports ++ [watchOnce s]) := by
  have steady : ∀ job ∈ [hourlyWatch], ∀ c ∈ job.configs, c.id = .nil →
      c.quietPeriod = some 3600000000000 := by decide +kernel
  exact .batch h _ _ _ _ steady ends

theorem history_twoHoursOn :
    History .nil 3600000000000 twoHoursOn.after [atEpoch, oneSecondOn, twoHoursOn] := by
  have first : History .nil 3600000000000 atEpoch.after [atEpoch] :=
    (History.start rfl).watchOnce (by decide +kernel)
  have second : History .nil 3600000000000 oneSecondOn.after [atEpoch, oneSecondOn] :=
    (first.move (t := { atEpoch.after with now := .ofNanos 1000000000 }) (by decide +kernel)
      rfl).watchOnce (by decide +kernel)
  exact (second.move (t := { oneSecondOn.after with
    now := .ofNanos 7200000000000
    observations := [⟨.nil, .ofNanos 7200000000000, -1.3, 36.8⟩] }) (by decide +kernel)
      rfl).watchOnce (by decide +kernel)

/-- The first and the last of the three batches publish, the one between them is skipped. -/
theorem quiet_periods_twoHoursOn :
    let log := [atEpoch, oneSecondOn, twoHoursOn].flatMap Report.logged
    History .nil 3600000000000 twoHoursOn.after [atEpoch, oneSecondOn, twoHoursOn] ∧
    log.map (fun x => (x.2.events.length, x.2.isSkip)) = [(1, false), (0, true), (1, false)] ∧
    (log.Pairwise fun x y => x.2.publishes .nil .nil → y.2.publishes .nil .nil →
      Instant.AtLeast 3600000000000 x.1 y.1) ∧
    ∀ before y, before ++ [y] <+: log → y.2.skips .nil .nil →
      ∃ x ∈ before, x.2.publishes .nil .nil ∧ Instant.Within 3600000000000 x.1 y.1 :=
  ⟨history_twoHoursOn, by decide +kernel, (quiet_periods history_twoHoursOn .nil).2⟩

end Batch

end Geotrack
