import Geotrack.Proofs.Analysis.Retry
import Geotrack.Proofs.Analysis.Scope

/-!
# Analyses at once

Analyses that share their stores make their calls in any order, one call at a time. Where they are
about different subjects the order does not show: each returns what it returns alone, and the stores
hold for each subject what any order of whole analyses leaves there.
-/

namespace Geotrack

/-- A run about a subject that is under way. -/
structure Thread (α : Type) where
  subject : Uuid
  sampler : Sampler
  run : Run α

/-- What a thread returns and leaves alone. -/
def Thread.exec {α : Type} (th : Thread α) (s : Stores) : α × Stores :=
  th.run.exec (Stores.responder th.sampler) s

variable {α : Type}

/-- Threads make calls, each time any one of them, until all are done. -/
inductive Interleaves : List (Thread α) → Stores → List α → Stores → Prop
  | done {threads : List (Thread α)} {results : List α} {s : Stores}
    (all : threads.map (·.run) = results.map .done) : Interleaves threads s results s
  | call {before after : List (Thread α)} {u : Uuid} {sampler : Sampler} {β : Type} {c : Call β}
    {next : Except StoreError β → Run α} {s t : Stores} {results : List α}
    (rest : Interleaves (before ++ ⟨u, sampler, next (Stores.answer sampler c s).1⟩ :: after)
      (Stores.answer sampler c s).2 results t) :
    Interleaves (before ++ ⟨u, sampler, .ask c next⟩ :: after) s results t

/-- Threads run one after the other. -/
def inTurn : List (Thread α) → Stores → List α × Stores
  | [], s => ([], s)
  | th :: rest, s =>
    let (a, t) := th.exec s
    let (as, u) := inTurn rest t
    (a :: as, u)

/-- A thread can be run to its end before any other makes a call. -/
theorem Interleaves.finish {before after : List (Thread α)} {u : Uuid} {sampler : Sampler}
    (r : Run α) {s t : Stores} {results : List α}
    (rest : Interleaves
      (before ++ ⟨u, sampler, .done (r.exec (Stores.responder sampler) s).1⟩ :: after)
      (r.exec (Stores.responder sampler) s).2 results t) :
    Interleaves (before ++ ⟨u, sampler, r⟩ :: after) s results t := by
  induction r generalizing s with
  | done a => exact rest
  | ask c next ih => exact .call (ih _ rest)

/-- Running threads one after the other is one way to mix their calls. -/
theorem interleaves_inTurn (threads : List (Thread α)) (s : Stores) :
    Interleaves threads s (inTurn threads s).1 (inTurn threads s).2 := by
  suffices h : ∀ (ended : List (Thread α)) (results : List α),
      ended.map (·.run) = results.map .done →
      Interleaves (ended ++ threads) s (results ++ (inTurn threads s).1) (inTurn threads s).2 from
    h [] [] rfl
  induction threads generalizing s with
  | nil => exact fun ended results all => .done (by simpa [inTurn] using all)
  | cons th threads ih =>
    intro ended results all
    refine .finish th.run ?_
    have h := ih (th.exec s).2 (ended ++ [⟨th.subject, th.sampler, .done (th.exec s).1⟩])
      (results ++ [(th.exec s).1]) (by simp [all])
    rw [List.append_assoc, List.append_assoc] at h
    exact h

/-! ### Threads about different subjects -/

section Scope

variable {u : Uuid} {kind : α → Prop} {r : Run α} {s t : Stores} {sampler : Sampler}

/-- A run about a subject depends on what the stores hold for the subject. -/
theorem Run.About.exec (h : r.About u kind) (same : s.SameFor u t) :
    (r.exec (Stores.responder sampler) s).1 = (r.exec (Stores.responder sampler) t).1 ∧
      (r.exec (Stores.responder sampler) s).2.SameFor u
        (r.exec (Stores.responder sampler) t).2 := by
  induction h generalizing s t with
  | done of => exact ⟨rfl, same⟩
  | @ask _ c next about goes ih =>
    obtain ⟨hanswer, hleft⟩ := same.answer sampler about
    simp only [Run.exec, Stores.responder]
    rw [hanswer]
    exact ih _ hleft

end Scope

/-- Threads each of which is about a subject of its own. -/
structure Apart (threads : List (Thread α)) : Prop where
  distinct : (threads.map (·.subject)).Nodup
  about : ∀ th ∈ threads, th.run.About th.subject fun _ => True

variable {threads : List (Thread α)} {s t : Stores} {results : List α}

theorem Thread.exec_sameFor {th : Thread α} (about : th.run.About th.subject fun _ => True)
    (same : s.SameFor th.subject t) :
    (th.exec s).1 = (th.exec t).1 ∧ (th.exec s).2.SameFor th.subject (th.exec t).2 :=
  about.exec same

theorem exec_of_done (all : threads.map (·.run) = results.map .done) (s : Stores) :
    threads.map (·.exec s) = results.map (·, s) := by
  induction threads generalizing results with
  | nil =>
    cases results with
    | nil => rfl
    | cons a results => cases all
  | cons th threads ih =>
    cases results with
    | nil => cases all
    | cons a results =>
      obtain ⟨hhead, hrest⟩ := List.cons.inj all
      have hrun : th.run = .done a := hhead
      rw [List.map_cons, List.map_cons, ih hrest, Thread.exec, hrun]
      rfl

theorem mem_between {β : Type _} {before after : List β} {x y : β} :
    x ∈ before ++ y :: after ↔ x = y ∨ x ∈ before ++ after :=
  List.perm_middle.mem_iff.trans List.mem_cons

namespace Apart

variable {before after : List (Thread α)} {v : Uuid} {sampler : Sampler} {β : Type} {c : Call β}
  {next : Except StoreError β → Run α}

/-- The first call of a thread is about its subject, and so is what it goes on with. -/
theorem head (h : Apart (before ++ ⟨v, sampler, .ask c next⟩ :: after)) :
    c.about v ∧ ∀ answer, (next answer).About v fun _ => True := by
  cases h.about ⟨v, sampler, .ask c next⟩ (by simp) with
  | ask about goes => exact ⟨about, goes⟩

/-- The other threads are about other subjects. -/
theorem others {th x : Thread α} (h : Apart (before ++ th :: after)) (hx : x ∈ before ++ after) :
    x.subject ≠ th.subject := by
  have distinct : ((th :: (before ++ after)).map (·.subject)).Nodup :=
    (List.perm_middle.map _).nodup_iff.mp h.distinct
  exact fun same => (List.nodup_cons.mp distinct).1 (List.mem_map.mpr ⟨x, hx, same⟩)

/-- Threads stay apart when one of them makes a call. -/
theorem step (h : Apart (before ++ ⟨v, sampler, .ask c next⟩ :: after))
    (answer : Except StoreError β) :
    Apart (before ++ ⟨v, sampler, next answer⟩ :: after) := by
  refine ⟨by simpa using h.distinct, fun th hth => ?_⟩
  rcases mem_between.mp hth with rfl | hth
  · exact h.head.2 answer
  · exact h.about th (mem_between.mpr (.inr hth))

end Apart

/-- However the calls of threads about different subjects are mixed, each returns what it returns
alone and leaves for its subject what it leaves alone. Nothing changes for other subjects. -/
theorem Interleaves.apart (h : Interleaves threads s results t) (apart : Apart threads) :
    results = threads.map (fun th => (th.exec s).1) ∧
    (∀ th ∈ threads, (th.exec s).2.SameFor th.subject t) ∧
    ∀ u, (∀ th ∈ threads, th.subject ≠ u) → s.SameFor u t := by
  induction h with
  | @done threads results s all =>
    have hexec := exec_of_done all s
    refine ⟨?_, fun th hth => ?_, fun u _ => .refl u s⟩
    · have := congrArg (List.map Prod.fst) hexec
      simpa [Function.comp_def] using this.symm
    · have := List.mem_map_of_mem (f := (·.exec s)) hth
      rw [hexec] at this
      obtain ⟨a, -, ha⟩ := List.mem_map.mp this
      rw [← ha]
      exact .refl _ s
  | @call before after v sampler β c next s t results rest ih =>
    obtain ⟨hresults, hown, hothers⟩ := ih (apart.step _)
    -- the call leaves what the other threads depend on
    have left {u : Uuid} (hu : u ≠ v) : s.SameFor u (Stores.answer sampler c s).2 :=
      Stores.sameFor_answer sampler apart.head.1 hu
    have alone {th : Thread α} (hth : th ∈ before ++ after) :
        (th.exec s).1 = (th.exec (Stores.answer sampler c s).2).1 ∧
          (th.exec s).2.SameFor th.subject (th.exec (Stores.answer sampler c s).2).2 :=
      Thread.exec_sameFor (apart.about th (mem_between.mpr (.inr hth))) (left (apart.others hth))
    refine ⟨?_, fun th hth => ?_, fun u hu => ?_⟩
    · rw [hresults, List.map_append, List.map_append, List.map_cons, List.map_cons]
      congr 1
      · exact List.map_congr_left fun th hth => (alone (List.mem_append_left _ hth)).1.symm
      · congr 1
        exact List.map_congr_left fun th hth => (alone (List.mem_append_right _ hth)).1.symm
    · rcases mem_between.mp hth with rfl | hth
      · exact hown ⟨v, sampler, next (Stores.answer sampler c s).1⟩ (mem_between.mpr (.inl rfl))
      · exact (alone hth).2.trans (hown th (mem_between.mpr (.inr hth)))
    · have hv : u ≠ v :=
        (hu ⟨v, sampler, .ask c next⟩ (mem_between.mpr (.inl rfl))).symm
      refine (left hv).trans (hothers u fun th hth => ?_)
      rcases mem_between.mp hth with rfl | hth
      · exact hv.symm
      · exact hu th (mem_between.mpr (.inr hth))

/-- However the calls of threads about different subjects are mixed, the stores hold the same for
each subject in the end. -/
theorem Interleaves.sameFor {order : List (Thread α)} {others : List α} {t' : Stores}
    (h : Interleaves threads s results t) (h' : Interleaves order s others t')
    (perm : order.Perm threads) (apart : Apart threads) (u : Uuid) : t.SameFor u t' := by
  have apart' : Apart order :=
    ⟨(perm.map _).nodup_iff.mpr apart.distinct, fun th hth => apart.about th (perm.mem_iff.mp hth)⟩
  obtain ⟨-, hown, hothers⟩ := h.apart apart
  obtain ⟨-, hown', hothers'⟩ := h'.apart apart'
  by_cases hu : ∃ th ∈ threads, th.subject = u
  · obtain ⟨th, hth, rfl⟩ := hu
    exact (hown th hth).symm.trans (hown' th (perm.mem_iff.mpr hth))
  · have none : ∀ th ∈ threads, th.subject ≠ u := fun th hth same => hu ⟨th, hth, same⟩
    exact (hothers u none).symm.trans (hothers' u fun th hth => none th (perm.mem_iff.mp hth))

/-! ### Analyzers of different subjects -/

/-- A call of an analyzer: what it is given, and the sampler that answers it. -/
structure Invocation where
  analyzer : Analyzer
  sampler : Sampler
  given : Option (List Observation) := none
  filter : TrackFilter Float := {}

namespace Invocation

/-- What a call of an analyzer returns and leaves alone. -/
def exec (c : Invocation) (s : Stores) : Except AnalysisError (List Outcome) × Stores :=
  (c.analyzer.run c.given c.filter).exec (Stores.responder c.sampler) s

/-- The calls that a call of an analyzer makes. -/
def thread (c : Invocation) : Thread (Except AnalysisError (List Outcome)) :=
  ⟨c.analyzer.subject.id, c.sampler, (c.analyzer.run c.given c.filter).run⟩

theorem apart_thread {calls : List Invocation}
    (distinct : (calls.map (·.analyzer.subject.id)).Nodup) : Apart (calls.map thread) where
  distinct := by simpa [Function.comp_def, thread] using distinct
  about th hth := by
    obtain ⟨c, -, rfl⟩ := List.mem_map.mp hth
    exact Run.About.mono (Analyzer.about_run c.given c.filter) fun _ _ => trivial

/-- Analyzers of different subjects do not get in each other's way. However their calls are mixed,
each returns what it returns alone, and the stores hold the findings and events of each subject that
they hold after any order of whole runs, and pause the same of its analyzers at any time. -/
theorem interleaved (calls : List Invocation)
    (distinct : (calls.map (·.analyzer.subject.id)).Nodup) (s t : Stores)
    (results : List (Except AnalysisError (List Outcome)))
    (mixed : Interleaves (calls.map thread) s results t) :
    results = calls.map (fun c => (c.exec s).1) ∧
    ∀ order : List Invocation, order.Perm calls →
      let u := (inTurn (order.map thread) s).2
      ∀ subject : Uuid,
        t.findings.filter (·.subject = subject) = u.findings.filter (·.subject = subject) ∧
        t.events.filter (subject ∈ ·.subjects) = u.events.filter (subject ∈ ·.subjects) ∧
        ∀ (a : Analyzer) (sampler : Sampler) (now : Instant), a.subject.id = subject →
          (a.isQuiet.exec (Stores.responder sampler) { t with now }).1 =
            (a.isQuiet.exec (Stores.responder sampler) { u with now }).1 := by
  have apart := apart_thread distinct
  constructor
  · rw [(mixed.apart apart).1, List.map_map]
    rfl
  · intro order perm u subject
    have same := mixed.sameFor (interleaves_inTurn (order.map thread) s) (perm.map thread) apart
      subject
    refine ⟨same.findings, same.events, fun a sampler now own => ?_⟩
    subst own
    exact (a.about_isQuiet.exec (same.at now)).1

/-! ### Two subjects at once -/

def otherSubject : Uuid := { bits := 1 }

/-- Watches the exposure of another subject. -/
def secondWatch : Analyzer :=
  { Analyzer.footprintWatch with
    subject := { id := otherSubject, name := "Shaba" }
    active := Eq.refl true }

def bothWatches : List Invocation :=
  [⟨Analyzer.footprintWatch, Analyzer.highValues, none, {}⟩,
    ⟨secondWatch, Analyzer.highValues, none, {}⟩]

/-- Stores that hold a position of each subject. -/
def bothSeen : Stores where
  now := .epoch
  observations := [⟨.nil, .epoch, -1.3, 36.8⟩, ⟨otherSubject, .epoch, -1.4, 36.9⟩]

/-- Both fetch observations before either goes on, and the second ends first. -/
theorem bothWatches_mixed :
    ∃ results t, Interleaves (bothWatches.map thread) bothSeen results t := by
  exact ⟨[_, _], _,
    @Interleaves.call _ [] [_] .nil _ _ (.observations .nil _) _ _ _ _ <|
    @Interleaves.call _ [_] [] otherSubject _ _ (.observations otherSubject _) _ _ _ _ <|
    @Interleaves.finish _ [_] [] otherSubject _ _ _ _ _ <|
    @Interleaves.finish _ [] [_] .nil _ _ _ _ _ <|
    .done rfl⟩

theorem interleaved_bothWatches :
    ∃ results t, (bothWatches.map (·.analyzer.subject.id)).Nodup ∧
      Interleaves (bothWatches.map thread) bothSeen results t ∧
      results = bothWatches.map (fun c => (c.exec bothSeen).1) ∧
      ∀ c ∈ bothWatches, (t.events.filter (c.analyzer.subject.id ∈ ·.subjects)).length = 1 := by
  have distinct : (bothWatches.map (·.analyzer.subject.id)).Nodup := by decide
  obtain ⟨results, t, mixed⟩ := bothWatches_mixed
  obtain ⟨hresults, hleft⟩ := interleaved bothWatches distinct bothSeen t results mixed
  refine ⟨results, t, distinct, mixed, hresults, fun c hc => ?_⟩
  rw [(hleft bothWatches (.refl _) c.analyzer.subject.id).2.1]
  revert c
  decide +kernel

end Invocation

end Geotrack
