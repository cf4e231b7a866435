import Geotrack.Proofs.Analysis.Calls
import Geotrack.Proofs.Analysis.Parts
import Geotrack.Proofs.Analysis.Retry

/-!
# Calls that fail

A run of an analyzer ends at the first call that fails, with the error of its stage and the effects
of the calls before it. Only a pause that cannot be started makes no difference. `Run.Aborting` is
the shape of runs that behave so, and `run_failure` says it of analyzers.
-/

namespace Geotrack

/-- Whether a call starts a pause. -/
def Call.isPause {β : Type} : Call β → Bool
  | .pause .. => true
  | _ => false

/-- Whether a call starts a pause or asks for one. -/
def Call.onPauses {β : Type} : Call β → Bool
  | .isQuiet _ | .pause .. => true
  | _ => false

variable {σ α β : Type} (responder : Responder σ)

/-- The policy that takes from a list whether the next call fails. Past its end no call fails. -/
def FaultPolicy.scripted : FaultPolicy (List (Option StoreError)) where
  fault _ script := (script.head?.join, script.tail)

/-- A run that ends in the error of the first call that fails. It does not ask for pauses and does
not care whether one was started. -/
inductive Run.Aborting : Run (Except AnalysisError α) → Prop
  | done (result : Except AnalysisError α) : Aborting (.done result)
  | ask {β : Type} {call : Call β} {next : Except StoreError β → Run (Except AnalysisError α)}
    (apart : call.onPauses = false)
    (fails : ∀ e, next (.error e) = .done (.error (.call call.stage e)))
    (goes : ∀ b, Aborting (next (.ok b))) : Aborting (.ask call next)
  | pause {key : String} {length : Int} {next : Run (Except AnalysisError α)}
    (goes : Aborting next) : Aborting (.ask (.pause key length) fun _ => next)

namespace Run.Aborting

theorem pure (a : α) : Aborting (Pure.pure a : Analysis α).run := .done _

theorem ofExcept (result : Except AnalysisError α) : Aborting (Analysis.ofExcept result).run :=
  .done _

theorem call {c : Call α} (apart : c.onPauses = false) : Aborting (Analysis.ask c).run :=
  .ask apart (fun _ => rfl) fun _ => .done _

theorem bind {x : Analysis α} {f : α → Analysis β} (hx : Aborting x.run)
    (hf : ∀ a, Aborting (f a).run) : Aborting (x >>= f).run := by
  change Aborting (Run.bind x.run (ExceptT.bindCont f))
  generalize x.run = r at hx
  induction hx with
  | done result =>
    cases result with
    | error e => exact .done _
    | ok a => exact hf a
  | ask apart fails goes ih => exact .ask apart (fun e => by rw [fails]; rfl) ih
  | pause goes ih => exact .pause ih

theorem composes : Analysis.Composes fun x => x.run.Aborting := ⟨pure, bind⟩

variable {r : Run (Except AnalysisError α)} {s : σ}

/-- The first call that fails ends the run. Its error is that of its stage, and the state holds the
effects of the calls before it. -/
theorem exec_stopped (h : r.Aborting) {k : Nat} {c : AnyCall}
    (hc : (r.calls responder s)[k]? = some c) (hpause : c.2.isPause = false) (e : StoreError)
    (rest : List (Option StoreError)) :
    r.exec (responder.faulty .scripted) (s, List.replicate k none ++ some e :: rest) =
      (.error (.call c.2.stage e), (responder.after ((r.calls responder s).take k) s, rest)) := by
  induction h generalizing s k with
  | done result => simp [Run.calls] at hc
  | @ask _ call next apart fails goes ih =>
    cases k with
    | zero =>
      obtain rfl : ⟨_, call⟩ = c := by simpa [Run.calls] using hc
      change Run.exec _ (next (.error e)) (s, rest) = _
      rw [fails]
      rfl
    | succ k =>
      change (Run.calls responder (next _) _)[k]? = some c at hc
      change Run.exec _ (next (responder.answer call s).1)
        ((responder.answer call s).2, List.replicate k none ++ some e :: rest) = _
      rw [Run.calls, List.take_succ_cons]
      change _ = (_, (responder.after _ (responder.answer call s).2, _))
      cases hanswer : (responder.answer call s).1 with
      | error e' => simp [hanswer, fails, Run.calls] at hc
      | ok b =>
        rw [hanswer] at hc
        exact ih b hc
  | @pause key length next goes ih =>
    cases k with
    | zero =>
      obtain rfl : ⟨_, .pause key length⟩ = c := by simpa [Run.calls] using hc
      cases hpause
    | succ k => exact ih hc

end Run.Aborting

/-! ### Pauses that cannot be started -/

section Pauses

variable {τ : Type} {policy : FaultPolicy τ} {sampler : Sampler} {s t : Stores}
  {r : Run (Except AnalysisError α)}

/-- What is answered to a call that is not about pauses does not depend on them. -/
theorem Stores.answer_unpaused (sampler : Sampler) {c : Call β} (apart : c.onPauses = false)
    (same : s.unpaused = t.unpaused) :
    (answer sampler c s).1 = (answer sampler c t).1 ∧
      (answer sampler c s).2.unpaused = (answer sampler c t).2.unpaused := by
  obtain ⟨hnow, hobservations, hfindings, hevents⟩ := unpaused_eq_iff.mp same
  cases c with
  | observations subject window =>
    exact ⟨by simp [answer, observationsOf, hnow, hobservations], same⟩
  | sample fixes settings => exact ⟨rfl, same⟩
  | latest subject config => exact ⟨by simp [answer, latest, hfindings], same⟩
  | record f => exact ⟨rfl, unpaused_eq_iff.mpr (by simp [answer, record, *])⟩
  | known e => exact ⟨by simp [answer, knows, hevents], same⟩
  | publish e => exact ⟨rfl, unpaused_eq_iff.mpr (by simp [answer, publish, *])⟩
  | isQuiet key => cases apart
  | pause key length => cases apart

open Analyzer (shaky)

/-- Starting a pause, or failing to, touches nothing but pauses. -/
theorem Stores.answer_pause_shaky (policy : FaultPolicy τ) (sampler : Sampler) (key : String)
    (length : Int) (s : Stores) (m : τ) :
    ∃ u, ((shaky policy sampler).answer (.pause key length) (s, m)).2 =
        (u, (policy.fault (.pause key length) m).2) ∧ u.unpaused = s.unpaused := by
  refine ⟨_, Prod.ext rfl ?_, Analyzer.answer_pause key length⟩
  simp only [Responder.faulty]
  rcases policy.fault (.pause key length) m with ⟨_ | e, m'⟩ <;> rfl

namespace Run.Aborting

/-- A run that does not ask for pauses does not depend on them. -/
theorem exec_unpaused (policy : FaultPolicy τ) (sampler : Sampler) (h : r.Aborting)
    (same : s.unpaused = t.unpaused) (m : τ) :
    (r.exec (shaky policy sampler) (s, m)).1 = (r.exec (shaky policy sampler) (t, m)).1 ∧
    (r.exec (shaky policy sampler) (s, m)).2.1.unpaused =
      (r.exec (shaky policy sampler) (t, m)).2.1.unpaused ∧
    r.calls (shaky policy sampler) (s, m) = r.calls (shaky policy sampler) (t, m) := by
  induction h generalizing s t m with
  | done result => exact ⟨rfl, same, rfl⟩
  | @ask _ call next apart fails goes ih =>
    simp only [Run.exec, Run.calls, Responder.faulty]
    rcases policy.fault call m with ⟨_ | e, m'⟩
    · obtain ⟨hanswer, hleft⟩ := Stores.answer_unpaused sampler apart same
      dsimp only [Stores.responder]
      rw [hanswer]
      cases (Stores.answer sampler call t).1 with
      | error e =>
        rw [fails]
        exact ⟨rfl, hleft, rfl⟩
      | ok b =>
        obtain ⟨h₁, h₂, h₃⟩ := ih b hleft m'
        exact ⟨h₁, h₂, congrArg _ h₃⟩
    · rw [fails]
      exact ⟨rfl, same, rfl⟩
  | @pause key length next goes ih =>
    obtain ⟨s', hs, sames⟩ := Stores.answer_pause_shaky policy sampler key length s m
    obtain ⟨t', ht, samet⟩ := Stores.answer_pause_shaky policy sampler key length t m
    simp only [Run.exec, Run.calls, hs, ht]
    obtain ⟨h₁, h₂, h₃⟩ := ih (sames.trans (same.trans samet.symm))
      (policy.fault (.pause key length) m).2
    exact ⟨h₁, h₂, congrArg _ h₃⟩

/-- Whether a pause can be started makes no difference but to the pauses. -/
theorem exec_pause_failed (h : r.Aborting) {before : List (Option StoreError)} {c : AnyCall}
    {e : StoreError} {after : List (Option StoreError)}
    (hc : (r.calls (shaky .scripted sampler) (s, before ++ some e :: after))[before.length]? =
      some c)
    (hpause : c.2.isPause = true) :
    let failed := r.exec (shaky .scripted sampler) (s, before ++ some e :: after)
    let spared := r.exec (shaky .scripted sampler) (s, before ++ none :: after)
    failed.1 = spared.1 ∧ failed.2.1.unpaused = spared.2.1.unpaused ∧
      r.calls (shaky .scripted sampler) (s, before ++ some e :: after) =
        r.calls (shaky .scripted sampler) (s, before ++ none :: after) := by
  induction h generalizing s before with
  | done result => simp [Run.calls] at hc
  | @ask _ call next apart fails goes ih =>
    cases before with
    | nil =>
      obtain rfl : ⟨_, call⟩ = c := by simpa [Run.calls] using hc
      cases call <;> simp [Call.isPause, Call.onPauses] at hpause apart
    | cons x before =>
      cases x with
      | some e' =>
        change (_ :: Run.calls _ (next (.error e')) _)[before.length + 1]? = some c at hc
        simp [fails, Run.calls] at hc
      | none =>
        change (_ :: Run.calls (shaky .scripted sampler) (next (Stores.answer sampler call s).1)
          ((Stores.answer sampler call s).2, before ++ some e :: after))[before.length + 1]? =
            some c at hc
        simp only [Run.exec, Run.calls, Responder.faulty, FaultPolicy.scripted, List.cons_append,
          List.head?_cons, Option.join_some, List.tail_cons, Stores.responder]
        cases hanswer : (Stores.answer sampler call s).1 with
        | error e' => simp [hanswer, fails, Run.calls] at hc
        | ok b =>
          rw [hanswer] at hc
          obtain ⟨h₁, h₂, h₃⟩ := ih b hc
          exact ⟨h₁, h₂, congrArg _ h₃⟩
  | @pause key length next goes ih =>
    cases before with
    | nil =>
      obtain ⟨t, ht, same⟩ :=
        Stores.answer_pause_shaky .scripted sampler key length s (none :: after)
      simp only [Run.exec, Run.calls, List.nil_append, ht]
      obtain ⟨h₁, h₂, h₃⟩ := exec_unpaused .scripted sampler goes same.symm after
      exact ⟨h₁, h₂, congrArg _ h₃⟩
    | cons x before =>
      -- whatever becomes of this pause, the stores it leaves do not depend on the script after it
      obtain ⟨t, left⟩ : ∃ t, ∀ script : List (Option StoreError),
          ((shaky .scripted sampler).answer (.pause key length) (s, x :: script)).2 = (t, script) :=
        ⟨(((shaky .scripted sampler).answer (.pause key length) (s, [x])).2.1),
          fun script => by cases x <;> rfl⟩
      simp only [Run.exec, Run.calls, List.cons_append, left] at hc ⊢
      obtain ⟨h₁, h₂, h₃⟩ := ih hc
      exact ⟨h₁, h₂, congrArg _ h₃⟩

end Run.Aborting

end Pauses

/-- Where nothing on the list fails a run goes as ever. -/
theorem Run.exec_spared (r : Run α) {script : List (Option StoreError)}
    (spared : ∀ x ∈ script, x = none) (s : σ) :
    (r.exec (responder.faulty .scripted) (s, script)).1 = (r.exec responder s).1 ∧
    (r.exec (responder.faulty .scripted) (s, script)).2.1 = (r.exec responder s).2 ∧
    r.calls (responder.faulty .scripted) (s, script) = r.calls responder s := by
  induction r generalizing s script with
  | done a => exact ⟨rfl, rfl, rfl⟩
  | ask c next ih =>
    have hhead : script.head?.join = none := by
      cases script with
      | nil => rfl
      | cons x script => simp [spared x]
    simp only [Run.exec, Run.calls, Responder.faulty, FaultPolicy.scripted, hhead]
    obtain ⟨h₁, h₂, h₃⟩ := ih (responder.answer c s).1
      (fun x hx => spared x (List.mem_of_mem_tail hx)) (responder.answer c s).2
    exact ⟨h₁, h₂, congrArg _ h₃⟩

/-! ### Runs of an analyzer -/

namespace Analyzer

variable {a : Analyzer}

theorem aborting_settle (f : Finding) : (a.settle f).run.Aborting := by
  refine settle_of a Run.Aborting.composes f (.call rfl) (.call rfl) (fun _ => .call rfl)
    (fun _ => .call rfl) ?_
  unfold pause
  split
  · exact .pure _
  · exact .pause (.done _)

theorem aborting_run (given : Option (List Observation)) (filter : TrackFilter Float) :
    (a.run given filter).run.Aborting := by
  rw [run_eq]
  exact .bind
    (prepare_of a Run.Aborting.composes given filter .ofExcept (fun _ => .call rfl)
      fun _ _ => .call rfl)
    (Run.Aborting.composes.mapM aborting_settle)

/-- Of the calls of a run the first that fails ends it, with the error of the call's stage and the
effects of the calls before it, unless the call is to start a pause. Whether a pause can be started
makes no difference to the outcomes, to what is on record or published or to the calls. -/
theorem run_failure (a : Analyzer) (s : Stores) (sampler : Sampler)
    (given : Option (List Observation)) (filter : TrackFilter Float) :
    let run := a.run given filter
    let world := Stores.responder sampler
    let failing := shaky .scripted sampler
    let calls := run.calls world s
    (calls = a.fetching given ++ a.sampling (a.trajectory (a.observed s given) filter) ++
      match a.found s sampler given filter with
      | .ok fs => a.settlingAll s fs
      | .error _ => []) ∧
    (∀ script, (∀ x ∈ script, x = none) →
      (run.exec failing (s, script)).1 = (run.exec world s).1 ∧
      (run.exec failing (s, script)).2.1 = (run.exec world s).2 ∧
      run.calls failing (s, script) = calls) ∧
    (∀ k c e rest, calls[k]? = some c → c.2.isPause = false →
      run.exec failing (s, List.replicate k none ++ some e :: rest) =
        (.error (.call c.2.stage e), (world.after (calls.take k) s, rest))) ∧
    (∀ before c e after,
      (run.calls failing (s, before ++ some e :: after))[before.length]? = some c →
      c.2.isPause = true →
      let failed := run.exec failing (s, before ++ some e :: after)
      let spared := run.exec failing (s, before ++ none :: after)
      failed.1 = spared.1 ∧ failed.2.1.findings = spared.2.1.findings ∧
      failed.2.1.events = spared.2.1.events ∧
      run.calls failing (s, before ++ some e :: after) =
        run.calls failing (s, before ++ none :: after)) := by
  intro run world failing calls
  refine ⟨calls_run given filter, ?_, ?_, ?_⟩
  · intro script spared
    exact Run.exec_spared world run.run spared s
  · intro k c e rest hc hpause
    exact (aborting_run given filter).exec_stopped world hc hpause e rest
  · intro before c e after hc hpause failed spared
    obtain ⟨hresult, hleft, hcalls⟩ := (aborting_run given filter).exec_pause_failed hc hpause
    obtain ⟨-, -, hfindings, hevents⟩ := Stores.unpaused_eq_iff.mp hleft
    exact ⟨hresult, hfindings, hevents, hcalls⟩

/-! ### An event that is refused and a pause that is -/

/-- Watches the exposure of one subject, with pauses. -/
def pausingWatch : Analyzer where
  subject := footprintWatch.subject
  config := { footprintWatch.config with quietSeconds := some 3600 }
  task := footprintWatch.task
  active := rfl
  kind_eq := rfl

theorem run_failure_pausingWatch :
    let run := pausingWatch.run sighting {}
    let start : Stores := { now := .epoch }
    let world := Stores.responder highValues
    let failing := shaky .scripted highValues
    let calls := run.calls world start
    (∃ c, calls[3]? = some c ∧ c.2.isPause = false ∧ c.2.stage = .createEvent ∧
      run.exec failing (start, [none, none, none, some offline]) =
        (.error (.call .createEvent offline), (world.after (calls.take 3) start, []))) ∧
    (∃ c, (run.calls failing (start, [none, none, none, none, some offline]))[4]? = some c ∧
      c.2.isPause = true ∧
      (run.exec failing (start, [none, none, none, none, some offline])).1 =
        (run.exec failing (start, [none, none, none, none, none])).1) := by
  intro run start world failing calls
  obtain ⟨-, -, stops, goes⟩ := run_failure pausingWatch start highValues sighting {}
  constructor
  · have fourth : calls[3]?.any (fun c => !c.2.isPause && c.2.stage = .createEvent) = true := by
      decide +kernel
    obtain ⟨c, hc, hkind⟩ := Option.any_eq_true _ _ |>.mp fourth
    obtain ⟨hpause, hstage⟩ : c.2.isPause = false ∧ c.2.stage = .createEvent := by simpa using hkind
    exact ⟨c, hc, hpause, hstage, hstage ▸ stops 3 c offline [] hc hpause⟩
  · have fifth : (run.calls failing (start, [none, none, none, none, some offline]))[4]?.any
        (·.2.isPause) = true := by decide +kernel
    obtain ⟨c, hc, hpause⟩ := Option.any_eq_true _ _ |>.mp fifth
    exact ⟨c, hc, hpause, (goes [none, none, none, none] c offline [] hc hpause).1⟩

end Analyzer

end Geotrack
