import Geotrack.Proofs.Analysis.Effect

/-!
# The calls of a run

`Run.calls` lists the calls that a run makes, in order. `calls_run` says which calls a run of an
analyzer makes where none of them fails.
-/

namespace Geotrack

/-- A call with the type of its answer. -/
abbrev AnyCall : Type 1 := (β : Type) × Call β

variable {σ α β : Type} (responder : Responder σ)

/-- The state after calls, whatever was answered. -/
def Responder.after (calls : List AnyCall) (s : σ) : σ :=
  calls.foldl (fun s c => (responder.answer c.2 s).2) s

/-- The calls that a run makes, in order. -/
def Run.calls : Run α → σ → List AnyCall
  | .done _, _ => []
  | .ask c next, s =>
    ⟨_, c⟩ :: calls (next (responder.answer c s).1) (responder.answer c s).2

theorem Run.calls_bind (r : Run α) (f : α → Run β) (s : σ) :
    (r.bind f).calls responder s =
      r.calls responder s ++ (f (r.exec responder s).1).calls responder (r.exec responder s).2 := by
  induction r generalizing s with
  | done a => rfl
  | ask c next ih => exact congrArg (_ :: ·) (ih _ _)

namespace Analysis

/-- The calls that an analysis makes, in order. -/
def calls (x : Analysis α) (s : σ) : List AnyCall := Run.calls responder x.run s

@[simp] theorem calls_pure (a : α) (s : σ) : calls responder (pure a : Analysis α) s = [] := rfl

/-- Nothing is called after an error. -/
theorem calls_bind (x : Analysis α) (f : α → Analysis β) (s : σ) :
    calls responder (x >>= f) s = calls responder x s ++
      match exec responder x s with
      | (.ok a, t) => calls responder (f a) t
      | (.error _, _) => [] := by
  change Run.calls responder (Run.bind x.run _) s = _
  rw [Run.calls_bind]
  simp only [calls, exec]
  rcases Run.exec responder x.run s with ⟨_ | a, t⟩ <;> rfl

variable {responder} in
theorem calls_bind_of_ok {x : Analysis α} {f : α → Analysis β} {s t : σ} {a : α}
    (h : exec responder x s = (.ok a, t)) :
    calls responder (x >>= f) s = calls responder x s ++ calls responder (f a) t := by
  rw [calls_bind, h]

end Analysis

/-! ### The calls of an analyzer -/

namespace Analyzer

variable (a : Analyzer)

/-- The call for observations, unless some are given. -/
def fetching (given : Option (List Observation)) : List AnyCall :=
  match given with
  | some (_ :: _) => []
  | _ => [⟨_, .observations a.subject.id a.defaultWindow⟩]

/-- The call for the mean value at the fixes of a track, where that is looked for. -/
def sampling (t : Trajectory Float) : List AnyCall :=
  match a.task with
  | .environmental settings => if t.fixes.isEmpty then [] else [⟨_, .sample t.fixes settings⟩]
  | _ => []

/-- The calls for an event: for whether it is known, where that matters, then to publish it, then to
start the pause. -/
def announcing (s : Stores) : Option Event → List AnyCall
  | none => []
  | some e =>
    (if a.skipsKnownEvents then [⟨_, .known e⟩] else []) ++
      if a.skipsKnownEvents && s.knows e then []
      else ⟨_, .publish e⟩ :: a.config.quietPeriod.toList.map fun length =>
        ⟨_, .pause (quietKey a.config.id a.subject.id) length⟩

/-- The calls for a finding: for the latest one, then to record this one, then those for its
event. -/
def settling (s : Stores) (f : Finding) : List AnyCall :=
  ⟨_, .latest a.subject.id a.config.id⟩ ::
    ((if a.records (a.last s) f then [⟨_, .record f⟩] else []) ++
      a.announcing s (a.event? (a.last s) f))

/-- The calls for findings in turn. -/
def settlingAll (s : Stores) : List Finding → List AnyCall
  | [] => []
  | f :: fs => a.settling s f ++ settlingAll (a.settled s f) fs

variable {a} {s : Stores} {f : Finding} {sampler : Sampler}

theorem calls_pause : a.pause.calls (Stores.responder sampler) s =
    a.config.quietPeriod.toList.map fun length =>
      ⟨_, .pause (quietKey a.config.id a.subject.id) length⟩ := by
  unfold pause
  cases a.config.quietPeriod <;> rfl

theorem calls_announce (event : Option Event) :
    (a.announce f event).calls (Stores.responder sampler) s = a.announcing s event := by
  unfold announce announcing
  cases event with
  | none => rfl
  | some e =>
    dsimp only
    rw [Analysis.calls_bind_of_ok (exec_isKnown e)]
    congr 1
    · unfold isKnown
      split <;> rfl
    · cases a.skipsKnownEvents && s.knows e with
      | true => rfl
      | false =>
        change _ :: Analysis.calls _ (a.pause >>= fun _ => pure _) (s.publish e) = _
        rw [Analysis.calls_bind_of_ok exec_pause, calls_pause, Analysis.calls_pure, List.append_nil,
          if_neg Bool.false_ne_true]

theorem announcing_recorded (event : Option Event) :
    a.announcing (a.recorded s f) event = a.announcing s event := by
  cases event <;> simp [announcing, Stores.knows]

theorem calls_settle : (a.settle f).calls (Stores.responder sampler) s = a.settling s f := by
  rw [settle_eq]
  change _ :: Analysis.calls _ (a.keep f (a.last s) >>= fun _ => _) s = _
  rw [Analysis.calls_bind_of_ok exec_keep, calls_announce, announcing_recorded, settling]
  congr 2
  unfold keep
  split <;> rfl

theorem calls_settleAll (fs : List Finding) :
    (fs.mapM a.settle).calls (Stores.responder sampler) s = a.settlingAll s fs := by
  induction fs generalizing s with
  | nil => rfl
  | cons f fs ih =>
    rw [List.mapM_cons, Analysis.calls_bind_of_ok exec_settle, calls_settle,
      Analysis.calls_bind_of_ok (exec_settleAll fs), ih, Analysis.calls_pure, List.append_nil]
    rfl

theorem calls_findings (t : Trajectory Float) :
    (a.findings t).calls (Stores.responder sampler) s = a.sampling t := by
  unfold findings sampling
  cases a.task with
  | geofence fences regions => rfl
  | immobility settings => rfl
  | proximity settings features => rfl
  | environmental settings =>
    cases hn : t.fixes.getLast? with
    | none =>
      have : t.fixes = [] := List.getLast?_eq_none_iff.mp hn
      simp only [this]
      rfl
    | some newest =>
      have : t.fixes.isEmpty = false := by
        rw [List.isEmpty_eq_false_iff]
        rintro hnil
        simp [hnil] at hn
      dsimp only
      rw [Analysis.calls_bind, this]
      simp only [Analysis.exec_ask, Stores.responder, Stores.answer]
      rcases sampler t.fixes settings with e | _ | mean <;> rfl

/-- The calls of a run: for observations, for the mean value, and those for each finding in turn. -/
theorem calls_run (given : Option (List Observation)) (filter : TrackFilter Float) :
    (a.run given filter).calls (Stores.responder sampler) s =
      a.fetching given ++ a.sampling (a.trajectory (a.observed s given) filter) ++
        match a.found s sampler given filter with
        | .ok fs => a.settlingAll s fs
        | .error _ => [] := by
  have hread : (a.observations given).exec (Stores.responder sampler) s =
      (.ok (a.observed s given), s) ∧
      (a.observations given).calls (Stores.responder sampler) s = a.fetching given := by
    rcases given with _ | _ | ⟨o, os⟩ <;> exact ⟨rfl, rfl⟩
  rw [run_eq, Analysis.calls_bind, exec_prepare, prepare, Analysis.calls_bind_of_ok hread.1,
    hread.2, calls_findings]
  cases a.found s sampler given filter with
  | error e => rfl
  | ok fs => exact congrArg _ (calls_settleAll fs)

end Analyzer

end Geotrack
