import Geotrack.Proofs.Analysis.Settle

/-!
# The effect of a run in which no service is down

Where the stores answer for themselves, settling a finding is a function of the stores:
`Analyzer.settled`, pauses included. `exec_run` says what a whole run returns and leaves.
-/

namespace Geotrack

namespace Analyzer

variable (a : Analyzer) (s : Stores) (f : Finding)

/-- The stores once the pause of the configuration is started, if there is one to start. -/
def paused : Stores :=
  match a.config.quietPeriod with
  | none => s
  | some length =>
    match s.pause (quietKey a.config.id a.subject.id) length with
    | .ok t => t
    | .error _ => s

/-- The stores once a finding is settled. -/
def settled : Stores :=
  if (a.published? s f).isSome then a.paused (a.posted s f) else a.posted s f

/-- What becomes of findings that are settled in turn. -/
def outcomes (s : Stores) : List Finding → List Outcome
  | [] => []
  | f :: fs => ⟨f, a.published? s f⟩ :: outcomes (a.settled s f) fs

variable {a s f} {sampler : Sampler}

theorem exec_pause :
    a.pause.exec (Stores.responder sampler) s = (.ok (), a.paused s) := by
  unfold pause paused
  cases a.config.quietPeriod with
  | none => rfl
  | some length =>
    have hanswer : (Stores.answer sampler (.pause (quietKey a.config.id a.subject.id) length) s).2 =
        match s.pause (quietKey a.config.id a.subject.id) length with
        | .ok t => t
        | .error _ => s := by
      simp only [Stores.answer]
      cases s.pause (quietKey a.config.id a.subject.id) length <;> rfl
    exact congrArg (Except.ok (), ·) hanswer

theorem exec_keep :
    (a.keep f (a.last s)).exec (Stores.responder sampler) s = (.ok (), a.recorded s f) := by
  unfold keep recorded
  split <;> rfl

theorem exec_isKnown (e : Event) :
    (a.isKnown e).exec (Stores.responder sampler) s =
      (.ok (a.skipsKnownEvents && s.knows e), s) := by
  unfold isKnown
  cases a.skipsKnownEvents <;> rfl

/-- Announcing the event of a finding that is on record settles the finding. -/
theorem exec_announce :
    (a.announce f (a.event? (a.last s) f)).exec (Stores.responder sampler) (a.recorded s f) =
      (.ok ⟨f, a.published? s f⟩, a.settled s f) := by
  have hknows (e : Event) : (a.recorded s f).knows e = s.knows e := by simp [Stores.knows]
  unfold announce
  cases he : a.event? (a.last s) f with
  | none =>
    have hp : a.published? s f = none := by simp [published?, he]
    simp [settled, posted, hp]
  | some event =>
    dsimp only
    rw [Analysis.exec_bind_of_ok (exec_isKnown event), hknows]
    cases hs : a.skipsKnownEvents && s.knows event with
    | true =>
      have hp : a.published? s f = none := by rw [published?_of_event he, if_pos hs]
      simp [settled, posted, hp]
    | false =>
      have hp : a.published? s f = some event := by
        rw [published?_of_event he, if_neg (by simp [hs])]
      have hposted : a.posted s f = (a.recorded s f).publish event := by rw [posted, hp]
      rw [if_neg Bool.false_ne_true, Analysis.exec_bind]
      change (a.pause >>= fun _ => _).exec (Stores.responder sampler)
        ((a.recorded s f).publish event) = _
      rw [Analysis.exec_bind_of_ok exec_pause, settled, hp, hposted]
      rfl

theorem exec_settle :
    (a.settle f).exec (Stores.responder sampler) s =
      (.ok ⟨f, a.published? s f⟩, a.settled s f) := by
  rw [settle_eq, Analysis.exec_bind]
  change (a.keep f (a.last s) >>= fun _ => _).exec (Stores.responder sampler) s = _
  rw [Analysis.exec_bind_of_ok exec_keep]
  exact exec_announce

theorem exec_settleAll (fs : List Finding) :
    (fs.mapM a.settle).exec (Stores.responder sampler) s =
      (.ok (a.outcomes s fs), fs.foldl a.settled s) := by
  induction fs generalizing s with
  | nil => rfl
  | cons f fs ih =>
    rw [List.mapM_cons, Analysis.exec_bind_of_ok exec_settle, Analysis.exec_bind_of_ok ih]
    rfl

/-- A run ends in the error that stands in place of its findings, or settles all of them. -/
theorem exec_run (given : Option (List Observation)) (filter : TrackFilter Float) :
    (a.run given filter).exec (Stores.responder sampler) s =
      match a.found s sampler given filter with
      | .error e => (.error e, s)
      | .ok fs => (.ok (a.outcomes s fs), fs.foldl a.settled s) := by
  rw [run_eq, Analysis.exec_bind, exec_prepare]
  cases a.found s sampler given filter with
  | error e => rfl
  | ok fs => exact exec_settleAll fs

end Analyzer

end Geotrack
