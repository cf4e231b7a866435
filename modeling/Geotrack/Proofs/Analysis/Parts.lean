import Geotrack.Proofs.Analysis.Settle

/-!
# Runs by their parts

Much of what is said of a run holds because it holds of each of its calls and passes on from parts
to what is made of them. `Analyzer.prepare_of` and `Analyzer.settle_of` say which calls these are.
-/

namespace Geotrack

variable {P : {α : Type} → Analysis α → Prop}

/-- A property that any answer without a call has, and two analyses in turn if both have it. -/
structure Analysis.Composes (P : {α : Type} → Analysis α → Prop) : Prop where
  pure {α : Type} (a : α) : P (Pure.pure a : Analysis α)
  bind {α β : Type} {x : Analysis α} {f : α → Analysis β} (first : P x) (second : ∀ a, P (f a)) :
    P (x >>= f)

theorem Analysis.Composes.mapM (composes : Analysis.Composes P) {α β : Type} {f : α → Analysis β}
    (each : ∀ a, P (f a)) (as : List α) : P (as.mapM f) := by
  induction as with
  | nil => exact composes.pure []
  | cons a as ih =>
    rw [List.mapM_cons]
    exact composes.bind (each a) fun b => composes.bind ih fun bs => composes.pure (b :: bs)

/-- Whether the states before and after an analysis are always related. -/
def Analysis.Moves {σ α : Type} (responder : Responder σ) (related : σ → σ → Prop)
    (x : Analysis α) : Prop :=
  ∀ s, related s (x.exec responder s).2

theorem Analysis.Composes.moves {σ : Type} {responder : Responder σ} {related : σ → σ → Prop}
    (refl : ∀ s, related s s) (trans : ∀ s t u, related s t → related t u → related s u) :
    Analysis.Composes fun x => Analysis.Moves responder related x where
  pure _ := refl
  bind {_ _ x f} first second s := by
    have before := first s
    rw [exec_bind]
    rcases hexec : x.exec responder s with ⟨e | a, t⟩
    · rw [hexec] at before
      exact before
    · rw [hexec] at before
      exact trans s t _ before (second a t)

namespace Analyzer

variable (a : Analyzer) (composes : Analysis.Composes P)

include composes

/-- Before any finding is settled a run may fetch observations and sample an image. -/
theorem prepare_of (given : Option (List Observation)) (filter : TrackFilter Float)
    (result : ∀ r : Except AnalysisError (List Finding), P (Analysis.ofExcept r))
    (fetch : ∀ window, P (Analysis.ask (.observations a.subject.id window)))
    (sample : ∀ fixes settings, P (Analysis.ask (.sample fixes settings))) :
    P (a.prepare given filter) := by
  refine composes.bind ?_ fun os => ?_
  · unfold observations
    split
    · exact composes.pure _
    · exact fetch _
  · unfold findings
    split
    · exact composes.pure _
    · exact result _
    · exact composes.pure _
    · split
      · exact result _
      · refine composes.bind (sample _ _) fun mean => ?_
        split <;> exact composes.pure _

/-- To settle a finding is to look at the record, to record the finding, to ask for its event, to
publish that and to start a pause, or to do some of this. -/
theorem settle_of (f : Finding)
    (latest : P (Analysis.ask (.latest a.subject.id a.config.id)))
    (record : P (Analysis.ask (.record f)))
    (known : ∀ kind, P (Analysis.ask (.known (.ofFinding kind a.subject f))))
    (publish : ∀ kind, P (Analysis.ask (.publish (.ofFinding kind a.subject f))))
    (pause : P a.pause) : P (a.settle f) := by
  rw [settle_eq]
  refine composes.bind latest fun last => composes.bind ?_ fun _ => ?_
  · unfold keep
    split
    · exact record
    · exact composes.pure _
  · unfold announce
    split
    · exact composes.pure _
    · rename_i event called
      obtain ⟨kind, -, rfl⟩ := Option.map_eq_some_iff.mp called
      refine composes.bind ?_ fun before => ?_
      · unfold isKnown
        split
        · exact known kind
        · exact composes.pure _
      · split
        · exact composes.pure _
        · exact composes.bind (publish kind) fun _ => composes.bind pause fun _ => composes.pure _

end Analyzer

end Geotrack
