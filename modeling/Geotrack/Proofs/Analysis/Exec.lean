import Geotrack.Analysis.Stores

/-!
# Executing analyses step by step

`Analysis.exec` runs an analysis against a responder. The lemmas here take it apart along the binds,
so that a proof about a run never looks at the tree of calls. `Responder.faulty` is the world in
which any call may fail.
-/

namespace Geotrack

theorem Run.bind_assoc {α β γ : Type} (r : Run α) (f : α → Run β) (g : β → Run γ) :
    (r.bind f).bind g = r.bind fun a => (f a).bind g := by
  induction r with
  | done a => rfl
  | ask c next ih => simp only [Run.bind, ih]

theorem Run.bind_done {α : Type} (r : Run α) : r.bind .done = r := by
  induction r with
  | done a => rfl
  | ask c next ih => simp only [Run.bind, ih]

instance : LawfulMonad Run :=
  LawfulMonad.mk' Run (fun r => Run.bind_done r) (fun _ _ => rfl) Run.bind_assoc

variable {σ α β : Type} (responder : Responder σ)

/-- Runs an analysis from a state: its result, and the state that it leaves. -/
def Analysis.exec (x : Analysis α) (s : σ) : Except AnalysisError α × σ :=
  Run.exec responder x.run s

namespace Analysis

@[simp] theorem exec_pure (a : α) (s : σ) :
    exec responder (pure a : Analysis α) s = (.ok a, s) := rfl

@[simp] theorem exec_ofExcept (result : Except AnalysisError α) (s : σ) :
    exec responder (ofExcept result) s = (result, s) := rfl

@[simp] theorem exec_ask (c : Call α) (s : σ) :
    exec responder (ask c) s =
      ((responder.answer c s).1.mapError (.call c.stage), (responder.answer c s).2) := rfl

/-- After a success the second half runs, after an error nothing does. -/
theorem exec_bind (x : Analysis α) (f : α → Analysis β) (s : σ) :
    exec responder (x >>= f) s =
      match exec responder x s with
      | (.ok a, t) => exec responder (f a) t
      | (.error e, t) => (.error e, t) := by
  change Run.exec responder (Run.bind x.run _) s = _
  rw [Run.exec_bind]
  simp only [exec]
  rcases Run.exec responder x.run s with ⟨_ | a, t⟩ <;> rfl

variable {responder}

theorem exec_bind_of_ok {x : Analysis α} {f : α → Analysis β} {s t : σ} {a : α}
    (h : exec responder x s = (.ok a, t)) :
    exec responder (x >>= f) s = exec responder (f a) t := by
  rw [exec_bind, h]

/-- A bind that succeeds has succeeded in both halves. -/
theorem exec_bind_ok {x : Analysis α} {f : α → Analysis β} {s u : σ} {b : β}
    (h : exec responder (x >>= f) s = (.ok b, u)) :
    ∃ a t, exec responder x s = (.ok a, t) ∧ exec responder (f a) t = (.ok b, u) := by
  rw [exec_bind] at h
  rcases hx : exec responder x s with ⟨_ | a, t⟩
  · rw [hx] at h; cases h
  · rw [hx] at h; exact ⟨a, t, rfl, h⟩

end Analysis

/-! ### Calls that fail -/

/-- Says of a call whether it fails, and remembers what it needs to. -/
structure FaultPolicy (τ : Type) where
  fault : {β : Type} → Call β → τ → Option StoreError × τ

/-- A responder whose calls fail as a policy says. A call that fails has no effect. -/
def Responder.faulty {τ : Type} (policy : FaultPolicy τ) : Responder (σ × τ) where
  answer call := fun (s, m) =>
    match policy.fault call m with
    | (some e, m) => (.error e, (s, m))
    | (none, m) => ((responder.answer call s).1, ((responder.answer call s).2, m))

namespace Analysis

variable {τ : Type} {policy : FaultPolicy τ} {responder}

theorem exec_faulty_ask {c : Call α} {s t : σ} {m n : τ} {r : Except AnalysisError α}
    (h : exec (responder.faulty policy) (ask c) (s, m) = (r, (t, n))) :
    (∃ e, policy.fault c m = (some e, n) ∧ r = .error (.call c.stage e) ∧ t = s) ∨
      (r = (responder.answer c s).1.mapError (.call c.stage) ∧ t = (responder.answer c s).2) := by
  simp only [exec_ask, Responder.faulty] at h
  rcases hp : policy.fault c m with ⟨_ | e, m'⟩
  · rw [hp] at h
    cases h
    exact .inr ⟨rfl, rfl⟩
  · rw [hp] at h
    cases h
    exact .inl ⟨e, rfl, rfl, rfl⟩

/-- A call that the policy spares is answered as ever. -/
theorem exec_ask_spared {c : Call α} {m : τ} (h : policy.fault c m = (none, m)) (s : σ) :
    exec (responder.faulty policy) (ask c) (s, m) =
      ((exec responder (ask c) s).1, ((exec responder (ask c) s).2, m)) := by
  simp only [exec_ask, Responder.faulty, h]

end Analysis

/-- The policy that no call fails. -/
def FaultPolicy.calm : FaultPolicy Unit := ⟨fun _ m => (none, m)⟩

theorem Run.exec_calm (responder : Responder σ) (r : Run α) (s : σ) :
    Run.exec (responder.faulty .calm) r (s, ()) =
      ((Run.exec responder r s).1, ((Run.exec responder r s).2, ())) := by
  induction r generalizing s with
  | done a => rfl
  | ask c next ih => exact ih _ _

theorem Analysis.exec_calm (responder : Responder σ) (x : Analysis α) (s : σ) :
    x.exec (responder.faulty .calm) (s, ()) =
      ((x.exec responder s).1, ((x.exec responder s).2, ())) :=
  Run.exec_calm responder x.run s

end Geotrack
