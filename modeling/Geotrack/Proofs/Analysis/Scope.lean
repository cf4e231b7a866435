import Geotrack.Proofs.Analysis.Parts
import Geotrack.Proofs.Ident.Uuid

/-!
# What concerns one subject

A call is about one subject if all that it names is the subject's. Such calls are answered from the
subject's own part of the stores and change no other: `SameFor.answer`, `sameFor_answer`. All calls
of an analyzer are about its subject.
-/

namespace Geotrack

/-- Pauses of different subjects or configurations have different keys. -/
theorem quietKey_inj {c d u v : Uuid} (h : quietKey c u = quietKey d v) : c = d ∧ u = v := by
  unfold quietKey at h
  generalize "analyzer_silent__" = front, "__" = between at h
  have hchars := congrArg String.toList h
  simp only [String.toList_append, List.append_assoc] at hchars
  obtain ⟨hconfig, hrest⟩ := List.append_inj (List.append_cancel_left hchars)
    (by rw [Uuid.toText_length, Uuid.toText_length])
  exact ⟨Uuid.toText_inj (String.toList_inj.mp hconfig),
    Uuid.toText_inj (String.toList_inj.mp (List.append_cancel_left hrest))⟩

namespace Directory

variable {α : Type}

theorem find?_remove (name : String) (entries : Directory α) (other : String) :
    find? other (remove name entries) = if name = other then none else find? other entries := by
  induction entries with
  | nil => simp [remove]
  | cons e rest ih =>
    obtain ⟨n, v⟩ := e
    unfold remove at ih ⊢
    by_cases hn : n = name
    · subst hn
      rw [List.filter_cons_of_neg (by simp), ih, find?_cons]
      by_cases ho : n = other <;> simp [ho]
    · rw [List.filter_cons_of_pos (by simpa using hn), find?_cons, ih, find?_cons]
      by_cases ho : n = other
      · have : name ≠ other := fun e => hn (ho.trans e.symm)
        simp [ho, this]
      · simp [ho]

end Directory

/-- Whether all that a call names is a subject's own. -/
def Call.about {β : Type} (subject : Uuid) : Call β → Prop
  | .observations u _ | .latest u _ => u = subject
  | .sample .. => True
  | .record f => f.subject = subject
  | .known e | .publish e => e.subjects = [subject]
  | .isQuiet key | .pause key _ => ∃ config, key = quietKey config subject

/-- Whether two stores hold the same for a subject. -/
structure Stores.SameFor (subject : Uuid) (s t : Stores) : Prop where
  now : s.now = t.now
  observations : s.observations.filter (·.subject = subject) =
    t.observations.filter (·.subject = subject)
  findings : s.findings.filter (·.subject = subject) = t.findings.filter (·.subject = subject)
  events : s.events.filter (subject ∈ ·.subjects) = t.events.filter (subject ∈ ·.subjects)
  pauses : ∀ config, Directory.find? (quietKey config subject) s.pauses =
    Directory.find? (quietKey config subject) t.pauses

namespace Stores

variable {u v : Uuid} {s t : Stores}

theorem SameFor.refl (u : Uuid) (s : Stores) : s.SameFor u s := ⟨rfl, rfl, rfl, rfl, fun _ => rfl⟩

theorem SameFor.symm (h : s.SameFor u t) : t.SameFor u s :=
  ⟨h.now.symm, h.observations.symm, h.findings.symm, h.events.symm, fun c => (h.pauses c).symm⟩

theorem SameFor.trans {r : Stores} (h : s.SameFor u t) (k : t.SameFor u r) : s.SameFor u r :=
  ⟨h.now.trans k.now, h.observations.trans k.observations, h.findings.trans k.findings,
    h.events.trans k.events, fun c => (h.pauses c).trans (k.pauses c)⟩

theorem SameFor.at (h : s.SameFor u t) (now : Instant) :
    SameFor u { s with now } { t with now } :=
  ⟨rfl, h.observations, h.findings, h.events, h.pauses⟩

theorem SameFor.latest (h : s.SameFor u t) (config : Uuid) :
    s.latest u config = t.latest u config := by
  have own (s : Stores) : s.findings.filter (fun f => f.subject = u && f.analyzer.config = config) =
      (s.findings.filter (·.subject = u)).filter fun f => f.analyzer.config = config := by
    rw [List.filter_filter]
    simp only [Bool.and_comm]
  unfold Stores.latest
  rw [own, own, h.findings]

theorem SameFor.observationsOf (h : s.SameFor u t) (window : Window) :
    s.observationsOf u window = t.observationsOf u window := by
  simp only [Stores.observationsOf, h.observations, h.now]

theorem SameFor.knows (h : s.SameFor u t) {e : Event} (he : e.subjects = [u]) :
    s.knows e = t.knows e := by
  have own (s : Stores) : s.knows e = (s.events.filter (u ∈ ·.subjects)).any (·.same e) := by
    rw [Stores.knows, List.any_filter]
    congr 1
    funext d
    by_cases hd : u ∈ d.subjects
    · simp [hd]
    · have : d.subjects ≠ e.subjects := fun same => hd (by rw [same, he]; simp)
      simp [Event.same, this]
  rw [own, own, h.events]

theorem SameFor.isQuiet (h : s.SameFor u t) (config : Uuid) :
    (s.isQuiet (quietKey config u)).1 = (t.isQuiet (quietKey config u)).1 ∧
      (s.isQuiet (quietKey config u)).2.SameFor u (t.isQuiet (quietKey config u)).2 := by
  unfold Stores.isQuiet
  rw [h.pauses config]
  cases Directory.find? (quietKey config u) t.pauses with
  | none => exact ⟨rfl, h⟩
  | some finish =>
    rw [h.now]
    dsimp only
    split
    · exact ⟨rfl, h⟩
    · refine ⟨rfl, ⟨rfl, h.observations, h.findings, h.events, fun c => ?_⟩⟩
      simp only [Directory.find?_remove, h.pauses c]

theorem SameFor.pause (h : s.SameFor u t) (config : Uuid) (length : Int) :
    (∃ e, s.pause (quietKey config u) length = .error e ∧
      t.pause (quietKey config u) length = .error e) ∨
    ∃ s' t', s.pause (quietKey config u) length = .ok s' ∧
      t.pause (quietKey config u) length = .ok t' ∧ s'.SameFor u t' := by
  unfold Stores.pause
  rw [h.now]
  cases t.now.plus? length with
  | none => exact .inl ⟨_, rfl, rfl⟩
  | some finish =>
    refine .inr ⟨_, _, rfl, rfl, rfl, h.observations, h.findings, h.events, fun c => ?_⟩
    simp only [Directory.find?_put, h.pauses c]

variable {β : Type} (sampler : Sampler) {c : Call β}

/-- A call about a subject is answered from what the stores hold for the subject. -/
theorem SameFor.answer (h : s.SameFor u t) (hc : c.about u) :
    (Stores.answer sampler c s).1 = (Stores.answer sampler c t).1 ∧
      (Stores.answer sampler c s).2.SameFor u (Stores.answer sampler c t).2 := by
  cases c with
  | observations subject window =>
    obtain rfl : subject = u := hc
    exact ⟨congrArg Except.ok (h.observationsOf window), h⟩
  | sample fixes settings => exact ⟨rfl, h⟩
  | latest subject config =>
    obtain rfl : subject = u := hc
    exact ⟨congrArg Except.ok (h.latest config), h⟩
  | record f =>
    refine ⟨rfl, h.now, h.observations, ?_, h.events, h.pauses⟩
    simp only [Stores.answer, Stores.record, List.filter_append, h.findings]
  | known e => exact ⟨congrArg Except.ok (h.knows hc), h⟩
  | publish e =>
    refine ⟨rfl, h.now, h.observations, h.findings, ?_, h.pauses⟩
    simp only [Stores.answer, Stores.publish, List.filter_append, h.events]
  | isQuiet key =>
    obtain ⟨config, rfl⟩ := hc
    obtain ⟨hquiet, hleft⟩ := h.isQuiet config
    exact ⟨congrArg Except.ok hquiet, hleft⟩
  | pause key length =>
    obtain ⟨config, rfl⟩ := hc
    simp only [Stores.answer]
    rcases h.pause config length with ⟨e, hs, ht⟩ | ⟨s', t', hs, ht, same⟩
    · rw [hs, ht]
      exact ⟨rfl, h⟩
    · rw [hs, ht]
      exact ⟨rfl, same⟩

/-- A call about one subject leaves what the stores hold for another. -/
theorem sameFor_answer (hc : c.about v) (hne : u ≠ v) :
    s.SameFor u (Stores.answer sampler c s).2 := by
  have apart (c d : Uuid) : quietKey c v ≠ quietKey d u := fun h => hne (quietKey_inj h).2.symm
  cases c with
  | observations subject window => exact .refl u s
  | sample fixes settings => exact .refl u s
  | latest subject config => exact .refl u s
  | record f =>
    have hf : f.subject ≠ u := fun h => hne (h.symm.trans hc)
    refine ⟨rfl, rfl, ?_, rfl, fun _ => rfl⟩
    simp [Stores.answer, Stores.record, hf]
  | known e => exact .refl u s
  | publish e =>
    have he : u ∉ e.subjects := by
      rw [show e.subjects = [v] from hc]
      simpa using hne
    refine ⟨rfl, rfl, rfl, ?_, fun _ => rfl⟩
    simp [Stores.answer, Stores.publish, he]
  | isQuiet key =>
    obtain ⟨config, rfl⟩ := hc
    simp only [Stores.answer, Stores.isQuiet]
    split
    · split
      · exact .refl u s
      · refine ⟨rfl, rfl, rfl, rfl, fun d => ?_⟩
        rw [Directory.find?_remove, if_neg (apart config d)]
    · exact .refl u s
  | pause key length =>
    obtain ⟨config, rfl⟩ := hc
    simp only [Stores.answer, Stores.pause]
    cases s.now.plus? length with
    | none => exact .refl u s
    | some finish =>
      refine ⟨rfl, rfl, rfl, rfl, fun d => ?_⟩
      change _ = Directory.find? _ (Directory.put _ _ _)
      rw [Directory.find?_put, if_neg (apart config d)]

end Stores

/-! ### Runs about one subject -/

/-- A run whose calls are all about one subject, whatever is answered, and whose result is of a
kind. -/
inductive Run.About {α : Type} (subject : Uuid) (kind : α → Prop) : Run α → Prop
  | done {a : α} (of : kind a) : About subject kind (.done a)
  | ask {β : Type} {call : Call β} {next : Except StoreError β → Run α} (about : call.about subject)
    (goes : ∀ answer, About subject kind (next answer)) : About subject kind (.ask call next)

theorem Run.About.mono {α : Type} {u : Uuid} {P Q : α → Prop} {r : Run α} (h : r.About u P)
    (hPQ : ∀ a, P a → Q a) : r.About u Q := by
  induction h with
  | done of => exact .done (hPQ _ of)
  | ask about goes ih => exact .ask about ih

theorem Run.About.bind {α β : Type} {u : Uuid} {P : α → Prop} {Q : β → Prop} {r : Run α}
    {f : α → Run β} (h : r.About u P) (hf : ∀ a, P a → (f a).About u Q) : (r.bind f).About u Q := by
  induction h with
  | done of => exact hf _ of
  | ask about goes ih => exact .ask about ih

/-- An analysis whose calls are all about one subject and whose result is of a kind if it is no
error. -/
def Analysis.About {α : Type} (subject : Uuid) (kind : α → Prop) (x : Analysis α) : Prop :=
  Run.About subject (fun result => ∀ a, result = .ok a → kind a) x.run

namespace Analysis.About

variable {α β : Type} {u : Uuid} {P : α → Prop} {Q : β → Prop}

theorem pure {a : α} (h : P a) : (Pure.pure a : Analysis α).About u P :=
  .done fun b hb => by cases hb; exact h

theorem ofExcept {result : Except AnalysisError α} (h : ∀ a, result = .ok a → P a) :
    (Analysis.ofExcept result).About u P := .done h

theorem ask {c : Call α} (hc : c.about u) : (Analysis.ask c).About u fun _ => True :=
  Run.About.ask hc fun _ => .done fun _ _ => trivial

theorem bind {x : Analysis α} {f : α → Analysis β} (hx : x.About u P)
    (hf : ∀ a, P a → (f a).About u Q) : (x >>= f).About u Q := by
  refine Run.About.bind hx fun result h => ?_
  cases result with
  | error e => exact .done fun _ hb => by cases hb
  | ok a => exact hf a (h a rfl)

theorem composes (u : Uuid) : Composes fun x => x.About u fun _ => True where
  pure _ := .pure trivial
  bind first second := first.bind fun a _ => second a

theorem mapM {f : α → Analysis β} {as : List α} (hf : ∀ a ∈ as, (f a).About u fun _ => True) :
    (as.mapM f).About u fun _ => True := by
  induction as with
  | nil => exact .pure trivial
  | cons a as ih =>
    rw [List.mapM_cons]
    exact (hf a List.mem_cons_self).bind fun b _ =>
      (ih fun x hx => hf x (List.mem_cons_of_mem _ hx)).bind fun bs _ => .pure trivial

end Analysis.About

namespace Analyzer

variable {a : Analyzer}

theorem about_settle {f : Finding} (own : f.subject = a.subject.id) :
    (a.settle f).About a.subject.id fun _ => True := by
  refine settle_of a (Analysis.About.composes _) f (.ask rfl) (.ask own) (fun _ => .ask rfl)
    (fun _ => .ask rfl) ?_
  unfold pause
  split
  · exact .pure trivial
  · exact Run.About.ask ⟨a.config.id, rfl⟩ fun _ => .done fun _ _ => trivial

theorem about_findings (t : Trajectory Float) :
    (a.findings t).About a.subject.id fun fs => ∀ f ∈ fs, f.subject = a.subject.id := by
  unfold findings
  split
  · refine .pure fun f hf => ?_
    obtain ⟨c, -, rfl⟩ := List.mem_map.mp hf
    rfl
  · refine .ofExcept fun fs hfs f hf => ?_
    unfold immobilityFindings at hfs
    split at hfs
    · cases hfs
    · split at hfs
      · cases hfs
      · split at hfs
        all_goals
          cases hfs
          obtain rfl := List.mem_singleton.mp hf
          rfl
  · refine .pure fun f hf => ?_
    obtain ⟨c, -, rfl⟩ := List.mem_map.mp hf
    rfl
  · split
    · exact .ofExcept fun fs hfs => by cases hfs
    · refine .bind (P := fun _ => True) (.ask trivial) fun mean _ => ?_
      split
      · refine .pure fun f hf => ?_
        obtain rfl := List.mem_singleton.mp hf
        rfl
      · refine .pure fun f hf => ?_
        obtain rfl := List.mem_singleton.mp hf
        unfold EnvironmentalSettings.finding
        split <;> rfl

/-- All calls of a run are about the analyzer's subject. -/
theorem about_run (given : Option (List Observation)) (filter : TrackFilter Float) :
    (a.run given filter).About a.subject.id fun _ => True := by
  rw [run_eq]
  refine .bind (P := fun fs => ∀ f ∈ fs, f.subject = a.subject.id) ?_ fun fs own =>
    .mapM fun f hf => about_settle (own f hf)
  refine .bind (P := fun _ => True) ?_ fun os _ => about_findings _
  unfold observations
  split
  · exact .pure trivial
  · exact .ask rfl

theorem about_isQuiet : a.isQuiet.About a.subject.id fun _ => True := by
  unfold isQuiet
  split
  · exact .done trivial
  · refine Run.About.bind (P := fun _ => True) (.ask ⟨a.config.id, rfl⟩ fun _ => .done trivial)
      fun answer _ => ?_
    cases answer <;> exact .done trivial

end Analyzer

end Geotrack
