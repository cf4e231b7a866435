import Geotrack.Proofs.Analysis.Fences
import Geotrack.Proofs.Time.Span

/-!
# Running over the same track again

A finding at a fence is passed over when the latest one on record has its time. A second run over
the same track therefore passes over what is as late as the latest finding on record, and records
again whatever is earlier: `rerun_records`.
-/

namespace Geotrack

theorem Finding.le_later (best : Option Finding) (f : Finding) :
    ∃ l, later best f = some l ∧ f.time ≤ l.time ∧ ∀ b ∈ best, b.time ≤ l.time := by
  cases best with
  | none => exact ⟨f, rfl, Instant.le_refl _, by simp⟩
  | some b =>
    by_cases h : b.time ≤ f.time
    · exact ⟨f, if_pos (by simpa using h), Instant.le_refl _, by simpa using h⟩
    · refine ⟨b, if_neg (by simpa using h), (Instant.le_total _ _).resolve_left h, ?_⟩
      simpa using Instant.le_refl b.time

theorem Finding.later_of_lt {l f : Finding} (h : f.time < l.time) : later (some l) f = some l :=
  if_neg (by simpa using Instant.not_le.mpr h)

namespace Analyzer

variable {a : Analyzer} {s t u : Stores}

/-- A settled finding is not later than the latest one on record, nor is any that was so before. -/
theorem le_last_posted (kind : a.task.kind = .geofence) {f : Finding} (own : a.OwnAlert f) :
    ∃ l, a.last (a.posted s f) = some l ∧ f.time ≤ l.time ∧
      ∀ b ∈ a.last s, b.time ≤ l.time := by
  cases hr : a.records (a.last s) f with
  | true =>
    rw [(posted_of_recorded own hr).2]
    exact Finding.le_later _ _
  | false =>
    rw [(posted_of_not_recorded hr).2]
    -- a finding that is passed over has the time of the latest one
    rw [records_of_fence kind own.alerting, Bool.not_eq_false', Option.any_eq_true] at hr
    obtain ⟨l, hl, same⟩ := hr
    refine ⟨l, hl, of_decide_eq_true same ▸ Instant.le_refl _, fun b hb => ?_⟩
    obtain rfl : l = b := Option.some.inj (hl.symm.trans hb)
    exact Instant.le_refl _

theorem last_foldl_posted (kind : a.task.kind = .geofence) {fs : List Finding}
    (own : ∀ f ∈ fs, a.OwnAlert f) :
    (∀ b ∈ a.last s, ∃ l, a.last (fs.foldl a.posted s) = some l ∧ b.time ≤ l.time) ∧
      ∀ f ∈ fs, ∃ l, a.last (fs.foldl a.posted s) = some l ∧ f.time ≤ l.time := by
  induction fs generalizing s with
  | nil => exact ⟨fun b hb => ⟨b, hb, Instant.le_refl _⟩, by simp⟩
  | cons f fs ih =>
    obtain ⟨l, hl, hf, hs⟩ := le_last_posted (s := s) kind (own f List.mem_cons_self)
    obtain ⟨before, after⟩ := ih (s := a.posted s f) fun g hg => own g (List.mem_cons_of_mem _ hg)
    obtain ⟨l', hl', le⟩ := before l hl
    refine ⟨fun b hb => ⟨l', hl', Instant.le_trans (hs b hb) le⟩, fun g hg => ?_⟩
    rcases List.mem_cons.mp hg with rfl | hg
    · exact ⟨l', hl', Instant.le_trans hf le⟩
    · exact after g hg

/-- A finding no later than the latest one on record is recorded if it is earlier, and that one
stays the latest. -/
theorem posted_again (kind : a.task.kind = .geofence) {f l : Finding} (own : a.OwnAlert f)
    (hl : a.last s = some l) (le : f.time ≤ l.time) :
    a.last (a.posted s f) = some l ∧
      (a.posted s f).findings = s.findings ++ [f].filter (·.time < l.time) := by
  have hrecords := records_of_fence kind own.alerting (a.last s)
  rw [hl, Option.any_some] at hrecords
  by_cases lt : f.time < l.time
  · have apart : l.time ≠ f.time := fun h => Instant.not_le.mpr lt (h ▸ Instant.le_refl _)
    obtain ⟨hfindings, hlast⟩ := posted_of_recorded own (by rw [hl, hrecords]; simpa using apart)
    refine ⟨?_, by rw [hfindings]; simp [lt]⟩
    rw [hlast, hl, Finding.later_of_lt lt]
  · have same : l.time = f.time := Instant.le_antisymm (Instant.not_lt.mp lt) le
    obtain ⟨hfindings, hlast⟩ := posted_of_not_recorded (by rw [hl, hrecords]; simpa using same)
    exact ⟨hlast.trans hl, by rw [hfindings]; simp [lt]⟩

theorem foldl_posted_again (kind : a.task.kind = .geofence) {l : Finding} {fs : List Finding}
    (own : ∀ f ∈ fs, a.OwnAlert f) (hl : a.last s = some l) (le : ∀ f ∈ fs, f.time ≤ l.time) :
    a.last (fs.foldl a.posted s) = some l ∧
      (fs.foldl a.posted s).findings = s.findings ++ fs.filter (·.time < l.time) := by
  induction fs generalizing s with
  | nil => exact ⟨hl, by simp⟩
  | cons f fs ih =>
    obtain ⟨hf, step⟩ := posted_again kind (own f List.mem_cons_self) hl (le f List.mem_cons_self)
    obtain ⟨hlast, hfindings⟩ := ih (fun g hg => own g (List.mem_cons_of_mem _ hg)) hf
      fun g hg => le g (List.mem_cons_of_mem _ hg)
    refine ⟨hlast, ?_⟩
    rw [List.foldl_cons, hfindings, step, List.append_assoc, ← List.filter_append]
    rfl

/-- What settling the same findings twice leaves. -/
theorem settled_again (kind : a.task.kind = .geofence) {fs : List Finding}
    (own : ∀ f ∈ fs, a.OwnAlert f) {t' : Stores}
    (first : t.findings = (fs.foldl a.posted s).findings) (since : t'.findings = t.findings)
    (second : u.findings = (fs.foldl a.posted t').findings) :
    a.last u = a.last t ∧
      u.findings = t.findings ++ fs.filter (fun f => (a.last t).any (f.time < ·.time)) ∧
      (∀ f ∈ fs, (a.last t).any (f.time ≤ ·.time)) ∧
      (u.findings = t.findings ↔ ∀ f ∈ fs, (a.last t).any (·.time = f.time)) := by
  have covered : ∀ f ∈ fs, ∃ l, a.last t = some l ∧ f.time ≤ l.time := by
    rw [last_of_findings first]
    exact (last_foldl_posted kind own).2
  cases hl : a.last t with
  | none =>
    have none : fs = [] := List.eq_nil_iff_forall_not_mem.mpr fun f hf => by
      obtain ⟨l, hsome, -⟩ := covered f hf
      simp [hl] at hsome
    subst none
    have same : u.findings = t.findings := second.trans since
    exact ⟨(last_of_findings same).trans hl, by simpa using same, by simp, by simp [same]⟩
  | some l =>
    have le : ∀ f ∈ fs, f.time ≤ l.time := fun f hf => by
      obtain ⟨l', hsome, hle⟩ := covered f hf
      obtain rfl : l = l' := Option.some.inj (hl.symm.trans hsome)
      exact hle
    obtain ⟨hlast, hfindings⟩ :=
      foldl_posted_again kind own ((last_of_findings since).trans hl) le
    rw [since, ← second] at hfindings
    refine ⟨(last_of_findings second).trans hlast, by simpa using hfindings, by simpa using le, ?_⟩
    rw [hfindings, List.append_right_eq_self, List.filter_eq_nil_iff]
    refine forall₂_congr fun f hf => ?_
    simp only [Option.any_some, decide_eq_true_eq, Instant.not_lt]
    exact ⟨fun ge => Instant.le_antisymm ge (le f hf), fun same => same ▸ Instant.le_refl _⟩

theorem own_geofenceFindings {fences : List (Fence Float)} {regions : List (Region Float)}
    {track : Trajectory Float} :
    ∀ f ∈ geofenceFindings a.subject a.reference fences regions track, a.OwnAlert f :=
  List.forall_mem_map.mpr fun c _ => ⟨c.alerting_finding a.subject a.reference regions _, rfl, rfl⟩

theorem observed_of_ne_nil {os : List Observation} (given : os ≠ []) : a.observed s os = os := by
  cases os with
  | nil => exact absurd rfl given
  | cons o os => rfl

/-- A second run over the same observations leaves the latest finding on record as it is and records
again, in order, what is earlier than that one. So it records nothing exactly when all findings have
the time of the latest one on record. -/
theorem rerun_records {τ : Type} (policy : FaultPolicy τ) (sampler : Sampler) (a : Analyzer)
    (fences : List (Fence Float)) (regions : List (Region Float)) (os : List Observation)
    (filter : TrackFilter Float) (s t t' u : Stores) (m n m' k : τ) (outcomes again : List Outcome)
    (task : a.task = .geofence fences regions) (given : os ≠ [])
    (first : (a.run os filter).exec (shaky policy sampler) (s, m) = (.ok outcomes, (t, n)))
    (since : t'.findings = t.findings)
    (second : (a.run os filter).exec (shaky policy sampler) (t', m') = (.ok again, (u, k))) :
    let found := geofenceFindings a.subject a.reference fences regions (a.trajectory os filter)
    a.last u = a.last t ∧
      u.findings = t.findings ++ found.filter (fun f => (a.last t).any (f.time < ·.time)) ∧
      (∀ f ∈ found, (a.last t).any (f.time ≤ ·.time)) ∧
      (u.findings = t.findings ↔ ∀ f ∈ found, (a.last t).any (·.time = f.time)) := by
  intro found
  have hfirst := (Stores.unpaused_eq_iff.mp (run_fences task first)).2.2.1
  have hsecond := (Stores.unpaused_eq_iff.mp (run_fences task second)).2.2.1
  rw [observed_of_ne_nil given] at hfirst hsecond
  exact settled_again (by rw [task]; rfl) own_geofenceFindings hfirst since hsecond

/-! ### A walk there and back -/

/-- A time on the way has the same nanoseconds below a microsecond as the start. -/
theorem interpolateTime_nanos (start finish : Instant) (fraction : Float)
    (regular : start.nano < 1000000000) :
    (interpolateTime start finish fraction).toNanos % 1000 = start.toNanos % 1000 := by
  have outside : ¬ start.inLeapSecond = true := by simpa [Instant.inLeapSecond] using regular
  rw [interpolateTime, Instant.shift, if_neg outside, Instant.toNanos_ofNanos]
  omega

/-- From one square to the other. -/
def wayOut : Leg Float :=
  ⟨⟨⟨36.5, -1.5⟩, .epoch⟩, ⟨⟨37.5, -1.5⟩, .ofNanos 3600000000001⟩⟩

/-- Back again, from a nanosecond after the hour. -/
def wayBack : Leg Float := ⟨wayOut.finish, ⟨⟨36.5, -1.5⟩, .ofNanos 7200000000000⟩⟩

def roundTrip : List Observation :=
  [⟨.nil, .epoch, -1.5, 36.5⟩, ⟨.nil, .ofNanos 3600000000001, -1.5, 37.5⟩,
    ⟨.nil, .ofNanos 7200000000000, -1.5, 36.5⟩]

theorem roundTrip_legs : (parkWatch.trajectory roundTrip {}).legs = [wayOut, wayBack] := by
  let fixes := [wayOut.start, wayOut.finish, wayBack.finish]
  have ordered : fixes.Pairwise fun a b => a.time ≤ b.time := by decide
  have kept : TrackFilter.keep {} none fixes = fixes := by decide +kernel
  have hfixes : (parkWatch.trajectory roundTrip {}).fixes = fixes :=
    Trajectory.fixes_of_kept .nil ordered kept
  rw [Trajectory.legs, hfixes]
  rfl

/-- The findings of the round trip. -/
def tripFindings : List Finding :=
  geofenceFindings parkWatch.subject parkWatch.reference [westFence, eastFence] []
    (parkWatch.trajectory roundTrip {})

/-- The common edge is crossed on both ways. -/
theorem mem_tripFindings {leg : Leg Float} (h : leg = wayOut ∨ leg = wayBack) :
    ∃ f ∈ tripFindings, f.time = (leg.fixAt ⟨37, -1.5⟩).time := by
  have out : wayOut.crossingPoints westFence.boundary = [⟨37, -1.5⟩] := by decide +kernel
  have back : wayBack.crossingPoints westFence.boundary = [⟨37, -1.5⟩] := by decide +kernel
  have hpoints : leg.crossingPoints westFence.boundary = [⟨37, -1.5⟩] := by
    rcases h with rfl | rfl
    · exact out
    · exact back
  have hleg : leg ∈ (parkWatch.trajectory roundTrip {}).legs := by
    rw [roundTrip_legs]
    simpa using h
  obtain ⟨c, hc, time⟩ : ∃ c ∈ leg.crossings parkWatch.subject.id westFence (.ofRegions []),
      c.fix = leg.fixAt ⟨37, -1.5⟩ := by
    rw [Leg.crossings, hpoints]
    exact ⟨_, List.mem_singleton_self _, rfl⟩
  have mem : c ∈ crossings [westFence, eastFence] [] [parkWatch.trajectory roundTrip {}] := by
    simp only [crossings, List.mem_flatMap, List.mem_singleton]
    exact ⟨_, rfl, leg, hleg, westFence, List.mem_cons_self, hc⟩
  exact ⟨_, List.mem_map_of_mem mem, congrArg Fix.time time⟩

theorem wayOut_ne_wayBack (p : Point Float) : (wayOut.fixAt p).time ≠ (wayBack.fixAt p).time := by
  intro same
  have out := interpolateTime_nanos wayOut.start.time wayOut.finish.time (wayOut.fractionAt p)
    (by decide)
  have back := interpolateTime_nanos wayBack.start.time wayBack.finish.time (wayBack.fractionAt p)
    (by decide)
  change (wayOut.fixAt p).time.toNanos % 1000 = 0 at out
  change (wayBack.fixAt p).time.toNanos % 1000 = 1 at back
  rw [same] at out
  omega

/-- No one time is that of all findings of the round trip. -/
theorem tripFindings_apart (last : Option Finding) :
    ¬ ∀ f ∈ tripFindings, last.any (·.time = f.time) := by
  intro same
  obtain ⟨f, hf, out⟩ := mem_tripFindings (.inl rfl)
  obtain ⟨g, hg, back⟩ := mem_tripFindings (.inr rfl)
  have hlf := same f hf
  have hlg := same g hg
  cases last with
  | none => cases hlf
  | some l =>
    refine wayOut_ne_wayBack ⟨37, -1.5⟩ ?_
    rw [← out, ← back, ← of_decide_eq_true hlf, ← of_decide_eq_true hlg]

theorem rerun_records_roundTrip : ∃ outcomes t again u,
    (parkWatch.run roundTrip {}).exec (shaky .calm noValues) ({ now := .epoch }, ()) =
      (.ok outcomes, (t, ())) ∧
    (parkWatch.run roundTrip {}).exec (shaky .calm noValues) (t, ()) = (.ok again, (u, ())) ∧
    parkWatch.last u = parkWatch.last t ∧ u.findings ≠ t.findings := by
  obtain ⟨outcomes, t, ht, -⟩ := @run_ok parkWatch { now := .epoch } noValues _ roundTrip {} rfl
  obtain ⟨again, u, hu, -⟩ := @run_ok parkWatch t noValues _ roundTrip {} rfl
  have first := Analysis.exec_calm (Stores.responder noValues) (parkWatch.run roundTrip {})
    { now := .epoch }
  have second := Analysis.exec_calm (Stores.responder noValues) (parkWatch.run roundTrip {}) t
  rw [ht] at first
  rw [hu] at second
  obtain ⟨last, -, -, unchanged⟩ := rerun_records .calm noValues parkWatch [westFence, eastFence] []
    roundTrip {} { now := .epoch } t t u () () () () outcomes again rfl (by simp [roundTrip]) first
    rfl second
  exact ⟨outcomes, t, again, u, first, second, last, mt unchanged.mp (tripFindings_apart _)⟩

/-- A second run over a round trip records a crossing again. -/
theorem roundTrip_recorded_again :
    ¬ ∀ (a : Analyzer) (fences : List (Fence Float)) (regions : List (Region Float))
      (os : List Observation) (filter : TrackFilter Float) (sampler : Sampler) (s t u : Stores)
      (outcomes again : List Outcome), a.task = .geofence fences regions → os ≠ [] →
      (∀ o ∈ os, o.subject = a.subject.id) →
      (a.run os filter).exec (Stores.responder sampler) s = (.ok outcomes, t) →
      (a.run os filter).exec (Stores.responder sampler) t = (.ok again, u) →
      u.findings = t.findings := by
  intro h
  obtain ⟨outcomes, t, ht, first⟩ := @run_ok parkWatch { now := .epoch } noValues _ roundTrip {} rfl
  obtain ⟨again, u, hu, second⟩ := @run_ok parkWatch t noValues _ roundTrip {} rfl
  have unchanged := h parkWatch [westFence, eastFence] [] roundTrip {} noValues { now := .epoch }
    t u outcomes again rfl (by simp [roundTrip]) (by simp [roundTrip, parkWatch]) ht hu
  refine tripFindings_apart (parkWatch.last t) ?_
  exact (settled_again rfl own_geofenceFindings (Stores.unpaused_eq_iff.mp first).2.2.1 rfl
    (Stores.unpaused_eq_iff.mp second).2.2.1).2.2.2.mp unchanged

end Analyzer

end Geotrack
