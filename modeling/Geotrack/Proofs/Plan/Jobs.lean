import Mathlib.Data.List.Forall2
import Mathlib.Data.List.Nodup
import Geotrack.Plan.Basic

/-!
# Which plans have jobs

A plan has jobs when it is `Resolvable`: its analyzers have names of their own, and subjects list
names of analyzers only. Then each subject has one job, with the analyzers that it lists. Otherwise
the first fault is told, and a repeated name before an unknown one: `Plan.jobs_resolution`.
-/

namespace Geotrack

/-! ### Lists that are worked off up to the first error -/

section Lists

variable {α β ε : Type} {f : α → Except ε β} {as : List α} {bs : List β} {e : ε}

/-- The error of a result. -/
def errorOf? : Except ε β → Option ε
  | .error e => some e
  | .ok _ => none

theorem errorOf?_eq_some_iff {result : Except ε β} :
    errorOf? result = some e ↔ result = .error e := by
  cases result <;> simp [errorOf?]

theorem errorOf?_eq_none_iff {result : Except ε β} :
    errorOf? result = none ↔ ∃ b, result = .ok b := by
  cases result <;> simp [errorOf?]

theorem mapM_eq_ok_iff : as.mapM f = .ok bs ↔ List.Forall₂ (fun a b => f a = .ok b) as bs := by
  induction as generalizing bs with
  | nil =>
    rw [List.forall₂_nil_left_iff]
    exact ⟨fun h => (Except.ok.inj h).symm, fun h => h ▸ rfl⟩
  | cons a as ih =>
    rw [List.mapM_cons, List.forall₂_cons_left_iff]
    simp only [← ih]
    cases f a with
    | error e => simp [bind, Except.bind]
    | ok b => cases as.mapM f <;> simp [bind, Except.bind, pure, Except.pure, eq_comm]

theorem errorOf?_mapM (as : List α) :
    errorOf? (as.mapM f) = as.findSome? fun a => errorOf? (f a) := by
  induction as with
  | nil => rfl
  | cons a as ih =>
    rw [List.mapM_cons, List.findSome?_cons, ← ih]
    cases f a with
    | error e => rfl
    | ok b => cases as.mapM f <;> rfl

/-- The error of a list is that of its first element with one. -/
theorem mapM_eq_error_iff : as.mapM f = .error e ↔ ∃ before a after, as = before ++ a :: after ∧
    (∀ c ∈ before, ∃ b, f c = .ok b) ∧ f a = .error e := by
  rw [← errorOf?_eq_some_iff, errorOf?_mapM, List.findSome?_eq_some_iff]
  simp only [errorOf?_eq_some_iff, errorOf?_eq_none_iff]
  exact exists_congr fun before => exists_congr fun a => exists_congr fun after =>
    and_congr_right fun _ => and_comm

end Lists

/-! ### Repeated names -/

section Names

variable {seen before names : List String} {name : String}

/-- Whether a name stands at the first place of a list that repeats a name before it. -/
def IsFirstRepeat (names : List String) (name : String) : Prop :=
  ∃ before after, names = before ++ name :: after ∧ before.Nodup ∧ name ∈ before

theorem firstRepeat?_eq_none_iff :
    firstRepeat? seen names = none ↔ names.Nodup ∧ ∀ name ∈ names, name ∉ seen := by
  induction names generalizing seen with
  | nil => simp [firstRepeat?]
  | cons name rest ih =>
    rw [firstRepeat?, List.nodup_cons, List.forall_mem_cons]
    split
    case isTrue known => simp [known]
    case isFalse new =>
      rw [ih]
      constructor
      · rintro ⟨nodup, apart⟩
        exact ⟨⟨fun h => apart name h List.mem_cons_self, nodup⟩, new,
          fun other h hs => apart other h (List.mem_cons_of_mem name hs)⟩
      · rintro ⟨⟨fresh, nodup⟩, -, apart⟩
        refine ⟨nodup, fun other h hs => ?_⟩
        rcases List.mem_cons.mp hs with rfl | hs
        · exact fresh h
        · exact apart other h hs

/-- Names that do not repeat are passed over. -/
theorem firstRepeat?_append (h : firstRepeat? seen before = none) (rest : List String) :
    firstRepeat? seen (before ++ rest) = firstRepeat? (before.reverse ++ seen) rest := by
  induction before generalizing seen with
  | nil => rfl
  | cons name before ih =>
    rw [firstRepeat?] at h
    split at h
    case isTrue => cases h
    case isFalse new =>
      rw [List.cons_append, firstRepeat?, if_neg new, ih h, List.reverse_cons, List.append_assoc]
      rfl

theorem firstRepeat?_eq_some (h : firstRepeat? seen names = some name) :
    ∃ before after, names = before ++ name :: after ∧ firstRepeat? seen before = none ∧
      (name ∈ seen ∨ name ∈ before) := by
  induction names generalizing seen with
  | nil => cases h
  | cons first rest ih =>
    rw [firstRepeat?] at h
    split at h
    case isTrue known =>
      obtain rfl := Option.some.inj h
      exact ⟨[], rest, rfl, rfl, .inl known⟩
    case isFalse new =>
      obtain ⟨before, after, rfl, none, found⟩ := ih h
      refine ⟨first :: before, after, rfl, by rw [firstRepeat?, if_neg new, none], ?_⟩
      rcases found with found | found
      · exact (List.mem_cons.mp found).symm.imp_right fun same => List.mem_cons.mpr (.inl same)
      · exact .inr (List.mem_cons_of_mem first found)

theorem firstRepeat?_eq_some_iff :
    firstRepeat? [] names = some name ↔ IsFirstRepeat names name := by
  constructor
  · intro h
    obtain ⟨before, after, same, none, known⟩ := firstRepeat?_eq_some h
    exact ⟨before, after, same, (firstRepeat?_eq_none_iff.mp none).1,
      known.resolve_left List.not_mem_nil⟩
  · rintro ⟨before, after, rfl, nodup, known⟩
    rw [firstRepeat?_append (firstRepeat?_eq_none_iff.mpr ⟨nodup, by simp⟩), firstRepeat?,
      if_pos (by simpa using known)]

theorem IsFirstRepeat.not_nodup (h : IsFirstRepeat names name) : ¬ names.Nodup := by
  intro nodup
  have none : firstRepeat? [] names = none := firstRepeat?_eq_none_iff.mpr ⟨nodup, by simp⟩
  rw [firstRepeat?_eq_some_iff.mpr h] at none
  cases none

end Names

/-! ### Names of analyzers -/

namespace Plan

variable {plan : Plan} {name : String} {config : AnalyzerConfig} {assignment : Assignment}
  {job : Job} {e : PlanError}

/-- The names of the analyzers, in order. -/
def names (plan : Plan) : List String := plan.analyzers.map (·.name)

/-- Whether an analyzer is the only one of a name. -/
def IsNamed (plan : Plan) (name : String) (config : AnalyzerConfig) : Prop :=
  plan.analyzers.filter (·.name = name) = [config]

/-- Whether each name that a subject lists is that of an analyzer. -/
def Knows (plan : Plan) (assignment : Assignment) : Prop :=
  ∀ name ∈ assignment.analyzers, name ∈ plan.names

/-- The job of a subject: the analyzers that it lists, in order. -/
structure IsJob (plan : Plan) (assignment : Assignment) (job : Job) : Prop where
  subject_eq : job.subject = assignment.subject
  configs : List.Forall₂ plan.IsNamed assignment.analyzers job.configs

structure Resolvable (plan : Plan) : Prop where
  names_nodup : plan.names.Nodup
  knows : ∀ assignment ∈ plan.assignments, plan.Knows assignment

/-- A name of no analyzer that a subject lists after names of analyzers. -/
def IsFirstUnknown (plan : Plan) (assignment : Assignment) (name : String) : Prop :=
  ∃ known rest, assignment.analyzers = known ++ name :: rest ∧
    (∀ other ∈ known, other ∈ plan.names) ∧ name ∉ plan.names

/-- The error that a plan without jobs is told by. -/
inductive IsFirstFault (plan : Plan) : PlanError → Prop where
  | repeated {name : String} (first : IsFirstRepeat plan.names name) :
    plan.IsFirstFault (.repeatedAnalyzer name)
  /-- The subject is the first one that lists an unknown name. -/
  | unknown {before after : List Assignment} {assignment : Assignment} {name : String}
    (nodup : plan.names.Nodup) (split : plan.assignments = before ++ assignment :: after)
    (knows : ∀ other ∈ before, plan.Knows other) (first : plan.IsFirstUnknown assignment name) :
    plan.IsFirstFault (.unknownAnalyzer assignment.subject.name name)

theorem exists_analyzer?_iff : (∃ config, plan.analyzer? name = some config) ↔
    name ∈ plan.names := by
  rw [← Option.isSome_iff_exists, analyzer?, List.find?_isSome, names, List.mem_map]
  simp

theorem analyzer?_eq_none_iff : plan.analyzer? name = none ↔ name ∉ plan.names := by
  rw [← exists_analyzer?_iff, ← Option.isSome_iff_exists, ← Option.ne_none_iff_isSome, not_not]

/-- Where names do not repeat, the first analyzer of a name is the only one. -/
theorem analyzer?_eq_some_iff (nodup : plan.names.Nodup) :
    plan.analyzer? name = some config ↔ plan.IsNamed name config := by
  have few : (plan.analyzers.filter (·.name = name)).length ≤ 1 := by
    have count := List.nodup_iff_count_le_one.mp nodup name
    rwa [names, List.count, List.countP_map, List.countP_eq_length_filter] at count
  rw [analyzer?, IsNamed, ← List.head?_filter]
  generalize plan.analyzers.filter (·.name = name) = named at few
  match named, few with
  | [], _ => simp
  | [_], _ => simp
  | _ :: _ :: _, few => simp at few

/-- What a name that a subject lists is resolved to. -/
def resolve (plan : Plan) (subject name : String) : Except PlanError AnalyzerConfig :=
  match plan.analyzer? name with
  | some config => .ok config
  | none => .error (.unknownAnalyzer subject name)

theorem resolve_eq_ok_iff {subject : String} :
    plan.resolve subject name = .ok config ↔ plan.analyzer? name = some config := by
  rw [resolve]
  cases plan.analyzer? name <;> simp

theorem resolve_eq_error_iff {subject : String} : plan.resolve subject name = .error e ↔
    name ∉ plan.names ∧ e = .unknownAnalyzer subject name := by
  rw [← analyzer?_eq_none_iff, resolve]
  cases plan.analyzer? name <;> simp [eq_comm]

theorem exists_resolve_iff {subject : String} :
    (∃ config, plan.resolve subject name = .ok config) ↔ name ∈ plan.names := by
  simp only [resolve_eq_ok_iff, exists_analyzer?_iff]

/-! ### Jobs -/

theorem job_eq (plan : Plan) (assignment : Assignment) : plan.job assignment =
    (assignment.analyzers.mapM (plan.resolve assignment.subject.name)).map
      (⟨assignment.subject, ·⟩) := by
  change (assignment.analyzers.mapM (plan.resolve assignment.subject.name) >>=
    fun configs => (pure ⟨assignment.subject, configs⟩ : Except PlanError Job)) = _
  cases assignment.analyzers.mapM (plan.resolve assignment.subject.name) <;> rfl

theorem job_eq_ok_iff (nodup : plan.names.Nodup) :
    plan.job assignment = .ok job ↔ plan.IsJob assignment job := by
  have configs : ∀ found, assignment.analyzers.mapM (plan.resolve assignment.subject.name) =
      .ok found ↔ List.Forall₂ plan.IsNamed assignment.analyzers found := by
    intro found
    simp only [mapM_eq_ok_iff, resolve_eq_ok_iff, analyzer?_eq_some_iff nodup]
  rw [job_eq]
  constructor
  · intro h
    cases found : assignment.analyzers.mapM (plan.resolve assignment.subject.name) with
    | error e => rw [found] at h; cases h
    | ok listed =>
      rw [found] at h
      cases h
      exact ⟨rfl, (configs listed).mp found⟩
  · rintro ⟨subject_eq, listed⟩
    rw [(configs job.configs).mpr listed, ← subject_eq]
    rfl

theorem job_eq_error_iff : plan.job assignment = .error e ↔
    ∃ name, plan.IsFirstUnknown assignment name ∧
      e = .unknownAnalyzer assignment.subject.name name := by
  have failed : plan.job assignment = .error e ↔
      assignment.analyzers.mapM (plan.resolve assignment.subject.name) = .error e := by
    rw [job_eq]
    cases assignment.analyzers.mapM (plan.resolve assignment.subject.name) <;> simp [Except.map]
  rw [failed, mapM_eq_error_iff]
  simp only [exists_resolve_iff, resolve_eq_error_iff]
  constructor
  · rintro ⟨known, name, rest, split, all_known, unknown, rfl⟩
    exact ⟨name, ⟨known, rest, split, all_known, unknown⟩, rfl⟩
  · rintro ⟨name, ⟨known, rest, split, all_known, unknown⟩, rfl⟩
    exact ⟨known, name, rest, split, all_known, unknown, rfl⟩

theorem exists_job_iff : (∃ job, plan.job assignment = .ok job) ↔ plan.Knows assignment := by
  rw [← errorOf?_eq_none_iff, job_eq]
  have same : ∀ found : Except PlanError (List AnalyzerConfig),
      errorOf? (found.map (Job.mk assignment.subject)) = errorOf? found := by
    intro found
    cases found <;> rfl
  rw [same, errorOf?_mapM, List.findSome?_eq_none_iff]
  simp only [errorOf?_eq_none_iff, exists_resolve_iff, Knows]

theorem jobs_of_nodup (nodup : plan.names.Nodup) : plan.jobs = plan.assignments.mapM plan.job := by
  have none : firstRepeat? [] (plan.analyzers.map (·.name)) = none :=
    firstRepeat?_eq_none_iff.mpr ⟨nodup, by simp⟩
  rw [jobs, none]

theorem jobs_of_repeat (h : IsFirstRepeat plan.names name) :
    plan.jobs = .error (.repeatedAnalyzer name) := by
  have some : firstRepeat? [] (plan.analyzers.map (·.name)) = some name :=
    firstRepeat?_eq_some_iff.mpr h
  rw [jobs, some]

theorem nodup_or_repeat (plan : Plan) :
    plan.names.Nodup ∨ ∃ name, IsFirstRepeat plan.names name := by
  cases h : firstRepeat? [] plan.names with
  | none => exact .inl (firstRepeat?_eq_none_iff.mp h).1
  | some name => exact .inr ⟨name, firstRepeat?_eq_some_iff.mp h⟩

theorem exists_jobs_iff : (∃ jobs, plan.jobs = .ok jobs) ↔ plan.Resolvable := by
  rcases plan.nodup_or_repeat with nodup | ⟨name, first⟩
  · rw [jobs_of_nodup nodup, ← errorOf?_eq_none_iff, errorOf?_mapM, List.findSome?_eq_none_iff]
    simp only [errorOf?_eq_none_iff, exists_job_iff]
    exact ⟨fun knows => ⟨nodup, knows⟩, fun h => h.knows⟩
  · rw [jobs_of_repeat first]
    constructor
    · rintro ⟨jobs, ⟨⟩⟩
    · intro h
      exact absurd h.names_nodup first.not_nodup

theorem jobs_eq_ok_iff (h : plan.Resolvable) {jobs : List Job} :
    plan.jobs = .ok jobs ↔ List.Forall₂ plan.IsJob plan.assignments jobs := by
  rw [jobs_of_nodup h.names_nodup, mapM_eq_ok_iff]
  simp only [job_eq_ok_iff h.names_nodup]

theorem jobs_eq_error_iff : plan.jobs = .error e ↔ plan.IsFirstFault e := by
  constructor
  · intro h
    rcases plan.nodup_or_repeat with nodup | ⟨name, first⟩
    · rw [jobs_of_nodup nodup, mapM_eq_error_iff] at h
      simp only [exists_job_iff, job_eq_error_iff] at h
      obtain ⟨before, assignment, after, split, knows, name, first, rfl⟩ := h
      exact .unknown nodup split knows first
    · rw [jobs_of_repeat first] at h
      cases h
      exact .repeated first
  · intro h
    cases h with
    | repeated first => exact jobs_of_repeat first
    | unknown nodup split knows first =>
      rw [jobs_of_nodup nodup, mapM_eq_error_iff]
      exact ⟨_, _, _, split, fun other h => exists_job_iff.mpr (knows other h),
        job_eq_error_iff.mpr ⟨_, first, rfl⟩⟩

/-- A plan has jobs just when the names of its analyzers differ and the subjects list only these.
Then there is one job for each subject, in order, with the only analyzers of the listed names, in
order and as often. Any other plan is told by its first fault. -/
theorem jobs_resolution (plan : Plan) :
    ((∃ jobs, plan.jobs = .ok jobs) ↔ plan.Resolvable) ∧
      (∀ jobs, plan.jobs = .ok jobs ↔
        plan.Resolvable ∧ List.Forall₂ plan.IsJob plan.assignments jobs) ∧
      ∀ e, plan.jobs = .error e ↔ plan.IsFirstFault e := by
  refine ⟨exists_jobs_iff, fun jobs => ⟨fun h => ?_, fun ⟨resolvable, h⟩ => ?_⟩,
    fun e => jobs_eq_error_iff⟩
  · have resolvable := exists_jobs_iff.mp ⟨jobs, h⟩
    exact ⟨resolvable, (jobs_eq_ok_iff resolvable).mp h⟩
  · exact (jobs_eq_ok_iff resolvable).mpr h

end Plan

end Geotrack
