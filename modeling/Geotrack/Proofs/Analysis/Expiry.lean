import Geotrack.Proofs.Analysis.Quiet

/-!
# When pauses are over

Pauses are kept by key, and one that is over is dropped once it is asked for. No reply tells of
that: the stores refine a table of the ends of all pauses, in which nothing is ever dropped, as long
as the clock does not go back. `pauses_expire` reads every reply off the notes of what was done
before.
-/

namespace Geotrack

namespace Pauses

/-- A request to the pauses or a move of the clock. -/
inductive Step where
  | start (key : String) (length : Int)
  | ask (key : String)
  | clock (now : Instant)
  deriving DecidableEq

/-- The time after a step. -/
def Step.time (now : Instant) : Step → Instant
  | .clock next => next
  | _ => now

inductive Reply where
  | done
  | refused (e : StoreError)
  | quiet (lasts : Bool)
  deriving DecidableEq

/-- A step, the time at which it was taken, and the reply to it. -/
structure Note where
  time : Instant
  step : Step
  reply : Reply
  deriving DecidableEq

/-- Whether a pause of a key was started. -/
def Note.starts (key : String) (x : Note) : Bool :=
  match x.step, x.reply with
  | .start k _, .done => k = key
  | _, _ => false

/-- The end of the pause that was started. -/
def Note.finish? (x : Note) : Option Instant :=
  match x.step with
  | .start _ length => x.time.plus? length
  | _ => none

/-- The last note of a pause of a key that was started. -/
def lastStart? (key : String) (notes : List Note) : Option Note :=
  (notes.filter (·.starts key)).getLast?

/-- Whether the clock never goes back in some steps. -/
def Forward : Instant → List Step → Prop
  | _, [] => True
  | now, step :: steps => now ≤ step.time now ∧ Forward (step.time now) steps

theorem lastStart?_cons (key : String) (x : Note) (notes : List Note) :
    lastStart? key (x :: notes) =
      (lastStart? key notes).or (if x.starts key then some x else none) := by
  unfold lastStart?
  by_cases h : x.starts key = true
  · rw [List.filter_cons_of_pos h, List.getLast?_cons, if_pos h]
    cases (notes.filter (·.starts key)).getLast? <;> rfl
  · rw [List.filter_cons_of_neg h, if_neg h, Option.or_none]

/-- The end of a pause, if it has not come yet. -/
def lasting (now : Instant) (finish? : Option Instant) : Option Instant :=
  finish?.filter (now < ·)

theorem lasting_some (now finish : Instant) :
    lasting now (some finish) = if now < finish then some finish else none := by
  by_cases h : now < finish <;> simp [lasting, h]

/-- What lasts later is among what lasts now. -/
theorem lasting_lasting {now next : Instant} (le : now ≤ next) (finish? : Option Instant) :
    lasting next (lasting now finish?) = lasting next finish? := by
  cases finish? with
  | none => rfl
  | some finish =>
    rw [lasting_some]
    split
    · rfl
    · rename_i ended
      have : ¬ next < finish := Instant.not_lt.mpr (Instant.le_trans (Instant.not_lt.mp ended) le)
      rw [lasting_some, if_neg this]
      rfl

/-- The end of each pause that was ever started, and the time. -/
structure Table where
  now : Instant
  ends : String → Option Instant

namespace Table

/-- The reply to a step and the table after it. -/
def take (T : Table) : Step → Reply × Table
  | .start key length =>
    match T.now.plus? length with
    | some finish => (.done, { T with ends k := if key = k then some finish else T.ends k })
    | none => (.refused (.durationOutOfRange (Instant.wholeSeconds length)), T)
  | .ask key => (.quiet ((T.ends key).any (T.now < ·)), T)
  | .clock now => (.done, { T with now })

def after (T : Table) (steps : List Step) : Table := steps.foldl (fun T step => (T.take step).2) T

/-- A step moves the end of a key to that of the pause that it starts. -/
theorem ends_take (T : Table) (step : Step) (key : String) :
    (T.take step).2.ends key =
      if Note.starts key ⟨T.now, step, (T.take step).1⟩ then
        Note.finish? ⟨T.now, step, (T.take step).1⟩
      else T.ends key := by
  cases step with
  | start k length =>
    unfold take
    cases h : T.now.plus? length with
    | some finish => simp [Note.starts, Note.finish?, h]
    | none => simp [Note.starts, h]
  | ask k => rfl
  | clock now => rfl

end Table

end Pauses

open Pauses

namespace Stores

/-- The reply to a step and the stores after it. -/
def take (s : Stores) : Step → Reply × Stores
  | .start key length =>
    match s.pause key length with
    | .ok t => (.done, t)
    | .error e => (.refused e, s)
  | .ask key => (.quiet (s.isQuiet key).1, (s.isQuiet key).2)
  | .clock now => (.done, { s with now })

def after (s : Stores) (steps : List Step) : Stores := steps.foldl (fun s step => (s.take step).2) s

def note (s : Stores) (step : Step) : Note := ⟨s.now, step, (s.take step).1⟩

/-- The notes of some steps in order. -/
def notes (s : Stores) : List Step → List Note
  | [] => []
  | step :: steps => s.note step :: (s.take step).2.notes steps

variable {s t : Stores} {T : Table} {step : Step} {front steps rest : List Step}

theorem take_now (s : Stores) (step : Step) : (s.take step).2.now = step.time s.now := by
  cases step with
  | start key length =>
    simp only [take, pause]
    cases s.now.plus? length <;> rfl
  | ask key => exact answer_now noValues (.isQuiet key)
  | clock now => rfl

theorem notes_append : s.notes (front ++ rest) = s.notes front ++ (s.after front).notes rest := by
  induction front generalizing s with
  | nil => rfl
  | cons step front ih => exact congrArg (s.note step :: ·) ih

theorem forward_append :
    Forward s.now (front ++ rest) ↔ Forward s.now front ∧ Forward (s.after front).now rest := by
  induction front generalizing s with
  | nil => exact (and_iff_right trivial).symm
  | cons step front ih =>
    have ih := @ih (s.take step).2
    rw [take_now] at ih
    exact (and_congr_right' ih).trans and_assoc.symm

/-- Each note is of one of the steps. -/
theorem exists_step_of_notes {before after : List Note} {x : Note}
    (h : s.notes steps = before ++ x :: after) :
    ∃ front step rest, steps = front ++ step :: rest ∧ before = s.notes front ∧
      x = (s.after front).note step := by
  induction steps generalizing s before with
  | nil => simp [notes] at h
  | cons step steps ih =>
    cases before with
    | nil => exact ⟨[], step, steps, rfl, rfl, (List.cons.inj h).1.symm⟩
    | cons y before =>
      obtain ⟨hy, hnotes⟩ := List.cons.inj h
      obtain ⟨front, step', rest, rfl, rfl, hx⟩ := ih hnotes
      exact ⟨step :: front, step', rest, rfl, by rw [notes, hy], hx⟩

/-! ### The stores and the table -/

/-- Whether stores know of the ends of a table those to come. -/
structure Refines (s : Stores) (T : Table) : Prop where
  now : s.now = T.now
  ends : ∀ key, lasting s.now (Directory.find? key s.pauses) = lasting s.now (T.ends key)

theorem isQuiet_fst (s : Stores) (key : String) :
    (s.isQuiet key).1 = (lasting s.now (Directory.find? key s.pauses)).isSome := by
  unfold isQuiet
  cases Directory.find? key s.pauses with
  | none => rfl
  | some finish =>
    rw [lasting_some]
    by_cases h : s.now < finish <;> simp [h]

/-- What an ask drops does not last. -/
theorem lasting_isQuiet (s : Stores) (key other : String) :
    lasting s.now (Directory.find? other (s.isQuiet key).2.pauses) =
      lasting s.now (Directory.find? other s.pauses) := by
  by_cases same : other = key
  · subst same
    rcases s.isQuiet_cases other with ⟨finish, -, -, h⟩ | ⟨ended, -, dropped⟩
    · rw [h]
    · rw [dropped]
      cases h : Directory.find? other s.pauses with
      | none => rfl
      | some finish => rw [lasting_some, if_neg (Instant.not_lt.mpr (ended finish h))]; rfl
  · obtain ⟨pauses, h, others⟩ := s.exists_isQuiet key
    rw [h, others other same]

/-- A step that does not turn the clock back is answered as the table does, and the stores know its
ends to come afterwards. -/
theorem Refines.take (h : s.Refines T) (forward : s.now ≤ step.time s.now) :
    (s.take step).1 = (T.take step).1 ∧ (s.take step).2.Refines (T.take step).2 := by
  cases step with
  | start key length =>
    simp only [Stores.take, pause, Table.take, ← h.now]
    cases s.now.plus? length with
    | none => exact ⟨rfl, h⟩
    | some finish =>
      refine ⟨rfl, rfl, fun k => ?_⟩
      change lasting s.now (Directory.find? k (Directory.put key finish s.pauses)) =
        lasting s.now (if key = k then some finish else T.ends k)
      rw [Directory.find?_put]
      split
      · rfl
      · exact h.ends k
  | ask key =>
    have hnow : (s.isQuiet key).2.now = s.now := answer_now noValues (.isQuiet key)
    refine ⟨?_, hnow.trans h.now, fun k => ?_⟩
    · change Reply.quiet (s.isQuiet key).1 = .quiet ((T.ends key).any (T.now < ·))
      rw [isQuiet_fst, h.ends, h.now, lasting, Option.isSome_filter]
    · change lasting (s.isQuiet key).2.now (Directory.find? k (s.isQuiet key).2.pauses) =
        lasting (s.isQuiet key).2.now (T.ends k)
      rw [hnow, lasting_isQuiet]
      exact h.ends k
  | clock next =>
    refine ⟨rfl, rfl, fun k => ?_⟩
    have le : s.now ≤ next := forward
    change lasting next (Directory.find? k s.pauses) = lasting next (T.ends k)
    rw [← lasting_lasting le, h.ends, lasting_lasting le]

theorem Refines.after (h : s.Refines T) (forward : Forward s.now steps) :
    (s.after steps).Refines (T.after steps) := by
  induction steps generalizing s T with
  | nil => exact h
  | cons step steps ih => exact ih (h.take forward.1).2 (take_now s step ▸ forward.2)

/-- Stores that know the ends to come of one table reply the same to everything. -/
theorem Refines.notes (hs : s.Refines T) (ht : t.Refines T) (forward : Forward s.now steps) :
    s.notes steps = t.notes steps := by
  induction steps generalizing s t T with
  | nil => rfl
  | cons step steps ih =>
    have same : s.now = t.now := hs.now.trans ht.now.symm
    obtain ⟨reply, hs'⟩ := hs.take forward.1
    obtain ⟨reply', ht'⟩ := ht.take (same ▸ forward.1)
    have hnote : s.note step = t.note step := by rw [note, note, same, reply, reply']
    rw [Stores.notes, Stores.notes, hnote, ih hs' ht' (take_now s step ▸ forward.2)]

/-- The table knows the end of a pause from the last note of its start. -/
theorem Refines.ends_after (h : s.Refines T) (forward : Forward s.now steps) (key : String) :
    (T.after steps).ends key =
      (lastStart? key (s.notes steps)).elim (T.ends key) Note.finish? := by
  induction steps generalizing s T with
  | nil => rfl
  | cons step steps ih =>
    obtain ⟨reply, next⟩ := h.take forward.1
    have hnote : s.note step = ⟨T.now, step, (T.take step).1⟩ := by rw [note, h.now, reply]
    change ((T.take step).2.after steps).ends key = _
    rw [ih next (take_now s step ▸ forward.2), Table.ends_take, ← hnote, Stores.notes,
      lastStart?_cons]
    cases lastStart? key ((s.take step).2.notes steps) with
    | some x => rfl
    | none => cases (s.note step).starts key <;> rfl

/-- An ask and a refused start leave the table as it is. -/
theorem Refines.silent (h : s.Refines T)
    (silent : (∃ key, step = .ask key) ∨ ∃ e, (s.take step).1 = .refused e)
    (forward : s.now ≤ step.time s.now) : (s.take step).2.Refines T := by
  obtain ⟨reply, next⟩ := h.take forward
  have same : (T.take step).2 = T := by
    rw [reply] at silent
    cases step with
    | start key length =>
      simp only [Table.take] at silent ⊢
      cases ends : T.now.plus? length with
      | none => rfl
      | some finish => simp [ends] at silent
    | ask key => rfl
    | clock next => simp [Table.take] at silent
  rwa [same] at next

theorem refines_unstarted (empty : s.pauses = []) : s.Refines ⟨s.now, fun _ => none⟩ :=
  ⟨rfl, by simp [empty]⟩

/-- A key is quiet as long as the last pause of it that was started has not ended. -/
theorem isQuiet_after (empty : s.pauses = []) (forward : Forward s.now front) (key : String) :
    ((s.after front).isQuiet key).1 = true ↔ ∃ y finish, lastStart? key (s.notes front) = some y ∧
      y.finish? = some finish ∧ (s.after front).now < finish := by
  have known := refines_unstarted empty
  rw [isQuiet_fst, (known.after forward).ends, known.ends_after forward]
  cases lastStart? key (s.notes front) with
  | none => simp [lasting]
  | some y => simp [lasting, Option.isSome_filter, Option.any_eq_true]

/-- After an ask or a refused start the replies are what they would have been without it. -/
theorem notes_silent (empty : s.pauses = []) (forward : Forward s.now (front ++ step :: rest))
    (silent : (∃ key, step = .ask key) ∨ ∃ e, ((s.after front).take step).1 = .refused e) :
    s.notes (front ++ step :: rest) =
      s.notes front ++ (s.after front).note step :: (s.after front).notes rest := by
  obtain ⟨hfront, hstep, hrest⟩ := forward_append.mp forward
  have known := (refines_unstarted empty).after hfront
  rw [← take_now] at hrest
  rw [notes_append, notes, (known.silent silent hstep).notes known hrest]

theorem take_start (s : Stores) (key : String) (length : Int) :
    (s.take (.start key length)).1 = if (s.now.plus? length).isSome then .done
      else .refused (.durationOutOfRange (Instant.wholeSeconds length)) := by
  simp only [take, pause]
  cases s.now.plus? length <;> rfl

/-- Without a pause to begin with and as long as the clock does not go back: a key is quiet exactly
if a pause of it was started and the last one started ends later than now; asks and refused starts
change no reply; a start is refused exactly if its end is out of range; and different configurations
or subjects have different keys. -/
theorem pauses_expire (s : Stores) (steps : List Step) (empty : s.pauses = [])
    (forward : Forward s.now steps) :
    (∀ before x after key, s.notes steps = before ++ x :: after → x.step = .ask key →
      ∃ lasts, x.reply = .quiet lasts ∧ (lasts = true ↔ ∃ y finish,
        lastStart? key before = some y ∧ y.finish? = some finish ∧ x.time < finish)) ∧
    (∀ front step rest, steps = front ++ step :: rest →
      ((∃ key, step = .ask key) ∨ ∃ e, ((s.after front).take step).1 = .refused e) →
      s.notes steps =
        s.notes front ++ (s.after front).note step :: (s.after front).notes rest) ∧
    (∀ x ∈ s.notes steps, ∀ key length, x.step = .start key length →
      x.reply = if (x.time.plus? length).isSome then .done
        else .refused (.durationOutOfRange (Instant.wholeSeconds length))) ∧
    ∀ c d u v, quietKey c u = quietKey d v → c = d ∧ u = v := by
  refine ⟨?_, ?_, ?_, fun _ _ _ _ => quietKey_inj⟩
  · intro before x after key hnotes ask
    obtain ⟨front, step, rest, rfl, rfl, rfl⟩ := exists_step_of_notes hnotes
    obtain rfl : step = .ask key := ask
    exact ⟨_, rfl, isQuiet_after empty (forward_append.mp forward).1 key⟩
  · rintro front step rest rfl silent
    exact notes_silent empty forward silent
  · intro x hx key length begins
    obtain ⟨before, after, hnotes⟩ := List.append_of_mem hx
    obtain ⟨front, step, rest, -, -, rfl⟩ := exists_step_of_notes hnotes
    obtain rfl : step = .start key length := begins
    exact take_start _ key length

/-! ### A pause of half an hour -/

/-- A pause is started, asked for until it is over, and started anew in vain. -/
def halfHour : List Step :=
  [.ask "k", .start "k" 1800000000000, .ask "k", .clock (.ofNanos 1740000000000), .ask "k",
    .clock (.ofNanos 1800000000000), .ask "k", .start "k" 100000000000000000000000, .ask "k",
    .start "k" (-1), .ask "k"]

theorem pauses_expire_halfHour :
    let s : Stores := { now := .epoch }
    s.pauses = [] ∧ Forward s.now halfHour ∧
    (s.notes halfHour).map (·.reply) =
      [.quiet false, .done, .quiet true, .done, .quiet true, .done, .quiet false,
        .refused (.durationOutOfRange 100000000000000), .quiet false, .done, .quiet false] ∧
    ∀ before x after, s.notes halfHour = before ++ x :: after → x.step = .ask "k" →
      ∃ lasts, x.reply = .quiet lasts ∧ (lasts = true ↔ ∃ y finish,
        lastStart? "k" before = some y ∧ y.finish? = some finish ∧ x.time < finish) := by
  intro s
  have forward : Forward s.now halfHour := by
    simp only [halfHour, Forward, Step.time]
    decide
  exact ⟨rfl, forward, by decide +kernel,
    fun before x after => (pauses_expire s halfHour rfl forward).1 before x after "k"⟩

end Stores

end Geotrack
