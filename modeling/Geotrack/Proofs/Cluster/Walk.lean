import Geotrack.Cluster.Density
import Mathlib.Algebra.Group.Nat.Defs
import Mathlib.Data.List.FinRange
import Mathlib.Tactic.Common

/-!
# A run that goes over its points by index

The points of a `Scan` are in range by their type and its queue shrinks from the front. A `Walk` has
neither: its labels and its queue are read by index, which may fail, and the queue only becomes
longer while a cursor goes along it. `Shows` says where a walk stands in the terms of a scan. A
round of a walk keeps it true and uses up some of what is owed (`Shows.move`): the queue becomes
longer only where a point is visited, and there are only so many of these. So every walk ends, with
the labels of the scan (`labels_walked`), as long as no cluster has the number of unvisited points.
-/

namespace Geotrack.Density

/-- Where a run stands. -/
structure Walk where
  /-- The label of each point, which is 0 until it is visited. -/
  labels : List Int32
  /-- The points whose neighbourhood has been looked up, last first. -/
  asked : List Nat
  /-- The number of the last cluster. -/
  clusters : Int32
  /-- The point to visit once the queue has been followed. -/
  next : Nat
  /-- The queue of the newest cluster, with all points that ever entered it. -/
  queue : List Nat
  position : Nat
  deriving DecidableEq

/-- Why a run breaks off. -/
inductive Fault where
  | outOfRange
  /-- The count of clusters stops the program, after the neighbourhoods of some points have been
  looked up. -/
  | overflow (asked : List Nat)
  deriving DecidableEq

/-- What stands at an index. -/
def at? (xs : List β) (i : Nat) : Except Fault β :=
  match xs[i]? with
  | some x => .ok x
  | none => .error .outOfRange

/-- The indices of the points near the one at `p`. -/
def indicesNear (near : α → α → Bool) (points : List (Option α)) (p : Nat) :
    Except Fault (List Nat) := do
  match ← at? points p with
  | none => return []
  | some a => return (List.range points.length).filter fun q => points[q]?.join.any (near a)

namespace Walk

def start (n : Nat) : Walk := ⟨List.replicate n 0, [], 0, 0, [], 0⟩

def label (w : Walk) (p : Nat) (l : Int32) : Walk := { w with labels := w.labels.set p l }

def ask (w : Walk) (p : Nat) : Walk := { w with asked := p :: w.asked }

section Rounds

variable (overflow : Overflow) (look : Nat → Except Fault (List Nat)) (minSize : Nat)

/-- Goes one place along the queue. Noise is claimed, an unvisited point is claimed and may bring
its neighbourhood along, and any other point is skipped. -/
def follow (w : Walk) : Except Fault Walk := do
  let p ← at? w.queue w.position
  let l ← at? w.labels p
  let w := { w with position := w.position + 1 }
  if l = -1 then
    return w.label p w.clusters
  else if l = 0 then
    let w := w.label p w.clusters
    let found ← look p
    let w := w.ask p
    return if minSize ≤ found.length then { w with queue := w.queue ++ found } else w
  else
    return w

/-- Visits the next point, which starts a cluster with a queue of its own, is noise or is passed
over. -/
def visit (w : Walk) : Except Fault Walk := do
  let p := w.next
  let l ← at? w.labels p
  let w := { w with next := p + 1 }
  if l = 0 then
    let found ← look p
    let w := w.ask p
    if found.length < minSize then
      return w.label p (-1)
    else
      match overflow.next? w.clusters with
      | none => throw (.overflow w.asked)
      | some number =>
        let w := { w with clusters := number }
        return { w.label p number with queue := found, position := 0 }
  else
    return w

/-- A round of the loop over the queue or, where the queue is at its end, of the loop over the
points. -/
def move (w : Walk) : Except Fault Walk :=
  if w.position < w.queue.length then w.follow look minSize else w.visit overflow look minSize

/-- Whether the queue has been followed to its end and all `n` points have had their visit. -/
def Ended (n : Nat) (w : Walk) : Prop := w.queue.length ≤ w.position ∧ n ≤ w.next

instance (n : Nat) (w : Walk) : Decidable (w.Ended n) := inferInstanceAs (Decidable (_ ∧ _))

/-- The walk after a number of rounds, or after fewer if it has ended by then. -/
def after (n : Nat) (w : Walk) : (rounds : Nat) → Except Fault Walk
  | 0 => .ok w
  | rounds + 1 =>
    if w.Ended n then .ok w else do (← w.move overflow look minSize).after n rounds

variable {overflow look minSize} {n : Nat} {w w' : Walk}

theorem after_ended (h : w.Ended n) (rounds : Nat) :
    w.after overflow look minSize n rounds = .ok w := by
  cases rounds with
  | zero => rfl
  | succ rounds => rw [after, if_pos h]

theorem after_succ (going : ¬ w.Ended n) (rounds : Nat) :
    w.after overflow look minSize n (rounds + 1) =
      (w.move overflow look minSize).bind fun w => w.after overflow look minSize n rounds := by
  rw [after, if_neg going]
  rfl

theorem after_add (first more : Nat) :
    w.after overflow look minSize n (first + more) =
      (w.after overflow look minSize n first).bind fun w =>
        w.after overflow look minSize n more := by
  induction first generalizing w with
  | zero => rw [Nat.zero_add]; rfl
  | succ first ih =>
    by_cases h : w.Ended n
    · rw [after_ended h, after_ended h, Except.bind, after_ended h]
    · rw [Nat.succ_add, after_succ h, after_succ h]
      cases w.move overflow look minSize with
      | error fault => rfl
      | ok w => exact ih

/-- The walk once a point of the queue has joined the cluster and brought others along. -/
def joined (w : Walk) (p : Nat) (added : List Nat) : Walk :=
  { ({ w with position := w.position + 1 }.label p w.clusters).ask p with
    queue := w.queue ++ added }

theorem follow_unvisited {p : Nat} {found : List Nat} (head : at? w.queue w.position = .ok p)
    (free : at? w.labels p = .ok 0) (looked : look p = .ok found) :
    w.follow look minSize = .ok (w.joined p (if minSize ≤ found.length then found else [])) := by
  have fresh : ¬ ((0 : Int32) = -1) := by decide
  rw [follow]
  simp only [head, free, fresh, looked, bind, Except.bind, if_true, if_false]
  by_cases core : minSize ≤ found.length
  · rw [if_pos core, if_pos core]
    rfl
  · rw [if_neg core, if_neg core, joined, List.append_nil]
    rfl

/-- The walk once the next point has started a cluster with a queue of its own. -/
def seeded (w : Walk) (number : Int32) (queue : List Nat) : Walk :=
  { ({ w with next := w.next + 1, clusters := number }.ask w.next).label w.next number with
    queue := queue, position := 0 }

theorem visit_core {found : List Nat} {number : Int32} (free : at? w.labels w.next = .ok 0)
    (looked : look w.next = .ok found) (core : ¬ found.length < minSize)
    (counted : overflow.next? w.clusters = some number) :
    w.visit overflow look minSize = .ok (w.seeded number found) := by
  simp [visit, seeded, label, ask, free, looked, core, counted, bind, Except.bind, pure,
    Except.pure]

end Rounds

end Walk

variable {n : Nat}

namespace Scan

/-- How many points have not been visited. -/
def unvisited (s : Scan n) : Nat := s.labels.count 0

@[simp] theorem unvisited_start : (start n).unvisited = n := by
  simp [unvisited, start]

@[simp] theorem unvisited_ask (s : Scan n) (p : Fin n) : (s.ask p).unvisited = s.unvisited := rfl

theorem unvisited_label_le (s : Scan n) (p : Fin n) {l : Int32} (h : l ≠ 0) :
    (s.label p l).unvisited ≤ s.unvisited := by
  have hl : (l == 0) = false := beq_eq_false_iff_ne.mpr h
  simp only [unvisited, label, Vector.count_set, hl]
  exact Nat.sub_le _ _

theorem unvisited_label_lt (s : Scan n) (p : Fin n) {l : Int32} (h : l ≠ 0)
    (free : s.labelOf p = 0) : (s.label p l).unvisited < s.unvisited := by
  have hp : 0 < s.labels.count 0 := by
    rw [Vector.count_pos_iff, ← free]
    exact Vector.getElem_mem p.isLt
  have hl : (l == 0) = false := beq_eq_false_iff_ne.mpr h
  have free' : s.labels[p.val] = 0 := free
  simp only [unvisited, label, Vector.count_set, free', hl, beq_self_eq_true, if_true,
    Bool.false_eq_true, if_false]
  omega

theorem labelOf_label (s : Scan n) (p q : Fin n) (l : Int32) :
    (s.label p l).labelOf q = if p = q then l else s.labelOf q := by
  by_cases h : p = q
  · subst h; simp [label, labelOf]
  · have hv : p.val ≠ q.val := fun e => h (Fin.ext e)
    simp [label, labelOf, h, Vector.getElem_set_ne p.isLt q.isLt hv]

/-- What have been looked up are visited points, none of them twice. -/
structure Sound (s : Scan n) : Prop where
  visited : ∀ p ∈ s.asked, s.labelOf p ≠ 0
  nodup : s.asked.Nodup

theorem sound_start : (start n).Sound := ⟨fun _ hp => (nomatch hp), List.nodup_nil⟩

theorem Sound.label {s : Scan n} (h : s.Sound) (p : Fin n) {l : Int32} (hl : l ≠ 0) :
    (s.label p l).Sound := by
  refine ⟨fun q hq => ?_, h.nodup⟩
  rw [labelOf_label]
  split
  · exact hl
  · exact h.visited q hq

/-- The neighbourhood of an unvisited point may be looked up. -/
theorem Sound.fresh {s : Scan n} (h : s.Sound) {p : Fin n} (free : s.labelOf p = 0) :
    (p :: s.asked).Nodup :=
  List.nodup_cons.mpr ⟨fun hp => h.visited p hp free, h.nodup⟩

theorem Sound.ask {s : Scan n} (h : s.Sound) {p : Fin n} (free : s.labelOf p = 0) {l : Int32}
    (hl : l ≠ 0) : ((s.label p l).ask p).Sound := by
  refine ⟨fun q hq => ?_, h.fresh free⟩
  rcases List.mem_cons.mp hq with rfl | hq
  · change (s.label q l).labelOf q ≠ 0
    rw [labelOf_label, if_pos rfl]
    exact hl
  · exact (h.label p hl).visited q hq

end Scan

namespace Walk

/-- The clusters that a walk over the first points may have counted. -/
structure Counts (overflow : Overflow) (w : Walk) (k : Nat) : Prop where
  clusters : w.clusters = Int32.ofNat k
  le : k ≤ w.next
  few : overflow = .stops → k < 2 ^ 31

/-- Where a walk stands in the terms of a scan. Its labels are those of the scan, and the scan comes
to its end by following `rest` and visiting the points that are left. -/
structure Shows (overflow : Overflow) (neighbours : Neighbours n) (minSize : Nat) (w : Walk)
    (s : Scan n) (rest : List (Fin n)) : Prop where
  sound : s.Sound
  labels : w.labels = s.labels.toList
  asked : w.asked = s.asked.map Fin.val
  queue : w.queue.drop w.position = rest.map Fin.val
  position_le : w.position ≤ w.queue.length
  next_le : w.next ≤ n
  counts : ∃ k, w.Counts overflow k ∧ (rest ≠ [] → 0 < k)
  run : (s.grow neighbours minSize w.clusters rest).bind (fun s =>
    ((List.finRange n).drop w.next).foldlM (Scan.visit overflow neighbours minSize)
      (s, w.clusters)) = Scan.run overflow neighbours minSize

/-- What is owed: a place in the queue for each that is left and for each point that an unvisited
point may still bring along, and a visit to each point that is left. -/
def owed (s : Scan n) (rest : List (Fin n)) (w : Walk) : Nat :=
  n * s.unvisited + rest.length + (n - w.next)

/-- A run that the count of clusters stops, with no neighbourhood looked up twice. -/
def Stopped (overflow : Overflow) (neighbours : Neighbours n) (minSize : Nat) (fault : Fault) :
    Prop :=
  overflow = .stops ∧ Scan.run overflow neighbours minSize = none ∧
    ∃ asked : List (Fin n), asked.Nodup ∧ fault = .overflow (asked.map Fin.val)

/-- Whether a round of a walk that owes `debt` gets somewhere: less is owed afterwards, unless the
count of clusters stops the run. -/
def Progress (overflow : Overflow) (neighbours : Neighbours n) (minSize debt : Nat) :
    Except Fault Walk → Prop
  | .ok w => ∃ s rest, w.Shows overflow neighbours minSize s rest ∧ owed s rest w < debt
  | .error fault => Stopped overflow neighbours minSize fault

/-- Whether a look-up by index finds the neighbourhoods. -/
structure Finds (look : Nat → Except Fault (List Nat)) (neighbours : Neighbours n) : Prop where
  look_eq : ∀ p : Fin n, look p = .ok ((neighbours p).map Fin.val)
  length_le : ∀ p, (neighbours p).length ≤ n

theorem drop_finRange (p : Fin n) :
    (List.finRange n).drop p = p :: (List.finRange n).drop (p + 1) := by
  have hp : p.val < (List.finRange n).length := by rw [List.length_finRange]; exact p.isLt
  rw [List.drop_eq_getElem_cons hp, List.getElem_finRange]
  rfl

section Shows

variable {overflow : Overflow} {neighbours : Neighbours n} {look : Nat → Except Fault (List Nat)}
  {minSize : Nat} {w : Walk} {s : Scan n} {p : Fin n} {rest : List (Fin n)}

theorem Shows.label_eq (h : w.Shows overflow neighbours minSize s rest) (p : Fin n) :
    at? w.labels p.val = .ok (s.labelOf p) := by
  simp [at?, h.labels, Scan.labelOf]

theorem Shows.queue_head (h : w.Shows overflow neighbours minSize s (p :: rest)) :
    w.queue[w.position]? = some p.val := by
  have e : (w.queue.drop w.position)[0]? = some p.val := by rw [h.queue]; rfl
  rwa [List.getElem?_drop, Nat.add_zero] at e

theorem Shows.at_queue (h : w.Shows overflow neighbours minSize s (p :: rest)) :
    at? w.queue w.position = .ok p.val := by
  rw [at?, h.queue_head]

theorem Shows.queue_tail (h : w.Shows overflow neighbours minSize s (p :: rest)) :
    w.queue.drop (w.position + 1) = rest.map Fin.val := by
  rw [← List.drop_drop, h.queue]
  rfl

theorem Shows.position_lt (h : w.Shows overflow neighbours minSize s (p :: rest)) :
    w.position < w.queue.length :=
  (List.getElem?_eq_some_iff.mp h.queue_head).1

/-- A build that stops at the largest number, or points that the numbers are enough for. -/
abbrev Fits (overflow : Overflow) (n : Nat) : Prop := overflow = .wraps → n < 2 ^ 32

/-- The number of a cluster is not the label of unvisited points. -/
theorem Counts.clusters_ne {k : Nat} (fits : Fits overflow n) (h : w.Counts overflow k)
    (next_le : w.next ≤ n) (positive : 0 < k) : w.clusters ≠ 0 := by
  have few : k < 2 ^ 32 := by
    cases overflow with
    | stops => exact (h.few rfl).trans (by decide)
    | wraps => exact (h.le.trans next_le).trans_lt (fits rfl)
  rw [h.clusters, Ne, ← Int32.toBitVec_inj]
  intro zero
  have := congrArg BitVec.toNat zero
  simp at this
  omega

theorem Shows.clusters_ne (fits : Fits overflow n)
    (h : w.Shows overflow neighbours minSize s (p :: rest)) : w.clusters ≠ 0 := by
  obtain ⟨k, counts, positive⟩ := h.counts
  exact counts.clusters_ne fits h.next_le (positive (List.cons_ne_nil p rest))

/-- Until the next cluster the count stays as it is. -/
theorem Shows.counts_later (h : w.Shows overflow neighbours minSize s rest) {w' : Walk}
    {rest' : List (Fin n)} (clusters : w'.clusters = w.clusters) (next : w.next ≤ w'.next)
    (growing : rest' ≠ [] → rest ≠ []) :
    ∃ k, w'.Counts overflow k ∧ (rest' ≠ [] → 0 < k) := by
  obtain ⟨k, counts, positive⟩ := h.counts
  exact ⟨k, ⟨clusters.trans counts.clusters, counts.le.trans next, counts.few⟩,
    fun more => positive (growing more)⟩

/-- A place in the queue whose point is in a cluster already. -/
theorem Shows.skip (h : w.Shows overflow neighbours minSize s (p :: rest))
    (clustered : s.labelOf p ≠ -1) (visited : s.labelOf p ≠ 0) :
    { w with position := w.position + 1 }.Shows overflow neighbours minSize s rest where
  sound := h.sound
  labels := h.labels
  asked := h.asked
  queue := h.queue_tail
  position_le := h.position_lt
  next_le := h.next_le
  counts := h.counts_later rfl (Nat.le_refl _) fun _ => List.cons_ne_nil p rest
  run := by rw [← h.run, Scan.grow, if_neg clustered, if_neg visited]

/-- A place in the queue whose point was noise until now. -/
theorem Shows.border (fits : Fits overflow n)
    (h : w.Shows overflow neighbours minSize s (p :: rest)) (noise : s.labelOf p = -1) :
    ({ w with position := w.position + 1 }.label p w.clusters).Shows overflow neighbours minSize
      (s.label p w.clusters) rest where
  sound := h.sound.label p (h.clusters_ne fits)
  labels := by rw [Walk.label, Scan.label, Vector.toList_set, h.labels]
  asked := h.asked
  queue := h.queue_tail
  position_le := h.position_lt
  next_le := h.next_le
  counts := h.counts_later rfl (Nat.le_refl _) fun _ => List.cons_ne_nil p rest
  run := by rw [← h.run, Scan.grow, if_pos noise]; rfl

/-- A place in the queue whose point is visited here. Its neighbourhood, if it is a core point, is
added at the end. -/
theorem Shows.join (fits : Fits overflow n)
    (h : w.Shows overflow neighbours minSize s (p :: rest)) (free : s.labelOf p = 0)
    {added : List (Fin n)}
    (hadded : added = if minSize ≤ (neighbours p).length then neighbours p else []) :
    (w.joined p (added.map Fin.val)).Shows overflow neighbours minSize
      ((s.label p w.clusters).ask p) (rest ++ added) where
  sound := h.sound.ask free (h.clusters_ne fits)
  labels := by
    rw [joined, Walk.ask, Walk.label, Scan.ask, Scan.label, Vector.toList_set, h.labels]
  asked := congrArg (p.val :: ·) h.asked
  queue := by
    change (w.queue ++ added.map Fin.val).drop (w.position + 1) = _
    rw [List.drop_append_of_le_length h.position_lt, h.queue_tail, List.map_append]
  position_le := by
    change w.position + 1 ≤ (w.queue ++ added.map Fin.val).length
    have := h.position_lt
    rw [List.length_append]
    omega
  next_le := h.next_le
  counts := h.counts_later rfl (Nat.le_refl _) fun _ => List.cons_ne_nil p rest
  run := by
    have e : rest ++ added =
        if minSize ≤ (neighbours p).length then rest ++ neighbours p else rest := by
      rw [hadded]
      split
      · rfl
      · exact List.append_nil rest
    have fresh : s.labelOf p ≠ -1 := by rw [free]; decide
    rw [← h.run, Scan.grow, if_neg fresh, if_pos free, e]
    rfl

/-- One round of the loop over the queue. -/
theorem Shows.follow (fits : Fits overflow n) (finds : Finds look neighbours)
    (h : w.Shows overflow neighbours minSize s (p :: rest)) :
    ∃ w' s' rest', w'.Shows overflow neighbours minSize s' rest' ∧
      w.follow look minSize = .ok w' ∧ w'.next = w.next ∧
      owed s' rest' w' < owed s (p :: rest) w := by
  have hl := h.label_eq p
  by_cases noise : s.labelOf p = -1
  · refine ⟨_, _, rest, h.border fits noise, ?_, rfl, ?_⟩
    · simp only [Walk.follow, h.at_queue, hl, noise, bind, Except.bind, if_true]
      rfl
    · have paid := Nat.mul_le_mul_left n (s.unvisited_label_le p (h.clusters_ne fits))
      simp only [owed, Walk.label, List.length_cons]
      omega
  · by_cases free : s.labelOf p = 0
    · obtain ⟨added, hadded⟩ : ∃ added, added =
          if minSize ≤ (neighbours p).length then neighbours p else [] := ⟨_, rfl⟩
      refine ⟨_, _, rest ++ added, h.join fits free hadded, ?_, rfl, ?_⟩
      · rw [follow_unvisited h.at_queue (free ▸ hl) (finds.look_eq p), hadded, List.length_map]
        split
        · rfl
        · rfl
      · -- the queue gains at most `n` places, and the visit of `p` is owed `n` places no more
        have fewer := s.unvisited_label_lt p (h.clusters_ne fits) free
        have paid := Nat.mul_le_mul_left n (Nat.succ_le_of_lt fewer)
        have hlen : added.length ≤ n := by
          rw [hadded]
          split
          · exact finds.length_le p
          · exact Nat.zero_le n
        simp only [owed, joined, Walk.label, Walk.ask, Scan.unvisited_ask, List.length_append,
          List.length_cons, Nat.mul_succ] at paid ⊢
        omega
    · refine ⟨_, s, rest, h.skip noise free, ?_, rfl, ?_⟩
      · simp only [Walk.follow, h.at_queue, hl, noise, free, bind, Except.bind, if_false]
        rfl
      · simp only [owed, List.length_cons]
        omega

/-- The scan that a walk shows between two clusters goes on with a visit to the next point. -/
theorem Shows.run_visit (h : w.Shows overflow neighbours minSize s []) (next : w.next = p) :
    ((Scan.visit overflow neighbours minSize (s, w.clusters) p).bind fun state =>
      ((List.finRange n).drop (w.next + 1)).foldlM (Scan.visit overflow neighbours minSize)
        state) = Scan.run overflow neighbours minSize := by
  rw [← h.run, next, drop_finRange p, Scan.grow, Option.bind_some, List.foldlM_cons]
  rfl

/-- A point that a cluster has reached, or that is noise already, is passed over. -/
theorem Shows.pass (h : w.Shows overflow neighbours minSize s []) (next : w.next = p)
    (visited : s.labelOf p ≠ 0) :
    { w with next := w.next + 1 }.Shows overflow neighbours minSize s [] where
  sound := h.sound
  labels := h.labels
  asked := h.asked
  queue := h.queue
  position_le := h.position_le
  next_le := Nat.succ_le_of_lt (next.trans_lt p.isLt)
  counts := h.counts_later rfl (Nat.le_succ _) id
  run := by
    have e := h.run_visit next
    rw [Scan.visit, if_neg visited, Option.bind_some] at e
    rw [Scan.grow, Option.bind_some]
    exact e

/-- A point that is no core point is noise, as far as it is known. -/
theorem Shows.noise (h : w.Shows overflow neighbours minSize s []) (next : w.next = p)
    (free : s.labelOf p = 0) (small : (neighbours p).length < minSize) :
    (({ w with next := w.next + 1 }.ask p).label p (-1)).Shows overflow neighbours minSize
      ((s.ask p).label p (-1)) [] where
  sound := h.sound.ask free (by decide)
  labels := by
    rw [Walk.label, Walk.ask, Scan.label, Scan.ask, Vector.toList_set, h.labels]
  asked := congrArg (p.val :: ·) h.asked
  queue := h.queue
  position_le := h.position_le
  next_le := Nat.succ_le_of_lt (next.trans_lt p.isLt)
  counts := h.counts_later rfl (Nat.le_succ _) id
  run := by
    have e := h.run_visit next
    rw [Scan.visit, if_pos free, if_pos small, Option.bind_some] at e
    rw [Scan.grow, Option.bind_some]
    exact e

/-- The next number of a count that is not stopped. -/
theorem Counts.next {k : Nat} {number : Int32} (h : w.Counts overflow k)
    (some : overflow.next? w.clusters = some number) :
    number = Int32.ofNat (k + 1) ∧ (overflow = .stops → k + 1 < 2 ^ 31) := by
  rw [Overflow.next?] at some
  split at some
  · cases some
  · rename_i going
    refine ⟨?_, fun stops => ?_⟩
    · rw [← Option.some.inj some, h.clusters, Int32.ofNat_add]
      rfl
    · have below := h.few stops
      have largest : k ≠ 2 ^ 31 - 1 := by
        rintro rfl
        exact going ⟨stops, h.clusters⟩
      omega

/-- A core point starts the next cluster, whose number is not 0. -/
theorem Shows.seed (fits : Fits overflow n) (h : w.Shows overflow neighbours minSize s [])
    (next : w.next = p) (free : s.labelOf p = 0) (core : ¬(neighbours p).length < minSize)
    {number : Int32} (some : overflow.next? w.clusters = some number) :
    number ≠ 0 ∧
      (w.seeded number ((neighbours p).map Fin.val)).Shows overflow neighbours minSize
        ((s.ask p).label p number) (neighbours p) := by
  obtain ⟨k, counts, -⟩ := h.counts
  obtain ⟨hnumber, few⟩ := counts.next some
  let w' : Walk := { w with next := w.next + 1, clusters := number }
  have next_le : w'.next ≤ n := Nat.succ_le_of_lt (next.trans_lt p.isLt)
  have counts' : w'.Counts overflow (k + 1) := ⟨hnumber, Nat.succ_le_succ counts.le, few⟩
  have ne : number ≠ 0 := counts'.clusters_ne fits next_le (Nat.succ_pos k)
  refine ⟨ne, ?_⟩
  constructor
  case sound => exact h.sound.ask free ne
  case labels =>
    rw [seeded, Walk.label, Walk.ask, Scan.label, Scan.ask, Vector.toList_set, h.labels, next]
  case asked =>
    change w.next :: w.asked = p.val :: s.asked.map Fin.val
    rw [next, h.asked]
  case queue => exact List.drop_zero
  case position_le => exact Nat.zero_le _
  case next_le => exact next_le
  case counts =>
    exact ⟨k + 1, ⟨counts'.clusters, counts'.le, counts'.few⟩, fun _ => Nat.succ_pos k⟩
  case run =>
    have e := h.run_visit next
    rw [Scan.visit, if_pos free, if_neg core, some, Option.bind_eq_bind, Option.bind_some,
      Option.bind_eq_bind, Option.bind_assoc] at e
    exact e

/-- One round of the loop over the points. -/
theorem Shows.visit (fits : Fits overflow n) (finds : Finds look neighbours)
    (h : w.Shows overflow neighbours minSize s []) (next : w.next = p) :
    Progress overflow neighbours minSize (owed s [] w) (w.visit overflow look minSize) := by
  have hl := h.label_eq p
  have hn := p.isLt
  by_cases free : s.labelOf p = 0
  · by_cases small : (neighbours p).length < minSize
    · have e : w.visit overflow look minSize =
          .ok (({ w with next := w.next + 1 }.ask p).label p (-1)) := by
        simp [Walk.visit, hl, free, Walk.label, Walk.ask, next, finds.look_eq, small, bind,
          Except.bind, pure, Except.pure]
      rw [e]
      refine ⟨_, [], h.noise next free small, ?_⟩
      have fewer := (s.ask p).unvisited_label_le p (l := -1) (by decide)
      have paid := Nat.mul_le_mul_left n fewer
      simp only [owed, Walk.label, Walk.ask, Scan.unvisited_ask, List.length_nil, next] at paid ⊢
      omega
    · cases some : overflow.next? w.clusters with
      | none =>
        have e : w.visit overflow look minSize = .error (.overflow (p.val :: w.asked)) := by
          simp [Walk.visit, hl, free, Walk.ask, next, finds.look_eq, small, some, bind, Except.bind]
          rfl
        rw [e]
        have stops : overflow = .stops := by
          rw [Overflow.next?] at some
          split at some
          · rename_i stopped
            exact stopped.1
          · cases some
        refine ⟨stops, ?_, p :: s.asked, h.sound.fresh free, ?_⟩
        · rw [← h.run_visit next, Scan.visit, if_pos free, if_neg small, some]
          rfl
        · rw [h.asked]
          rfl
      | some number =>
        obtain ⟨ne, shows⟩ := h.seed fits next free small some
        have e : w.visit overflow look minSize =
            .ok (w.seeded number ((neighbours p).map Fin.val)) :=
          visit_core (next ▸ free ▸ hl) (next ▸ finds.look_eq p) (by simpa using small) some
        rw [e]
        refine ⟨_, neighbours p, shows, ?_⟩
        have fewer := (s.ask p).unvisited_label_lt p ne free
        have paid := Nat.mul_le_mul_left n (Nat.succ_le_of_lt fewer)
        have hlen := finds.length_le p
        simp only [owed, seeded, Walk.label, Walk.ask, Scan.unvisited_ask, List.length_nil,
          Nat.mul_succ, next] at paid ⊢
        omega
  · have e : w.visit overflow look minSize = .ok { w with next := w.next + 1 } := by
      simp only [Walk.visit, next, hl, bind, Except.bind, free, if_false]
      rfl
    rw [e]
    refine ⟨s, [], h.pass next free, ?_⟩
    simp only [owed, List.length_nil, next]
    omega

/-- A walk that has not ended goes on. -/
theorem Shows.move (fits : Fits overflow n) (finds : Finds look neighbours)
    (h : w.Shows overflow neighbours minSize s rest) (going : ¬w.Ended n) :
    Progress overflow neighbours minSize (owed s rest w) (w.move overflow look minSize) := by
  cases rest with
  | cons p rest =>
    obtain ⟨w', s', rest', h', e, -, less⟩ := h.follow fits finds
    rw [Walk.move, if_pos h.position_lt, e]
    exact ⟨s', rest', h', less⟩
  | nil =>
    have followed : w.queue.length ≤ w.position := List.drop_eq_nil_iff.mp h.queue
    have hn : w.next < n := Nat.lt_of_not_le fun hn => going ⟨followed, hn⟩
    rw [Walk.move, if_neg (Nat.not_lt.mpr followed)]
    exact h.visit fits finds (p := ⟨w.next, hn⟩) rfl

/-- A walk that has not ended owes something. -/
theorem Shows.owed_pos (h : w.Shows overflow neighbours minSize s rest) (going : ¬w.Ended n) :
    0 < owed s rest w := by
  cases rest with
  | cons p rest =>
    rw [owed, List.length_cons]
    omega
  | nil =>
    have hn : w.next < n :=
      Nat.lt_of_not_le fun hn => going ⟨List.drop_eq_nil_iff.mp h.queue, hn⟩
    rw [owed]
    omega

/-- Where a walk stands after some rounds of a debt: it has ended if they are enough for it. -/
def Outcome (overflow : Overflow) (neighbours : Neighbours n) (minSize debt rounds : Nat) :
    Except Fault Walk → Prop
  | .ok w => ∃ s rest, w.Shows overflow neighbours minSize s rest ∧ (debt ≤ rounds → w.Ended n)
  | .error fault => Stopped overflow neighbours minSize fault

/-- A whole walk: it goes on for as many rounds as wanted, and ends when nothing more is owed. -/
theorem Shows.after (fits : Fits overflow n) (finds : Finds look neighbours)
    (h : w.Shows overflow neighbours minSize s rest) (rounds : Nat) :
    Outcome overflow neighbours minSize (owed s rest w) rounds
      (w.after overflow look minSize n rounds) := by
  induction rounds generalizing w s rest with
  | zero =>
    refine ⟨s, rest, h, fun paid => ?_⟩
    by_contra going
    exact absurd (h.owed_pos going) (Nat.not_lt.mpr paid)
  | succ rounds ih =>
    by_cases ended : w.Ended n
    · rw [after_ended ended]
      exact ⟨s, rest, h, fun _ => ended⟩
    · have progress := h.move fits finds ended
      rw [after_succ ended]
      cases hmove : w.move overflow look minSize with
      | error fault =>
        rw [hmove] at progress
        exact progress
      | ok w₁ =>
        rw [hmove] at progress
        obtain ⟨s₁, rest₁, h₁, less⟩ := progress
        have later := ih h₁
        rw [Except.bind]
        cases hafter : w₁.after overflow look minSize n rounds with
        | error fault =>
          rw [hafter] at later
          exact later
        | ok w₂ =>
          rw [hafter] at later
          obtain ⟨s₂, rest₂, h₂, done⟩ := later
          exact ⟨s₂, rest₂, h₂, fun paid => done (by omega)⟩

/-- The loop over a queue comes to its end, before another point is visited. -/
theorem Shows.exhaust (fits : Fits overflow n) (finds : Finds look neighbours)
    (h : w.Shows overflow neighbours minSize s rest) :
    ∃ rounds w', w.after overflow look minSize n rounds = .ok w' ∧
      w'.queue.length ≤ w'.position ∧ w'.next = w.next := by
  -- what is owed goes down with every round
  induction m : owed s rest w using Nat.strong_induction_on generalizing w s rest with
  | _ m ih =>
    cases rest with
    | nil => exact ⟨0, w, rfl, List.drop_eq_nil_iff.mp h.queue, rfl⟩
    | cons p rest =>
      obtain ⟨w₁, s₁, rest₁, h₁, e, next, less⟩ := h.follow fits finds
      obtain ⟨rounds, w₂, e₂, followed, next₂⟩ := ih _ (m ▸ less) h₁ rfl
      refine ⟨rounds + 1, w₂, ?_, followed, next₂.trans next⟩
      have going : ¬w.Ended n := fun ended => absurd h.position_lt (Nat.not_lt.mpr ended.1)
      rw [after_succ going, Walk.move, if_pos h.position_lt, e]
      exact e₂

end Shows

theorem shows_start (overflow : Overflow) (neighbours : Neighbours n) (minSize : Nat) :
    (start n).Shows overflow neighbours minSize (Scan.start n) [] where
  sound := Scan.sound_start
  labels := Vector.toList_replicate.symm
  asked := rfl
  queue := rfl
  position_le := Nat.le_refl _
  next_le := Nat.zero_le n
  counts := ⟨0, ⟨rfl, Nat.le_refl _, fun _ => Nat.two_pow_pos 31⟩, fun none => absurd rfl none⟩
  run := by rw [Scan.grow]; rfl

theorem owed_start : owed (Scan.start n) [] (start n) = n + n ^ 2 := by
  rw [owed, Scan.unvisited_start, List.length_nil, Nat.pow_two, Nat.add_comm]
  rfl

/-- At the end of a walk its scan is that of the whole run. -/
theorem Shows.run_eq {overflow : Overflow} {neighbours : Neighbours n} {minSize : Nat} {w : Walk}
    {s : Scan n} {rest : List (Fin n)} (h : w.Shows overflow neighbours minSize s rest)
    (ended : w.Ended n) : Scan.run overflow neighbours minSize = some (s, w.clusters) := by
  have hrest : rest = [] := by
    rw [← List.map_eq_nil_iff (f := Fin.val), ← h.queue, List.drop_eq_nil_iff]
    exact ended.1
  have hdrop : (List.finRange n).drop w.next = [] := by
    rw [List.drop_eq_nil_iff, List.length_finRange]
    exact ended.2
  rw [← h.run, hdrop, hrest, Scan.grow]
  rfl

end Walk

/-! ### The walk over points with a distance -/

section Labels

variable {α : Type} {near : α → α → Bool} {points : List (Option α)}

theorem indicesNear_eq (p : Fin points.toArray.size) :
    indicesNear near points p = .ok ((reach near points p).map Fin.val) := by
  have hp : p.val < points.length := by simpa using p.isLt
  have ep : points.toArray.toVector[p] = points[p.val] := by simp
  have read : at? points p.val = .ok points[p.val] := by rw [at?, List.getElem?_eq_getElem hp]
  rw [indicesNear, read, reach, neighboursBy, ep]
  cases points[p.val] with
  | none => rfl
  | some a =>
    have range : List.range points.length = (List.finRange points.toArray.size).map Fin.val := by
      rw [List.map_coe_finRange_eq_range, List.size_toArray]
    refine congrArg Except.ok ?_
    rw [range, List.filter_map]
    congr 1
    refine List.filter_congr fun q _ => ?_
    have hq : q.val < points.length := by simpa using q.isLt
    simp [List.getElem?_eq_getElem hq]

theorem length_reach_le (p : Fin points.toArray.size) :
    (reach near points p).length ≤ points.toArray.size := by
  unfold reach neighboursBy
  cases points.toArray.toVector[p] with
  | none => exact Nat.zero_le _
  | some a => exact (List.length_filter_le _ _).trans_eq List.length_finRange

theorem finds_indicesNear (near : α → α → Bool) (points : List (Option α)) :
    Walk.Finds (indicesNear near points) (reach near points) :=
  ⟨indicesNear_eq, length_reach_le⟩

theorem lt_of_mem_map_val (asked : List (Fin points.toArray.size)) :
    ∀ p ∈ asked.map Fin.val, p < points.length := by
  intro p hp
  obtain ⟨q, -, rfl⟩ := List.mem_map.mp hp
  exact q.isLt

/-- The walk over some points after a number of rounds. -/
def walkOver (overflow : Overflow) (near : α → α → Bool) (minSize : Nat)
    (points : List (Option α)) (rounds : Nat) : Except Fault Walk :=
  (Walk.start points.length).after overflow (indicesNear near points) minSize points.length rounds

theorem walkOver_outcome (overflow : Overflow) (near : α → α → Bool) (minSize : Nat)
    (points : List (Option α)) (fits : Walk.Fits overflow points.length) (rounds : Nat) :
    Walk.Outcome overflow (reach near points) minSize (points.length + points.length ^ 2) rounds
      (walkOver overflow near minSize points rounds) := by
  have sized : Walk.Fits overflow points.toArray.size := fits
  have outcome := (Walk.shows_start overflow (reach near points) minSize).after sized
    (finds_indicesNear near points) rounds
  rw [Walk.owed_start] at outcome
  exact outcome

theorem walkOver_add (overflow : Overflow) (near : α → α → Bool) (minSize : Nat)
    (points : List (Option α)) (first more : Nat) :
    walkOver overflow near minSize points (first + more) =
      (walkOver overflow near minSize points first).bind fun w =>
        w.after overflow (indicesNear near points) minSize points.length more :=
  Walk.after_add first more

/-- A walk that has ended has the labels of the points. -/
theorem labels_eq_of_walkOver {overflow : Overflow} {minSize rounds : Nat} {w : Walk}
    (fits : Walk.Fits overflow points.length)
    (h : walkOver overflow near minSize points rounds = .ok w) (ended : w.Ended points.length) :
    labels overflow near minSize points = some w.labels := by
  have outcome := walkOver_outcome overflow near minSize points fits rounds
  rw [h] at outcome
  obtain ⟨s, rest, shows, -⟩ := outcome
  rw [labels, shows.run_eq (by simpa using ended), shows.labels]
  rfl

/-- A run that reads its labels and its queue by index, over any points and under any distance,
where the count of clusters stops at the largest number or there are fewer points than numbers. At
every stage all indices it has read are in range, it has looked up no neighbourhood twice and the
loop over its queue will come to its end. It breaks off only if the count stops it, and then there
are no labels. Otherwise it is over after at most `n + n ^ 2` rounds over `n` points, has the labels
that `labels` gives and has looked up the same neighbourhoods in the same order. -/
theorem labels_walked (overflow : Overflow) (distance : α → α → Float) (eps : Float)
    (minSize : Nat) (points : List (Option α))
    (fits : overflow = .wraps → points.length < 2 ^ 32) :
    (∀ rounds w, walkOver overflow (closerThan distance eps) minSize points rounds = .ok w →
      w.asked.Nodup ∧ (∀ p ∈ w.asked, p < points.length) ∧
      ∃ more w', walkOver overflow (closerThan distance eps) minSize points (rounds + more) =
        .ok w' ∧ w'.queue.length ≤ w'.position ∧ w'.next = w.next) ∧
    (∀ rounds fault, walkOver overflow (closerThan distance eps) minSize points rounds =
      .error fault →
      overflow = .stops ∧ labels overflow (closerThan distance eps) minSize points = none ∧
      ∃ asked, fault = .overflow asked ∧ asked.Nodup ∧ ∀ p ∈ asked, p < points.length) ∧
    ∃ outcome, (∀ more, walkOver overflow (closerThan distance eps) minSize points
        (points.length + points.length ^ 2 + more) = outcome) ∧
      ∀ w, outcome = .ok w → w.Ended points.length ∧
        labels overflow (closerThan distance eps) minSize points = some w.labels ∧
        (Scan.run overflow (reach (closerThan distance eps) points) minSize).map
          (·.1.asked.map Fin.val) = some w.asked := by
  refine ⟨fun rounds w h => ?_, fun rounds fault h => ?_, ?_⟩
  · have outcome := walkOver_outcome overflow (closerThan distance eps) minSize points fits rounds
    rw [h] at outcome
    obtain ⟨s, rest, shows, -⟩ := outcome
    have sized : Walk.Fits overflow points.toArray.size := fits
    obtain ⟨more, w', e', followed, next⟩ := shows.exhaust sized (finds_indicesNear _ points)
    refine ⟨?_, ?_, more, w', ?_, followed, next⟩
    · rw [shows.asked]
      exact shows.sound.nodup.map Fin.val_injective
    · rw [shows.asked]
      exact lt_of_mem_map_val _
    · rw [walkOver_add, h]
      exact e'
  · have outcome := walkOver_outcome overflow (closerThan distance eps) minSize points fits rounds
    rw [h] at outcome
    obtain ⟨stops, none, asked, nodup, rfl⟩ := outcome
    refine ⟨stops, ?_, _, rfl, nodup.map Fin.val_injective, lt_of_mem_map_val asked⟩
    rw [labels, none]
    rfl
  · have outcome := walkOver_outcome overflow (closerThan distance eps) minSize points fits
      (points.length + points.length ^ 2)
    refine ⟨walkOver overflow (closerThan distance eps) minSize points
      (points.length + points.length ^ 2), fun more => ?_, fun w h => ?_⟩
    · rw [walkOver_add]
      cases hwalk : walkOver overflow (closerThan distance eps) minSize points
          (points.length + points.length ^ 2) with
      | error fault => rfl
      | ok w =>
        rw [hwalk] at outcome
        obtain ⟨_, _, _, done⟩ := outcome
        exact Walk.after_ended (by simpa using done (Nat.le_refl _)) more
    · rw [h] at outcome
      obtain ⟨s, rest, shows, done⟩ := outcome
      have ended := done (Nat.le_refl _)
      refine ⟨by simpa using ended, ?_, ?_⟩
      · exact labels_eq_of_walkOver fits h (by simpa using ended)
      · rw [shows.run_eq ended, shows.asked]
        rfl

/-- The distance of two places on a line. -/
def gap (a b : Nat) : Float := Float.ofNat (max a b - min a b)

/-- Two places next to each other, with a point between them that has none: the second place brings
both into the queue once more, where they are skipped. -/
theorem labels_walked_line :
    (Overflow.wraps = .wraps → [some 0, none, some 1].length < 2 ^ 32) ∧
    walkOver .wraps (closerThan gap 2) 2 [some 0, none, some 1] 12 =
      .ok ⟨[1, -1, 1], [1, 2, 0], 1, 3, [0, 2, 0, 2], 4⟩ ∧
    labels .wraps (closerThan gap 2) 2 [some 0, none, some 1] = some [1, -1, 1] := by
  have walk : walkOver .wraps (closerThan gap 2) 2 [some 0, none, some 1] 12 =
      .ok ⟨[1, -1, 1], [1, 2, 0], 1, 3, [0, 2, 0, 2], 4⟩ := by decide +kernel
  have fits : Overflow.wraps = .wraps → [some 0, none, some 1].length < 2 ^ 32 := fun _ => by decide
  obtain ⟨outcome, stays, done⟩ := (labels_walked .wraps gap 2 2 [some 0, none, some 1] fits).2.2
  exact ⟨fits, walk, (done _ ((stays 0).symm.trans walk)).2.1⟩

/-! ### More points than numbers -/

/-- Points without a place, and a place after them. -/
abbrev crowd (m : Nat) : List (Option Unit) := List.replicate m none ++ [some ()]

/-- Whether places are near each other, which they always are. -/
abbrev everywhere : Unit → Unit → Bool := closerThan (fun _ _ => 0) 1

theorem everywhere_eq (a b : Unit) : everywhere a b = true := by
  change decide ((0 : Float) < 1) = true
  decide +kernel

theorem indicesNear_crowd_lt {m k : Nat} (hk : k < m) :
    indicesNear everywhere (crowd m) k = .ok [] := by
  have none : at? (crowd m) k = .ok none := by
    rw [at?, List.getElem?_append_left (by simpa using hk), List.getElem?_replicate, if_pos hk]
  rw [indicesNear, none]
  rfl

theorem indicesNear_crowd_self (m : Nat) : indicesNear everywhere (crowd m) m = .ok [m] := by
  have last : (crowd m)[m]? = some (some ()) := by simp
  have found : ((List.range (crowd m).length).filter fun q =>
      (crowd m)[q]?.join.any (everywhere ())) = [m] := by
    have before : ((List.range m).filter fun q =>
        (crowd m)[q]?.join.any (everywhere ())) = [] := by
      refine List.filter_eq_nil_iff.mpr fun q hq => ?_
      have hq := List.mem_range.mp hq
      rw [List.getElem?_append_left (by simpa using hq), List.getElem?_replicate, if_pos hq]
      simp
    rw [List.length_append, List.length_replicate, List.length_singleton, List.range_succ,
      List.filter_append, before, List.filter_singleton, last]
    simp [everywhere_eq]
  rw [indicesNear, at?, last, ← found]
  rfl

/-- The walk over a crowd when `k` of its unlocated points have had their visit. Each is a
cluster. -/
structure Crowded (m k : Nat) (w : Walk) : Prop where
  clusters : w.clusters = Int32.ofNat k
  next : w.next = k
  queue : w.queue = []
  position : w.position = 0
  length : w.labels.length = m + 1
  unvisited : ∀ q, k ≤ q → q ≤ m → w.labels[q]? = some 0

/-- The walk over a crowd whose place has become a cluster of the number 0. -/
structure Stuck (m : Nat) (w : Walk) : Prop where
  clusters : w.clusters = 0
  queue : w.queue = List.replicate (w.position + 1) m
  unvisited : w.labels[m]? = some 0
  asked : m ∈ w.asked

theorem crowded_start (m : Nat) : Crowded m 0 (Walk.start (m + 1)) := by
  refine ⟨rfl, rfl, rfl, rfl, List.length_replicate, fun q _ hq => ?_⟩
  rw [Walk.start, List.getElem?_replicate, if_pos (Nat.lt_succ_of_le hq)]

theorem Overflow.next?_wraps (number : Int32) :
    Overflow.wraps.next? number = some (number + 1) := rfl

section Crowd

variable {m k : Nat} {w : Walk}

theorem Crowded.move (h : Crowded m k w) (hk : k < m) :
    ∃ w', w.move .wraps (indicesNear everywhere (crowd m)) 0 = .ok w' ∧ Crowded m (k + 1) w' := by
  have free : at? w.labels k = .ok 0 := by rw [at?, h.unvisited k (Nat.le_refl k) hk.le]
  refine ⟨w.seeded (w.clusters + 1) [], ?_, ?_⟩
  · rw [Walk.move, if_neg (by simp [h.queue])]
    exact Walk.visit_core (h.next ▸ free) (h.next ▸ indicesNear_crowd_lt hk) (Nat.not_lt_zero _)
      (Overflow.next?_wraps _)
  · refine ⟨?_, congrArg (· + 1) h.next, rfl, rfl, ?_, fun q hq hqm => ?_⟩
    · simp [Walk.seeded, Walk.label, Walk.ask, h.clusters, Int32.ofNat_add]
    · simpa [Walk.seeded, Walk.label, Walk.ask] using h.length
    · have hqk : w.next ≠ q := by rw [h.next]; omega
      simp [Walk.seeded, Walk.label, Walk.ask, hqk, h.unvisited q (by omega) hqm]

theorem Crowded.after (h : Crowded m k w) (rounds : Nat) (few : k + rounds ≤ m) :
    ∃ w', w.after .wraps (indicesNear everywhere (crowd m)) 0 (m + 1) rounds = .ok w' ∧
      Crowded m (k + rounds) w' := by
  induction rounds generalizing w k with
  | zero => exact ⟨w, rfl, h⟩
  | succ rounds ih =>
    have going : ¬ w.Ended (m + 1) := fun ended => by
      have := h.next ▸ ended.2
      omega
    obtain ⟨w₁, e₁, h₁⟩ := h.move (by omega)
    obtain ⟨w₂, e₂, h₂⟩ := ih h₁ (by omega)
    refine ⟨w₂, ?_, by rwa [Nat.add_right_comm] at h₂⟩
    rw [Walk.after_succ going, e₁]
    exact e₂

/-- The place has its visit when the numbers come round to 0. -/
theorem Crowded.seed (h : Crowded m m w) (round : Int32.ofNat (m + 1) = 0) :
    ∃ w', w.move .wraps (indicesNear everywhere (crowd m)) 0 = .ok w' ∧ Stuck m w' := by
  have free : at? w.labels m = .ok 0 := by
    rw [at?, h.unvisited m (Nat.le_refl m) (Nat.le_refl m)]
  have zero : w.clusters + 1 = 0 := by rw [h.clusters, ← round, Int32.ofNat_add]; rfl
  refine ⟨w.seeded (w.clusters + 1) [m], ?_, zero, rfl, ?_, ?_⟩
  · rw [Walk.move, if_neg (by simp [h.queue])]
    exact Walk.visit_core (h.next ▸ free) (h.next ▸ indicesNear_crowd_self m) (Nat.not_lt_zero _)
      (Overflow.next?_wraps _)
  · have hm : m < w.labels.length := by rw [h.length]; exact Nat.lt_succ_self m
    simp [Walk.seeded, Walk.label, Walk.ask, h.next, hm, zero]
  · rw [← h.next]
    exact List.mem_cons_self

theorem Stuck.position_lt (h : Stuck m w) : w.position < w.queue.length := by
  rw [h.queue, List.length_replicate]
  exact Nat.lt_succ_self _

/-- The place is looked up once more, and brings itself into the queue once more. -/
theorem Stuck.move (h : Stuck m w) :
    ∃ w', w.move .wraps (indicesNear everywhere (crowd m)) 0 = .ok w' ∧ Stuck m w' ∧
      ¬ w'.asked.Nodup := by
  have head : at? w.queue w.position = .ok m := by
    rw [at?, h.queue, List.getElem?_replicate, if_pos (Nat.lt_succ_self _)]
  have free : at? w.labels m = .ok 0 := by rw [at?, h.unvisited]
  have hm : m < w.labels.length := (List.getElem?_eq_some_iff.mp h.unvisited).1
  refine ⟨w.joined m [m], ?_, ⟨h.clusters, ?_, ?_, List.mem_cons_self⟩, ?_⟩
  · rw [Walk.move, if_pos h.position_lt]
    exact Walk.follow_unvisited head free (indicesNear_crowd_self m)
  · rw [Walk.joined, h.queue]
    exact List.replicate_succ'.symm
  · simp [Walk.joined, Walk.label, Walk.ask, hm, h.clusters]
  · exact fun nodup => (List.nodup_cons.mp nodup).1 h.asked

theorem Stuck.after (h : Stuck m w) (rounds : Nat) :
    ∃ w', w.after .wraps (indicesNear everywhere (crowd m)) 0 (m + 1) rounds = .ok w' ∧
      Stuck m w' := by
  induction rounds generalizing w with
  | zero => exact ⟨w, rfl, h⟩
  | succ rounds ih =>
    have going : ¬ w.Ended (m + 1) := fun ended => absurd h.position_lt (Nat.not_lt.mpr ended.1)
    obtain ⟨w₁, e₁, h₁, -⟩ := h.move
    obtain ⟨w₂, e₂, h₂⟩ := ih h₁
    refine ⟨w₂, ?_, h₂⟩
    rw [Walk.after_succ going, e₁]
    exact e₂

theorem length_crowd (m : Nat) : (crowd m).length = m + 1 := by simp

theorem stuck_crowd (round : Int32.ofNat (m + 1) = 0) (more : Nat) :
    ∃ w, walkOver .wraps everywhere 0 (crowd m) (m + 1 + more) = .ok w ∧ Stuck m w := by
  obtain ⟨w₀, e₀, h₀⟩ := (crowded_start m).after m (by omega)
  rw [Nat.zero_add] at h₀
  obtain ⟨w₁, e₁, h₁⟩ := h₀.seed round
  obtain ⟨w₂, e₂, h₂⟩ := h₁.after more
  have going : ¬ w₀.Ended (m + 1) := fun ended => by
    have := h₀.next ▸ ended.2
    omega
  refine ⟨w₂, ?_, h₂⟩
  rw [walkOver, length_crowd, Nat.add_assoc, Walk.after_add, e₀, Nat.add_comm 1 more]
  change w₀.after _ _ _ _ _ = _
  rw [Walk.after_succ going, e₁]
  exact e₂

/-- One round later the neighbourhood of the place has been looked up twice. -/
theorem stuck_crowd_again (round : Int32.ofNat (m + 1) = 0) :
    ∃ w, walkOver .wraps everywhere 0 (crowd m) (m + 1 + 1) = .ok w ∧ ¬ w.asked.Nodup := by
  obtain ⟨w, e, h⟩ := stuck_crowd round 0
  obtain ⟨w', e', -, again⟩ := h.move
  refine ⟨w', ?_, again⟩
  have going : ¬ w.Ended (crowd m).length := fun ended =>
    absurd h.position_lt (Nat.not_lt.mpr ended.1)
  rw [Nat.add_zero] at e
  rw [walkOver_add, e]
  change w.after _ _ _ _ _ = _
  rw [Walk.after_succ going, e']
  rfl

end Crowd

/-- As many points as numbers, where each is a cluster and the count goes on past the largest
number: the place after them gets the number 0, its neighbourhood is looked up twice, and the loop
over its queue never ends. -/
theorem crowd_unending :
    (crowd (2 ^ 32 - 1)).length = 2 ^ 32 ∧
    (∃ w, walkOver .wraps (closerThan (fun _ _ => 0) 1) 0 (crowd (2 ^ 32 - 1)) (2 ^ 32 + 1) =
      .ok w ∧ ¬ w.asked.Nodup) ∧
    ∀ more, ∃ w, walkOver .wraps (closerThan (fun _ _ => 0) 1) 0 (crowd (2 ^ 32 - 1))
      (2 ^ 32 + more) = .ok w ∧ w.position < w.queue.length := by
  have round : Int32.ofNat (2 ^ 32 - 1 + 1) = 0 := by decide
  have whole : 2 ^ 32 - 1 + 1 = 2 ^ 32 := by omega
  refine ⟨?_, ?_, fun more => ?_⟩
  · rw [length_crowd, whole]
  · have again := stuck_crowd_again round
    rwa [whole] at again
  · obtain ⟨w, e, h⟩ := stuck_crowd round more
    rw [whole] at e
    exact ⟨w, e, h.position_lt⟩

end Labels

end Geotrack.Density
