/-!
# Density clusters

Points are clustered by density. A point is a core point when enough points are near it, itself
included. A cluster grows from a core point over all points near its core points; what no cluster
reaches is noise. `Density.labels` numbers the clusters from 1 in the order of their first points
and gives noise the label -1. What is near is a parameter.

Labels have 32 bits, so that the count of clusters may go past the largest of them. What it does
then is a parameter too, as it depends on how a program is built.
-/

namespace Geotrack.Density

/-- What a count does past the largest number: it stops the program, or goes on from the least. -/
inductive Overflow where
  | stops
  | wraps
  deriving DecidableEq, Repr

/-- The number after another, if the program gets that far. -/
def Overflow.next? (overflow : Overflow) (number : Int32) : Option Int32 :=
  if overflow = .stops ∧ number = Int32.maxValue then none else some (number + 1)

/-- The points in the neighbourhood of each of `n` points. -/
abbrev Neighbours (n : Nat) := Fin n → List (Fin n)

/-- The points that are near a point. A point without a location is near nothing. -/
def neighboursBy (near : α → α → Bool) (points : Vector (Option α) n) : Neighbours n := fun p =>
  match points[p] with
  | none => []
  | some a => (List.finRange n).filter fun q => points[q].any (near a)

/-- Where a run over `n` points stands. -/
structure Scan (n : Nat) where
  /-- The label of each point: 0 until it is visited, -1 for noise, else the number of its
  cluster. -/
  labels : Vector Int32 n
  /-- The points whose neighbourhood has been looked up, last first. -/
  asked : List (Fin n)

namespace Scan

def start (n : Nat) : Scan n := ⟨Vector.replicate n 0, []⟩

def labelOf (s : Scan n) (p : Fin n) : Int32 := getElem s.labels p p.isLt

def label (s : Scan n) (p : Fin n) (l : Int32) : Scan n :=
  { s with labels := s.labels.set p l p.isLt }

def ask (s : Scan n) (p : Fin n) : Scan n := { s with asked := p :: s.asked }

/-- Grows a cluster over a queue of points. Noise becomes its border and is not followed further. A
point that was not visited joins, and when it is a core point its neighbourhood joins the queue.
The queue may name a point again and again, and a point with another label is skipped. It gives
nothing if it never comes to the end of the queue: a cluster whose number is 0 leaves its points
unvisited. -/
def grow (neighbours : Neighbours n) (minSize : Nat) (number : Int32) (s : Scan n) :
    (queue : List (Fin n)) → Option (Scan n)
  | [] => some s
  | p :: queue =>
    if s.labelOf p = -1 then s.label p number |>.grow neighbours minSize number queue
    else if s.labelOf p = 0 then
      let near := neighbours p
      let queue := if minSize ≤ near.length then queue ++ near else queue
      s.label p number |>.ask p |>.grow neighbours minSize number queue
    else s |>.grow neighbours minSize number queue
partial_fixpoint

/-- Visits a point: it starts a new cluster if it is a core point that no cluster has reached. The
number of the last cluster goes along. -/
def visit (overflow : Overflow) (neighbours : Neighbours n) (minSize : Nat)
    (state : Scan n × Int32) (p : Fin n) : Option (Scan n × Int32) :=
  let (s, clusters) := state
  if s.labelOf p = 0 then
    let near := neighbours p
    let s := s.ask p
    if near.length < minSize then some (s.label p (-1), clusters)
    else do
      let number ← overflow.next? clusters
      let s ← (s.label p number).grow neighbours minSize number near
      return (s, number)
  else some state

/-- Visits all points in order. It gives nothing if the program stops on the way or never ends. -/
def run (overflow : Overflow) (neighbours : Neighbours n) (minSize : Nat) :
    Option (Scan n × Int32) :=
  (List.finRange n).foldlM (visit overflow neighbours minSize) (start n, 0)

end Scan

/-- Whether two points are closer to each other than `eps`. -/
def closerThan {α : Type} (distance : α → α → Float) (eps : Float) (a b : α) : Bool :=
  distance a b < eps

/-- The neighbourhoods of the points of a list. -/
abbrev reach (near : α → α → Bool) (points : List (Option α)) : Neighbours points.toArray.size :=
  neighboursBy near points.toArray.toVector

/-- The label of each point. A point with fewer than `minSize` points near it is noise unless the
neighbourhood of a core point reaches it. -/
def labels (overflow : Overflow) (near : α → α → Bool) (minSize : Nat)
    (points : List (Option α)) : Option (List Int32) :=
  (Scan.run overflow (reach near points) minSize).map (·.1.labels.toList)

end Geotrack.Density
