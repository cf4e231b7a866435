import Geotrack.Geodesy.Point

/-!
# Straight edges in the plane of degrees

Fences and regions are drawn on a flat map, so that their edges are straight in degrees. An edge
has a bounding box, a turn toward any point, and a meeting with another edge: nothing, one point,
or a stretch that both share.
-/

namespace Geotrack

open Scalar

/-- A straight edge between two points. -/
structure Edge (K : Type) where
  start : Point K
  finish : Point K
  deriving Repr, Inhabited, DecidableEq

/-- What two edges have in common. -/
inductive Meeting (K : Type) where
  | single (p : Point K)
  | stretch (e : Edge K)
  deriving Repr, Inhabited, DecidableEq

/-- The points that a meeting is reported by: the single one, or both ends of the stretch. -/
def Meeting.points : Meeting K → List (Point K)
  | .single p => [p]
  | .stretch e => [e.start, e.finish]

variable {K : Type} [Scalar K]

/-- A rectangle along the axes. -/
structure Box (K : Type) where
  west : K
  south : K
  east : K
  north : K
  deriving Repr, Inhabited, DecidableEq

namespace Box

/-- The box with two points as opposite corners. -/
def spanning (a b : Point K) : Box K :=
  let (west, east) :=
    if lt a.longitude b.longitude then (a.longitude, b.longitude) else (b.longitude, a.longitude)
  let (south, north) :=
    if lt a.latitude b.latitude then (a.latitude, b.latitude) else (b.latitude, a.latitude)
  ⟨west, south, east, north⟩

/-- Whether a point lies in the box, its border included. -/
def holds (b : Box K) (p : Point K) : Bool :=
  le b.west p.longitude && le b.south p.latitude && le p.longitude b.east && le p.latitude b.north

/-- Whether two boxes share a point. -/
def touches (a b : Box K) : Bool :=
  !(lt a.east b.west || lt a.north b.south || lt b.east a.west || lt b.north a.south)

end Box

/-- The turn of the path from `p` over `q` to `r`. -/
def turnOf (p q r : Point K) : Turn :=
  turn p.longitude p.latitude q.longitude q.latitude r.longitude r.latitude

/-- The distance between two points in degrees. -/
def planarDistance (a b : Point K) : K :=
  hypotenuse (a.longitude - b.longitude) (a.latitude - b.latitude)

namespace Edge

def box (e : Edge K) : Box K := .spanning e.start e.finish

def turnTo (e : Edge K) (p : Point K) : Turn := turnOf e.start e.finish p

/-- Whether a point lies on the edge. -/
def holds (e : Edge K) (p : Point K) : Bool :=
  e.turnTo p = .straight && between p.longitude e.start.longitude e.finish.longitude &&
  between p.latitude e.start.latitude e.finish.latitude

/-- The distance in degrees from a point to the edge. -/
def distanceTo (e : Edge K) (p : Point K) : K :=
  if e.start.same e.finish then planarDistance p e.start
  else
    let dx := e.finish.longitude - e.start.longitude
    let dy := e.finish.latitude - e.start.latitude
    let lengthSquare := dx * dx + dy * dy
    let r :=
      ((p.longitude - e.start.longitude) * dx + (p.latitude - e.start.latitude) * dy) / lengthSquare
    if le r zero then planarDistance p e.start
    else if le one r then planarDistance p e.finish
    else
      let doubleArea :=
        (e.start.latitude - p.latitude) * dx - (e.start.longitude - p.longitude) * dy
      let s := doubleArea / lengthSquare
      abs s * hypotenuse dx dy

/-- The point where the lines through two edges cross, in homogeneous coordinates around the middle
of the box that both edges span; none where it is not finite. -/
def lineCrossing? (p q : Edge K) : Option (Point K) :=
  let middle (p1 p2 q1 q2 : K) : K :=
    (max (min p1 p2) (min q1 q2) + min (max p1 p2) (max q1 q2)) / ofInt 2
  let midX := middle p.start.longitude p.finish.longitude q.start.longitude q.finish.longitude
  let midY := middle p.start.latitude p.finish.latitude q.start.latitude q.finish.latitude
  let p1x := p.start.longitude - midX
  let p1y := p.start.latitude - midY
  let p2x := p.finish.longitude - midX
  let p2y := p.finish.latitude - midY
  let q1x := q.start.longitude - midX
  let q1y := q.start.latitude - midY
  let q2x := q.finish.longitude - midX
  let q2y := q.finish.latitude - midY
  let px := p1y - p2y
  let py := p2x - p1x
  let pw := p1x * p2y - p2x * p1y
  let qx := q1y - q2y
  let qy := q2x - q1x
  let qw := q1x * q2y - q2x * q1y
  let w := px * qy - qx * py
  let x := (py * qw - qy * pw) / w
  let y := (qx * pw - px * qw) / w
  if finite x && finite y then some ⟨x + midX, y + midY⟩ else none

/-- The end of one of two edges that lies nearest the other edge, the first of equal ones. -/
def nearestEnd (p q : Edge K) : Point K :=
  let step (best : Point K × K) (next : Point K × K) := if lt next.2 best.2 then next else best
  ([(p.finish, q.distanceTo p.finish), (q.start, p.distanceTo q.start),
    (q.finish, p.distanceTo q.finish)].foldl step (p.start, q.distanceTo p.start)).1

/-- The point where two edges cross inside. A crossing that rounding has carried out of either box
is replaced by the nearest end. -/
def properCrossing (p q : Edge K) : Point K :=
  let c := (lineCrossing? p q).getD (nearestEnd p q)
  if p.box.holds c && q.box.holds c then c else nearestEnd p q

/-- The meeting of two edges on one line. -/
def overlap? (p q : Edge K) : Option (Meeting K) :=
  match p.box.holds q.start, p.box.holds q.finish, q.box.holds p.start, q.box.holds p.finish with
  | true, true, _, _ => some (.stretch q)
  | _, _, true, true => some (.stretch p)
  | true, _, true, _ =>
    if q.start.same p.start then some (.single q.start) else some (.stretch ⟨q.start, p.start⟩)
  | true, _, _, true =>
    if q.start.same p.finish then some (.single q.start) else some (.stretch ⟨q.start, p.finish⟩)
  | _, true, true, _ =>
    if q.finish.same p.start then some (.single q.finish) else some (.stretch ⟨q.finish, p.start⟩)
  | _, true, _, true =>
    if q.finish.same p.finish then some (.single q.finish) else some (.stretch ⟨q.finish, p.finish⟩)
  | _, _, _, _ => none

/-- Whether two turns are to the same side. -/
def sameSide : Turn → Turn → Bool
  | .left, .left => true
  | .right, .right => true
  | _, _ => false

/-- The meeting of two edges. An end that lies on the other edge is given as it is; only a crossing
inside both edges is computed. -/
def meet? (p q : Edge K) : Option (Meeting K) :=
  if !p.box.touches q.box then none
  else
    let toStart := p.turnTo q.start
    let toFinish := p.turnTo q.finish
    if sameSide toStart toFinish then none
    else
      let fromStart := q.turnTo p.start
      let fromFinish := q.turnTo p.finish
      if sameSide fromStart fromFinish then none
      else if toStart = .straight ∧ toFinish = .straight ∧
          fromStart = .straight ∧ fromFinish = .straight then
        overlap? p q
      else if toStart = .straight ∨ toFinish = .straight ∨
          fromStart = .straight ∨ fromFinish = .straight then
        some <| .single <|
          if p.start.same q.start || p.start.same q.finish then p.start
          else if p.finish.same q.start || p.finish.same q.finish then p.finish
          else if toStart = .straight then q.start
          else if toFinish = .straight then q.finish
          else if fromStart = .straight then p.start
          else p.finish
      else some (.single (properCrossing p q))

end Edge

end Geotrack
