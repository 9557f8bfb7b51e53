import ArcGraph.Arc.Parabola

/-!
Which points count as lying on an arc.

A point is judged in stages, and the judgement says which stage turned it away.
It hits the arc if it lies over the arc's span, within the tolerance of the
parabola in the direction of its axis, and inside neither of the two disks.
-/

namespace ArcGraph

open Scalar

/-- The outcome of judging a point against an arc, with one outcome per reason to turn it away. -/
inductive Judgement where
  | invalid
  | besideHull
  | noParabola
  | offCurve
  | beyondEnds
  | insideDisk
  | hit
  deriving DecidableEq, Repr

namespace Arc

variable {α : Type} [Scalar α]

/-- The least slack that rounding is granted. -/
def leastSlack : α :=
  ofNat 1 / ofNat 1000

/-- The slack that rounding is granted: it grows with the size of the coordinates. -/
def slack (arc : Arc α) : α :=
  let magnitude := maxNumber (maxNumber arc.tail.greatestSize arc.head.greatestSize)
    arc.apex.greatestSize
  maxNumber leastSlack (Parabola.unitSpacing * ofNat 32 * magnitude)

/-- The point is farther than the tolerance from the strip, parallel to the chord, that holds the
three control points. A strip of which no border is known holds nothing. -/
def isBesideHull (arc : Arc α) (p : Vec α) (tolerance : α) : Bool :=
  let side := arc.side p
  match extent [arc.side arc.tail, arc.side arc.handle, arc.side arc.head] with
  | none => isFinite tolerance && !isNaN side
  | some (least, greatest) =>
      decide (side < least - tolerance) || decide (greatest + tolerance < side)

/-- The point lies in the open disk around the start or in that around the finish, or its distance
from one of them is no number. -/
def isInsideDisk (arc : Arc α) (p : Vec α) : Bool :=
  !(decide (arc.startRadius ≤ p.distance arc.start) &&
    decide (arc.finishRadius ≤ p.distance arc.finish))

def judge (arc : Arc α) (p : Vec α) (distance : α) : Judgement :=
  if !p.isFinite || isNaN distance || decide (distance < ofNat 0) then .invalid
  else
    let tolerance := distance + arc.slack
    if arc.isBesideHull p tolerance then .besideHull
    else match Parabola.ofArc? arc with
      | none => .noParabola
      | some parabola =>
        let (u, v) := parabola.toLocal p
        if tolerance < abs (v - parabola.eval u) then .offCurve
        else
          let share := u / parabola.span
          if !(decide (ofNat 0 ≤ share) && decide (share ≤ ofNat 1)) then .beyondEnds
          else if arc.isInsideDisk p then .insideDisk
          else .hit

/-- The point lies on the arc, give or take `distance`. -/
def isHit (arc : Arc α) (p : Vec α) (distance : α) : Bool :=
  arc.judge p distance = .hit

end Arc

end ArcGraph
