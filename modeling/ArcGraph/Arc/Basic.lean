import ArcGraph.Disk
import ArcGraph.Plane.Bezier

/-!
The curve of an edge between two disks.

An arc starts on the boundary of its first disk, runs through its apex and ends
on the boundary of its second disk. The apex lies beside the middle of the
chord between the centers, on the side of the chord's normal. Exchanging the
disks turns the normal round, so the arc of the way back bulges to the other
side.
-/

namespace ArcGraph

open Scalar

/-- Why two disks have no arc. -/
inductive Degeneracy where
  | notFinite
  | coincident
  | apexAtStart
  | apexAtFinish
  deriving DecidableEq, Repr

/-- A curve between two disks, with everything that follows from them and the curvature. -/
structure Arc (α : Type) where
  /-- The centers of the two disks and their radii. -/
  start : Vec α
  finish : Vec α
  startRadius : α
  finishRadius : α
  /-- How far the apex lies from the middle of the chord. -/
  curvature : α
  /-- The unit normal of the chord; the chord's line is where it has product `offset`. -/
  normal : Vec α
  offset : α
  /-- The chord without the parts that the two disks hide. -/
  reach : Vec α
  midpoint : Vec α
  apex : Vec α
  /-- The ends of the arc, on the boundaries of the disks. -/
  tail : Vec α
  head : Vec α
  deriving DecidableEq

namespace Arc

variable {α : Type} [Scalar α]

/-- The arc from one disk to another. -/
def between (start finish : Disk α) (curvature : α) : Except Degeneracy (Arc α) :=
  if !(start.center.isFinite && finish.center.isFinite && isFinite curvature) then
    .error .notFinite
  else
    let startRadius := Disk.properRadius start.radius
    let finishRadius := Disk.properRadius finish.radius
    let chord := finish.center - start.center
    match chord.unit? with
    | none => .error .coincident
    | some along =>
      let normal := along.perp
      let midpoint := (ofNat 1 / ofNat 2 : α) • (start.center + finish.center)
      let apex := midpoint + curvature • normal
      match (apex - start.center).unit? with
      | none => .error .apexAtStart
      | some fromStart =>
        match (apex - finish.center).unit? with
        | none => .error .apexAtFinish
        | some fromFinish => .ok {
            start := start.center
            finish := finish.center
            startRadius, finishRadius, curvature, normal
            offset := normal.dot start.center
            reach := chord - (startRadius + finishRadius) • along
            midpoint, apex
            tail := start.center + startRadius • fromStart
            head := finish.center + finishRadius • fromFinish }

/-- The radii that `between` takes for zero, in its order of looking at them. -/
def improperRadii (start finish : Disk α) (curvature : α) : List α :=
  if start.center.isFinite && finish.center.isFinite && isFinite curvature then
    [start.radius, finish.radius].filter fun radius => !Disk.isProperRadius radius
  else []

variable (arc : Arc α)

/-- The middle control point of the arc as a curve of degree two, so that it meets the apex
halfway. -/
def handle : Vec α :=
  (ofNat 2 : α) • arc.apex - (ofNat 1 / ofNat 2 : α) • (arc.tail + arc.head)

/-- The point of the arc at parameter `t`, from the tail at zero to the head at one. -/
def pointAt (t : α) : Vec α :=
  Bezier.quadratic arc.tail arc.handle arc.head t

/-- The signed distance of a point from the chord, positive on the side of the normal. -/
def side (p : Vec α) : α :=
  arc.normal.dot p - arc.offset

/-- The length of the part of the chord that shows. -/
def reachLength : α :=
  arc.reach.length

end Arc

end ArcGraph
