import ArcGraph.Arc.Basic

/-!
An arc as the graph of a parabola.

Along the axis of the parabola an arc is the graph of `a u² + b u` over an
interval that starts at zero. `ofArc?` finds the axes and solves for the two
coefficients, so that the graph passes through the tail, the apex and the head.
-/

namespace ArcGraph

open Scalar

/-- A frame of two axes and the parabola `v = a u² + b u` in it. -/
structure Parabola (α : Type) where
  origin : Vec α
  uAxis : Vec α
  vAxis : Vec α
  a : α
  b : α
  /-- The first coordinate of the head. -/
  span : α
  deriving DecidableEq

namespace Parabola

variable {α : Type} [Scalar α]

/-- An arc whose bulge across the chord is at most this part of the chord counts as straight. -/
def straightRatio : α :=
  ofNat 1 / ofNat 10000

/-- The distance from one to the next larger number of 24 bits. -/
def unitSpacing : α :=
  ofNat 1 / ofNat 8388608

/-- The direction of the axis: that of the bulge, or across the chord for a straight arc. -/
def axis? (bulge along : Vec α) (length : α) : Option (Vec α) :=
  if abs (bulge.perpDot along) ≤ straightRatio * length then some along.perp else bulge.unit?

/-- The direction across the axis that points the way of the chord. -/
def crossAxis (axis chord : Vec α) : Vec α :=
  if (-axis.perp).dot chord < ofNat 0 then -(-axis.perp) else -axis.perp

/-- The coefficients of the parabola through the origin and two more points. -/
def coefficients? (pu pv qu qv : α) : Option (α × α) :=
  let determinant := pu * qu * (pu - qu)
  if !isFinite determinant || decide (abs determinant < unitSpacing) then none
  else
    let a := (pv * qu - qv * pu) / determinant
    let b := (pu * pu * qv - qu * qu * pv) / determinant
    if !isFinite a || !isFinite b then none else some (a, b)

/-- The parabola of an arc, unless it has no extent across its axis. -/
def ofArc? (arc : Arc α) : Option (Parabola α) :=
  let chord := arc.head - arc.tail
  match chord.unit? with
  | none => none
  | some along =>
    let bulge := arc.apex - (ofNat 1 / ofNat 2 : α) • (arc.tail + arc.head)
    match axis? bulge along chord.length with
    | none => none
    | some vAxis =>
      let uAxis := crossAxis vAxis chord
      let p := arc.apex - arc.tail
      let q := arc.head - arc.tail
      match coefficients? (p.dot uAxis) (p.dot vAxis) (q.dot uAxis) (q.dot vAxis) with
      | none => none
      | some (a, b) => some ⟨arc.tail, uAxis, vAxis, a, b, q.dot uAxis⟩

variable (parabola : Parabola α)

/-- The coordinates of a point in the frame. -/
def toLocal (p : Vec α) : α × α :=
  let relative := p - parabola.origin
  (relative.dot parabola.uAxis, relative.dot parabola.vAxis)

/-- The height of the parabola over `u`. -/
def eval (u : α) : α :=
  parabola.a * u * u + parabola.b * u

end Parabola

end ArcGraph
