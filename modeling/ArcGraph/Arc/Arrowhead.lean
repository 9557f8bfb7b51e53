import ArcGraph.Arc.Basic

/-!
The arrowhead of a directed edge.
-/

namespace ArcGraph

/-- The triangle at the head of an arc. -/
structure Arrowhead (α : Type) where
  tip : Vec α
  left : Vec α
  right : Vec α
  /-- From the middle of the base to the tip, as long as the radius at the finish. -/
  direction : Vec α
  deriving DecidableEq

/-- The arrowhead points from the apex to the head, unless the two coincide. -/
def Arrowhead.ofArc? {α : Type} [Scalar α] (arc : Arc α) (halfWidth : α) :
    Option (Arrowhead α) :=
  let tangent := arc.head - arc.apex
  match tangent.unit?, tangent.withLength? arc.finishRadius with
  | some along, some direction =>
      let across := halfWidth • along.perp
      let base := arc.head - direction
      some ⟨arc.head, base + across, base - across, direction⟩
  | _, _ => none

end ArcGraph
