import ArcGraph.Arc.Basic
import ArcGraph.Style

/-!
Where the label of an edge stands.
-/

namespace ArcGraph.Arc

open Scalar

variable {α : Type} [Scalar α]

/-- One, or its opposite for an arc that runs towards smaller first coordinates. -/
def labelSide (arc : Arc α) : α :=
  if arc.finish.x - arc.start.x < ofNat 0 then -ofNat 1 else ofNat 1

/-- The place of the label: beside the head of a directed edge, drawn back by its arrow, and
beside the middle of the chord of any other. -/
def labelAnchor (arc : Arc α) (style : Style α) (directed : Bool) (arrow : Vec α) : Vec α :=
  if directed then
    arc.head + (arc.labelSide * style.labelOffsetFactor * arc.finishRadius) • arc.normal - arrow
  else
    arc.midpoint +
      (arc.labelSide * style.labelMidpointScale * style.labelOffsetFactor) • arc.normal

end ArcGraph.Arc
