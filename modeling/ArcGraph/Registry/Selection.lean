import ArcGraph.Registry.Basic

/-!
Picking and selecting edges.

Edges that came in later lie on top of earlier ones and are picked first.
-/

namespace ArcGraph.Registry

variable {α : Type} [Scalar α] (registry : Registry α)

/-- The id of the topmost edge at a point. -/
def pick? (p : Vec α) (tolerance : α) : Option EdgeId :=
  (registry.edges.values.reverse.find? fun edge => edge.isHit p tolerance).map Edge.id

/-- Change whether the edge at a point is selected. -/
def selectWith (next : Bool → Bool) (p : Vec α) (tolerance : α) :
    Option EdgeId × Registry α :=
  match registry.pick? p tolerance with
  | none => (none, registry)
  | some id =>
    if registry.edges.contains id then
      (some id, registry.modify id fun edge => edge.withSelected (next edge.flags.selected))
    else (none, registry)

def selectAt (p : Vec α) (tolerance : α) : Option EdgeId × Registry α :=
  registry.selectWith (fun _ => true) p tolerance

def deselectAt (p : Vec α) (tolerance : α) : Option EdgeId × Registry α :=
  registry.selectWith (fun _ => false) p tolerance

def toggleAt (p : Vec α) (tolerance : α) : Option EdgeId × Registry α :=
  registry.selectWith (fun selected => !selected) p tolerance

/-- The edge has an arc whose two nodes have their centers strictly inside a box. -/
def isInBox (lower upper : Vec α) (edge : Edge α) : Bool :=
  edge.arc.any fun arc =>
    arc.start.strictlyBetween lower upper && arc.finish.strictlyBetween lower upper

/-- Select the edges in the box between two corners, and count those that were not before. -/
def selectInBox (a b : Vec α) : Nat × Registry α :=
  let inBox := isInBox (a.lowerCorner b) (a.upperCorner b)
  (registry.edges.values.countP fun edge => inBox edge && !edge.flags.selected,
    registry.mapEdges fun edge => if inBox edge then edge.withSelected true else edge)

omit [Scalar α] in
def deselectAll : Registry α :=
  registry.mapEdges fun edge => edge.withSelected false

end ArcGraph.Registry
