import ArcGraph.Arc.Arrowhead
import ArcGraph.Arc.Label
import ArcGraph.Canvas.Command
import ArcGraph.Registry.Basic

/-!
Drawing edges.

A pen is chosen once for a surface, by what the surface declares. It draws an
edge as a curve, then an arrowhead if the edge is directed, then a label if it
is weighted. The edges of a registry are drawn one after the other.
-/

namespace ArcGraph

open Scalar

/-- The command that draws the curve of an edge. -/
inductive CurveKind where
  | quadratic
  | cubic
  deriving DecidableEq, Repr

/-- What a surface would have to draw and does not. -/
inductive MissingCapability where
  | curves
  | text
  deriving DecidableEq, Repr

structure Pen (α : Type) where
  style : Style α
  curve : CurveKind

namespace Pen

variable {α : Type}

/-- The pen for a surface: curves of degree two if it draws them, else of degree three. -/
def forSurface (capabilities : Capabilities) (style : Style α) :
    Except MissingCapability (Pen α) :=
  if capabilities.quadraticCurves || capabilities.cubicCurves then
    if capabilities.text then
      .ok ⟨style, if capabilities.quadraticCurves then .quadratic else .cubic⟩
    else .error .text
  else .error .curves

/-- Curves of degree three have to stand in for those of degree two. -/
def raisesDegree (capabilities : Capabilities) : Bool :=
  !capabilities.quadraticCurves && capabilities.cubicCurves

variable [Scalar α] (pen : Pen α)

/-- The curve from the tail of an arc to its head. -/
def curveCommand (arc : Arc α) : Command α :=
  match pen.curve with
  | .quadratic => .quadraticTo arc.handle arc.head
  | .cubic =>
      .cubicTo (arc.tail + (ofNat 2 / ofNat 3 : α) • (arc.handle - arc.tail))
        (arc.head + (ofNat 2 / ofNat 3 : α) • (arc.handle - arc.head)) arc.head

def lineCommands (edge : Edge α) (arc : Arc α) : List (Command α) :=
  let color := pen.style.strokeColor edge.flags.selected edge.color
  [.beginPath, .setStroke color, .setFill color, .setLineWidth pen.style.lineWidth,
    .moveTo arc.tail, pen.curveCommand arc, .stroke]

/-- The arrowhead of an edge, if it is to have one and its arc gives it a direction. -/
def arrowhead? (edge : Edge α) (arc : Arc α) : Option (Arrowhead α) :=
  if edge.flags.directed then Arrowhead.ofArc? arc pen.style.arrowHalfWidth else none

def arrowCommands (arrow : Arrowhead α) : List (Command α) :=
  [.beginPath, .moveTo arrow.tip, .lineTo arrow.left, .lineTo arrow.right, .closePath, .fill]

def labelCommands (edge : Edge α) (arc : Arc α) : List (Command α) :=
  let direction := ((pen.arrowhead? edge arc).map Arrowhead.direction).getD .zero
  [.setFont pen.style.labelFont, .setAlign .center, .setBaseline .bottom,
    .fillText edge.weight.text
      (arc.labelAnchor pen.style edge.flags.directed direction)]

/-- The commands for an edge along a given arc. -/
def arcCommands (edge : Edge α) (arc : Arc α) : List (Command α) :=
  pen.lineCommands edge arc ++
    ((pen.arrowhead? edge arc).map arrowCommands).getD [] ++
    if edge.flags.weighted then pen.labelCommands edge arc else []

/-- The commands for an edge; without an arc there are none. -/
def commands (edge : Edge α) : List (Command α) :=
  match edge.arc with
  | none => []
  | some arc => pen.arcCommands edge arc

/-- The edge has an arc and is directed, yet has no arrowhead. -/
def skipsArrow (edge : Edge α) : Bool :=
  edge.flags.directed && edge.arc.any fun arc => (pen.arrowhead? edge arc).isNone

end Pen

/-- The commands for the edges of a registry, from the lowest to the topmost. -/
def Registry.commands {α : Type} [Scalar α] (registry : Registry α) (pen : Pen α) :
    List (Command α) :=
  registry.edges.values.flatMap pen.commands

end ArcGraph
