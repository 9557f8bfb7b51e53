import ArcGraph.Scalar
import ArcGraph.Canvas.Color

/-!
How edges look.
-/

namespace ArcGraph

open Scalar

/-- The settings that edges are drawn and picked with. -/
structure Style (α : Type) where
  curvature : α
  arrowHalfWidth : α
  /-- The distance of a label from its curve, in radii of the disk at the finish. -/
  labelOffsetFactor : α
  /-- A further factor for labels in the middle of the chord. -/
  labelMidpointScale : α
  labelFont : String
  lineWidth : α
  colorDefault : Color
  colorSelected : Color
  pickTolerance : α
  deriving BEq, DecidableEq

namespace Style

variable {α : Type} [Scalar α]

/-- The style of a drawing that says nothing else. -/
def standard : Style α where
  curvature := ofNat 60
  arrowHalfWidth := ofNat 4
  labelOffsetFactor := ofNat 3
  labelMidpointScale := ofNat 15
  labelFont := "15pt Arial"
  lineWidth := ofNat 1
  colorDefault := .black
  colorSelected := ⟨392 / 1000, 588 / 1000, 1, 1⟩
  pickTolerance := ofNat 8

/-- Selected edges share one color, the others have their own. -/
def strokeColor (style : Style α) (selected : Bool) (color : Color) : Color :=
  if selected then style.colorSelected else color

end Style

end ArcGraph
