import ArcGraph.Datum.Decode

/-!
The settings of a style by name.
-/

namespace ArcGraph.Style

open Datum

/-- The settings in the order in which they are written. -/
inductive Key where
  | curvature
  | arrowHalfWidth
  | labelOffsetFactor
  | labelMidpointScale
  | labelFont
  | lineWidth
  | colorDefault
  | colorSelected
  | pickTolerance
  deriving DecidableEq, Repr

namespace Key

def all : List Key :=
  [curvature, arrowHalfWidth, labelOffsetFactor, labelMidpointScale, labelFont, lineWidth,
    colorDefault, colorSelected, pickTolerance]

theorem mem_all (key : Key) : key ∈ all := by
  cases key <;> simp [all]

theorem nodup_all : all.Nodup := by
  decide

def name : Key → String
  | curvature => "curvature"
  | arrowHalfWidth => "arrow_half_width"
  | labelOffsetFactor => "label_offset_factor"
  | labelMidpointScale => "label_midpoint_scale"
  | labelFont => "label_font"
  | lineWidth => "line_width"
  | colorDefault => "color_default"
  | colorSelected => "color_selected"
  | pickTolerance => "pick_tolerance"

/-- Two settings may be left out and then have their standard values. -/
def isRequired : Key → Bool
  | labelMidpointScale | pickTolerance => false
  | _ => true

end Key

/-- A part is a setting, or it is passed over and its numbers are in range. -/
def admits (part : String × Datum) : Bool :=
  Key.all.any (fun key => key.name = part.1) || part.2.inRange

/-- Reads a style. The parts of its colors past the fourth may be allowed. -/
def ofDatum? (allowsMore : Bool) (datum : Datum) : Option (Style Float32) := do
  let parts ← datum.parts? (Key.all.map Key.name)
  let part (key : Key) : Option Datum := parts.lookup key.name
  if parts.all admits then some {
    curvature := ← required? single? (part .curvature)
    arrowHalfWidth := ← required? single? (part .arrowHalfWidth)
    labelOffsetFactor := ← required? single? (part .labelOffsetFactor)
    labelMidpointScale :=
      ← optional? single? standard.labelMidpointScale (part .labelMidpointScale)
    labelFont := ← required? text? (part .labelFont)
    lineWidth := ← required? single? (part .lineWidth)
    colorDefault := ← required? (Color.ofDatum? allowsMore) (part .colorDefault)
    colorSelected := ← required? (Color.ofDatum? allowsMore) (part .colorSelected)
    pickTolerance := ← optional? single? standard.pickTolerance (part .pickTolerance) }
  else none

end ArcGraph.Style
