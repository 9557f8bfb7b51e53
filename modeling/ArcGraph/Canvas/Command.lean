import ArcGraph.Canvas.Color
import ArcGraph.Plane.Vec

/-!
Commands to a drawing surface.

A path is built from its current point, then stroked or filled. Curves and text
are optional: a surface declares which of them it draws.
-/

namespace ArcGraph

/-- Where the anchor of a text lies across the line. -/
inductive TextAlign where
  | left
  | center
  | right
  deriving DecidableEq, Repr

instance : Inhabited TextAlign := ⟨.left⟩

/-- Where the anchor of a text lies between its upper and its lower edge. -/
inductive TextBaseline where
  | top
  | middle
  | bottom
  | alphabetic
  deriving DecidableEq, Repr

instance : Inhabited TextBaseline := ⟨.alphabetic⟩

/-- The optional commands that a surface draws. -/
structure Capabilities where
  quadraticCurves : Bool := true
  cubicCurves : Bool := true
  text : Bool := true
  deriving DecidableEq, Repr

inductive Command (α : Type) where
  | beginPath
  | moveTo (p : Vec α)
  | lineTo (p : Vec α)
  | quadraticTo (control p : Vec α)
  | cubicTo (control₁ control₂ p : Vec α)
  | closePath
  | stroke
  | fill
  | setStroke (color : Color)
  | setFill (color : Color)
  | setLineWidth (width : α)
  | setFont (font : String)
  | setAlign (align : TextAlign)
  | setBaseline (baseline : TextBaseline)
  | fillText (text : String) (p : Vec α)
  deriving DecidableEq

namespace Command

variable {α : Type}

/-- A surface need not draw curves and text. -/
def isOptional : Command α → Bool
  | quadraticTo _ _ | cubicTo _ _ _ | setFont _ | setAlign _ | setBaseline _ | fillText _ _ => true
  | _ => false

def text? : Command α → Option (String × Vec α)
  | fillText text p => some (text, p)
  | _ => none

end Command

/-- A surface that keeps the commands it is given. -/
structure Recording (α : Type) where
  capabilities : Capabilities := {}
  /-- Optional commands are kept as well. -/
  keepsOptional : Bool := true
  commands : List (Command α) := []

namespace Recording

variable {α : Type}

def draw (recording : Recording α) (drawn : List (Command α)) : Recording α :=
  let kept := drawn.filter fun command => recording.keepsOptional || !command.isOptional
  { recording with commands := recording.commands ++ kept }

def clear (recording : Recording α) : Recording α :=
  { recording with commands := [] }

def fills (recording : Recording α) : Nat :=
  recording.commands.countP fun command => command matches .fill

def strokes (recording : Recording α) : Nat :=
  recording.commands.countP fun command => command matches .stroke

/-- The texts that were drawn, each with its anchor. -/
def texts (recording : Recording α) : List (String × Vec α) :=
  recording.commands.filterMap Command.text?

end Recording

end ArcGraph
