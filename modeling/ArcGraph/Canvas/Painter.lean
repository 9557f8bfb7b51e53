import ArcGraph.Canvas.Command
import ArcGraph.Canvas.FontSize
import ArcGraph.Plane.Bezier

/-!
A surface without curves.

The painter keeps a path of points and hands out a shape whenever the path is
stroked or filled. Curves become chains of short lines. All points are moved by
a fixed offset.
-/

namespace ArcGraph

open Scalar

/-- A place at the start, in the middle or at the end. -/
inductive Placement where
  | start
  | middle
  | finish
  deriving DecidableEq, Repr

namespace Placement

def ofAlign : TextAlign → Placement
  | .left => start
  | .center => middle
  | .right => finish

/-- Without a line to write on, letters stand on their lower edge. -/
def ofBaseline : TextBaseline → Placement
  | .top => start
  | .middle => middle
  | .bottom | .alphabetic => finish

end Placement

/-- What a painter hands out. -/
inductive Shape (α : Type) where
  | path (points : List (Vec α)) (closed : Bool) (fill : Pixel) (width : α) (stroke : Pixel)
  | text (text : String) (horizontal vertical : Placement) (p : Vec α) (size : Float32)
      (fill : Pixel)
  deriving DecidableEq

structure Painter (α : Type) where
  offset : Vec α
  path : List (Vec α)
  closed : Bool
  stroke : Pixel
  fill : Pixel
  lineWidth : α
  fontSize : Float32
  align : TextAlign
  baseline : TextBaseline
  deriving DecidableEq

namespace Painter

variable {α : Type} [Scalar α]

/-- How many lines stand for one curve. -/
def segments : Nat := 24

/-- The size of a font whose description gives none. -/
def standardFontSize : Float32 := 14

/-- A painter that has drawn nothing yet. -/
def fresh (offset : Vec α) : Painter α where
  offset := offset
  path := []
  closed := false
  stroke := .black
  fill := .black
  lineWidth := ofNat 1
  fontSize := standardFontSize
  align := default
  baseline := default

variable (painter : Painter α)

/-- The last point of the path, where it was before the offset moved it. -/
def current? : Option (Vec α) :=
  painter.path.getLast?.map (· - painter.offset)

/-- The path with one more point. -/
def lineTo (p : Vec α) : Painter α :=
  { painter with path := painter.path ++ [p + painter.offset] }

/-- The path with the points of a curve, without that at parameter zero. -/
def curveTo (pointAt : α → Vec α) : Painter α :=
  let points := (List.range segments).map fun step =>
    pointAt (ofNat (step + 1) / ofNat segments) + painter.offset
  { painter with path := painter.path ++ points }

/-- A path that is only stroked. A stroke without width or color shows nothing. -/
def strokedShape : Shape α :=
  if painter.lineWidth ≤ ofNat 0 ∨ painter.stroke = .transparent then
    .path painter.path painter.closed .transparent (ofNat 0) .transparent
  else .path painter.path painter.closed .transparent painter.lineWidth painter.stroke

/-- A path that is only filled. -/
def filledShape : Shape α :=
  .path painter.path true painter.fill (ofNat 0) .transparent

/-- A text at its anchor; one without letters shows nothing. -/
def textShapes (text : String) (p : Vec α) : List (Shape α) :=
  if text = "" then []
  else [.text text (.ofAlign painter.align) (.ofBaseline painter.baseline) (p + painter.offset)
    painter.fontSize painter.fill]

/-- Carry out one command, with the shapes that it hands out. -/
def step : Command α → Painter α × List (Shape α)
  | .beginPath => ({ painter with path := [], closed := false }, [])
  | .moveTo p => ({ painter with path := [p + painter.offset] }, [])
  | .lineTo p => (painter.lineTo p, [])
  | .quadraticTo control p =>
      (painter.curveTo (Bezier.quadratic (painter.current?.getD p) control p), [])
  | .cubicTo control₁ control₂ p =>
      (painter.curveTo (Bezier.cubic (painter.current?.getD p) control₁ control₂ p), [])
  | .closePath => ({ painter with closed := true }, [])
  | .stroke => (painter, if painter.path.length < 2 then [] else [painter.strokedShape])
  | .fill => (painter, if painter.path.length < 3 then [] else [painter.filledShape])
  | .setStroke color => ({ painter with stroke := .ofColor color }, [])
  | .setFill color => ({ painter with fill := .ofColor color }, [])
  | .setLineWidth width => ({ painter with lineWidth := width }, [])
  | .setFont font =>
      ({ painter with fontSize := (FontSize.ofDescription? font).getD standardFontSize }, [])
  | .setAlign align => ({ painter with align }, [])
  | .setBaseline baseline => ({ painter with baseline }, [])
  | .fillText text p => (painter, painter.textShapes text p)

/-- Carry out commands in order, with all shapes that they hand out. -/
def run : Painter α → List (Command α) → Painter α × List (Shape α)
  | painter, [] => (painter, [])
  | painter, command :: rest =>
      let (next, shapes) := painter.step command
      let (last, more) := run next rest
      (last, shapes ++ more)

@[simp] theorem run_nil : painter.run [] = (painter, []) := rfl

theorem run_cons (command : Command α) (rest : List (Command α)) :
    painter.run (command :: rest) =
      (((painter.step command).1.run rest).1,
        (painter.step command).2 ++ ((painter.step command).1.run rest).2) := rfl

theorem run_append (first second : List (Command α)) :
    painter.run (first ++ second) =
      (((painter.run first).1.run second).1,
        (painter.run first).2 ++ ((painter.run first).1.run second).2) := by
  induction first generalizing painter with
  | nil => simp
  | cons command rest inductionHypothesis =>
      simp [run_cons, inductionHypothesis]

end Painter

end ArcGraph
