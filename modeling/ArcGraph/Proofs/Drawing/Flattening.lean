import ArcGraph.Proofs.Arc.Shape
import ArcGraph.Proofs.Drawing.Painting

/-!
The line that stands for an arc.

A painter knows the points of its path with the offset only, and takes the
offset away again to find out where a curve starts. In exact arithmetic nothing
is lost that way, so the line of an edge runs through points of its arc.
-/

namespace ArcGraph

open Scalar

namespace Painter

section Strokes

variable {α : Type} [Scalar α]

/-- The shapes that the strokes among commands hand out. -/
def strokedShapes : Painter α → List (Command α) → List (Shape α)
  | _, [] => []
  | painter, .stroke :: rest =>
      (painter.step .stroke).2 ++ strokedShapes (painter.step .stroke).1 rest
  | painter, command :: rest => strokedShapes (painter.step command).1 rest

variable (painter : Painter α)

theorem strokedShapes_append (first second : List (Command α)) :
    painter.strokedShapes (first ++ second) =
      painter.strokedShapes first ++ (painter.run first).1.strokedShapes second := by
  induction first generalizing painter with
  | nil => rfl
  | cons command rest inductionHypothesis =>
      rw [List.cons_append, run_cons]
      cases command with
      | stroke => simp only [strokedShapes, inductionHypothesis, List.append_assoc]
      | _ => simp only [strokedShapes, inductionHypothesis]

variable (pen : Pen α) (edge : Edge α) (arc : Arc α)

theorem strokedShapes_curveCommand (rest : List (Command α)) :
    painter.strokedShapes (pen.curveCommand arc :: rest) =
      (painter.step (pen.curveCommand arc)).1.strokedShapes rest := by
  rw [Pen.curveCommand]
  cases pen.curve <;> rfl

theorem strokedShapes_lineCommands :
    painter.strokedShapes (pen.lineCommands edge arc) =
      [pen.lineShape painter.offset edge arc] := by
  have drawn := painter.step_stroke_behindLine pen edge arc
  simp only [Pen.lineCommands, strokedShapes, strokedShapes_curveCommand, step_curveCommand]
  -- As in the run, the curve is read back from the one point of the path.
  change ((painter.behindLine pen edge arc).step .stroke).2 ++ [] = _
  rw [drawn, List.append_nil]

theorem strokedShapes_commands {edge : Edge α} {arc : Arc α} (drawn : edge.arc = some arc) :
    painter.strokedShapes (pen.commands edge) = [pen.lineShape painter.offset edge arc] := by
  rw [pen.commands_of_arc drawn, strokedShapes_append, strokedShapes_append,
    strokedShapes_lineCommands]
  cases pen.arrowhead? edge arc <;> cases edge.flags.weighted <;> rfl

end Strokes

end Painter

/-! ### In exact arithmetic -/

namespace Pen

variable (pen : Pen ℝ) (offset : Vec ℝ) (arc : Arc ℝ)

theorem curveFrom_tail : pen.curveFrom arc arc.tail = arc.pointAt := by
  rw [curveFrom, pen.curve?_curveCommand, Option.getD_some]

theorem linePoints_eq : pen.linePoints offset arc =
    (List.range 25).map fun k : ℕ => arc.pointAt (k / 24) + offset := by
  have start : arc.tail + offset - offset = arc.tail := by
    ext <;> simp
  rw [linePoints, start, curveFrom_tail, List.range_succ_eq_map, List.map_cons, List.map_map,
    Nat.cast_zero, zero_div, arc.pointAt_zero]
  rfl

end Pen

/-- Whatever a painter has been through, the one stroke for an edge hands out an open line of 25
points, the first of the edge's shapes. They are evenly spread over the parameters of the arc, from
its tail to its head, and moved by the offset. -/
theorem stroked_of_commands (painter : Painter ℝ) (pen : Pen ℝ) {edge : Edge ℝ} {arc : Arc ℝ}
    (drawn : edge.arc = some arc) :
    ∃ points width rest,
      painter.strokedShapes (pen.commands edge) =
        [.path points false .transparent width (pen.linePixel edge)] ∧
      (painter.run (pen.commands edge)).2 =
        .path points false .transparent width (pen.linePixel edge) :: rest ∧
      points.length = 25 ∧
      (∀ k : ℕ, k ≤ 24 → points[k]? = some (arc.pointAt (k / 24) + painter.offset)) ∧
      points.head? = some (arc.tail + painter.offset) ∧
      points.getLast? = some (arc.head + painter.offset) := by
  obtain ⟨width, line⟩ := pen.lineShape_eq painter.offset edge arc
  have at? (k : ℕ) (le : k ≤ 24) : (pen.linePoints painter.offset arc)[k]? =
      some (arc.pointAt (k / 24) + painter.offset) := by
    rw [pen.linePoints_eq, List.getElem?_map, List.getElem?_range (by omega), Option.map_some]
  have length := Painter.length_linePoints pen arc painter.offset
  have block := painter.run_commands_of_arc pen drawn
  rw [Pen.block, line] at block
  refine ⟨_, width, _, ?_, block, length, at?, rfl, ?_⟩
  · rw [painter.strokedShapes_commands pen drawn, line]
  · rw [List.getLast?_eq_getElem?, length, at? 24 le_rfl, Nat.cast_ofNat, div_self (by norm_num),
      arc.pointAt_one]

/-- A pen for curves of degree three, and a painter with an offset and a closed path left over. -/
theorem stroked_of_commands_cubic :
    ∃ (painter : Painter ℝ) (pen : Pen ℝ) (edge : Edge ℝ) (points : List (Vec ℝ)) (width : ℝ),
      painter.offset = ⟨7, 5⟩ ∧ painter.closed = true ∧ painter.path.length = 3 ∧
      pen.curve = .cubic ∧ edge.arc = some (Arc.arch 10 50) ∧
      painter.strokedShapes (pen.commands edge) =
        [.path points false .transparent width (pen.linePixel edge)] ∧
      points.length = 25 ∧
      points[12]? = some ((Arc.arch 10 50).apex + ⟨7, 5⟩) := by
  have apart : (1 : NodeId) ≠ 2 := by decide
  let edge : Edge ℝ := { Edge.plain 1 1 2 default apart with arc := some (Arc.arch 10 50) }
  let pen : Pen ℝ := ⟨Style.standard, .cubic⟩
  let painter : Painter ℝ := { Painter.fresh ⟨7, 5⟩ with
    path := [⟨0, 0⟩, ⟨1, 0⟩, ⟨0, 1⟩], closed := true }
  have drawn : edge.arc = some (Arc.arch 10 50) := rfl
  obtain ⟨points, width, -, stroked, -, length, at?, -, -⟩ := stroked_of_commands painter pen drawn
  refine ⟨painter, pen, edge, points, width, rfl, rfl, rfl, rfl, drawn, stroked, length, ?_⟩
  have half : ((12 : ℕ) : ℝ) / 24 = 1 / 2 := by norm_num
  rw [at? 12 (by decide), half, Arc.pointAt_half]
  rfl

end ArcGraph
