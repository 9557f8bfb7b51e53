import ArcGraph.Canvas.Painter
import ArcGraph.Proofs.Plane.Real

/-!
Painters that differ by a shift.

Two painters with the same history, one of them with everything moved by a
fixed vector, remain so whatever they are told. What the one hands out is what
the other hands out, moved by that vector.
-/

namespace ArcGraph

open Scalar

namespace Vec

variable (p offset shift : Vec ℝ)

theorem add_add_shift : p + (offset + shift) = p + offset + shift := by
  ext
  · exact (add_assoc _ _ _).symm
  · exact (add_assoc _ _ _).symm

theorem add_shift_sub : p + shift - (offset + shift) = p - offset := by
  ext
  · exact add_sub_add_right_eq_sub _ _ _
  · exact add_sub_add_right_eq_sub _ _ _

theorem zero_add_shift : zero + shift = shift := by
  simp [Vec.ext_iff, zero]

end Vec

/-- The shape with every point moved, and nothing else changed. -/
def Shape.moved {α : Type} [Scalar α] (shift : Vec α) : Shape α → Shape α
  | .path points closed fill width stroke =>
      .path (points.map (· + shift)) closed fill width stroke
  | .text letters horizontal vertical p size fill =>
      .text letters horizontal vertical (p + shift) size fill

namespace Painter

/-- The painter with its path and its offset moved. -/
def moved {α : Type} [Scalar α] (painter : Painter α) (shift : Vec α) : Painter α :=
  { painter with
    offset := painter.offset + shift
    path := painter.path.map (· + shift) }

variable (painter : Painter ℝ) (shift : Vec ℝ)

/-- Where a curve starts does not show the shift, since it is taken away with the offset. -/
theorem current?_moved : (painter.moved shift).current? = painter.current? := by
  simp only [current?, moved, List.getLast?_map, Option.map_map]
  refine congrArg (painter.path.getLast?.map ·) (funext fun p => ?_)
  exact Vec.add_shift_sub p painter.offset shift

theorem lineTo_moved (p : Vec ℝ) :
    (painter.moved shift).lineTo p = (painter.lineTo p).moved shift := by
  simp [lineTo, moved, Vec.add_add_shift]

theorem curveTo_moved (pointAt : ℝ → Vec ℝ) :
    (painter.moved shift).curveTo pointAt = (painter.curveTo pointAt).moved shift := by
  simp [curveTo, moved, Vec.add_add_shift]

theorem strokedShape_moved :
    (painter.moved shift).strokedShape = painter.strokedShape.moved shift := by
  rw [strokedShape, strokedShape, apply_ite (Shape.moved shift)]
  rfl

theorem textShapes_moved (text : String) (p : Vec ℝ) :
    (painter.moved shift).textShapes text p =
      (painter.textShapes text p).map (Shape.moved shift) := by
  rw [textShapes, textShapes, apply_ite (List.map (Shape.moved shift))]
  simp only [moved, Vec.add_add_shift]
  rfl

/-- One command keeps the shift between two painters. -/
theorem step_moved (command : Command ℝ) :
    (painter.moved shift).step command =
      ((painter.step command).1.moved shift, (painter.step command).2.map (Shape.moved shift)) := by
  have count : (painter.moved shift).path.length = painter.path.length := List.length_map _
  cases command with
  | moveTo p => simp [step, moved, Vec.add_add_shift]
  | lineTo p => simp only [step, lineTo_moved, List.map_nil]
  | quadraticTo control p => simp only [step, current?_moved, curveTo_moved, List.map_nil]
  | cubicTo control₁ control₂ p => simp only [step, current?_moved, curveTo_moved, List.map_nil]
  | stroke =>
      simp only [step, count, strokedShape_moved]
      split <;> rfl
  | fill =>
      simp only [step, count]
      split <;> rfl
  | fillText text p => simp only [step, textShapes_moved]
  | _ => rfl

theorem run_moved (commands : List (Command ℝ)) :
    (painter.moved shift).run commands =
      ((painter.run commands).1.moved shift, (painter.run commands).2.map (Shape.moved shift)) := by
  induction commands generalizing painter with
  | nil => rfl
  | cons command rest inductionHypothesis =>
      rw [run_cons, run_cons, step_moved, inductionHypothesis, List.map_append]

theorem moved_fresh : (fresh .zero).moved shift = fresh shift := by
  simp [fresh, moved, Vec.zero_add_shift]

end Painter

/-- A painter with an offset does what a painter without one does, with its path and its shapes
moved by the offset. Kinds, order, colors, widths, sizes and anchors of the shapes are the same. -/
theorem run_fresh_eq_moved (offset : Vec ℝ) (commands : List (Command ℝ)) :
    ((Painter.fresh offset).run commands).2 =
        ((Painter.fresh .zero).run commands).2.map (Shape.moved offset) ∧
      ((Painter.fresh offset).run commands).1 =
        ((Painter.fresh .zero).run commands).1.moved offset := by
  rw [← Painter.moved_fresh, Painter.run_moved]
  exact ⟨rfl, rfl⟩

end ArcGraph
