import ArcGraph.Canvas.Painter
import Mathlib.Data.List.Induction

/-!
Closed and open lines.

A stroke hands out a closed line if the path has been closed since it was last
begun. A move throws the points of the path away and leaves it closed, so the
line of the new points may be closed without having been closed itself.
-/

namespace ArcGraph

variable {α : Type}

namespace Command

/-- A new path begins here. -/
def beginsPath : Command α → Bool
  | beginPath => true
  | _ => false

/-- The points of the path are thrown away here. -/
def dropsPoints : Command α → Bool
  | beginPath | moveTo _ => true
  | _ => false

/-- The path has been closed after the last command of a kind, or at all if there was none. -/
def ClosedSince (kind : Command α → Bool) (history : List (Command α)) : Prop :=
  ∃ earlier later, history = earlier ++ closePath :: later ∧ ∀ command ∈ later, kind command = false

/-- The path has been closed and then moved. It has neither been begun since it was closed, nor
closed again since the move. -/
def MovedWhileClosed (history : List (Command α)) : Prop :=
  ∃ earlier between p later, history = earlier ++ closePath :: (between ++ moveTo p :: later) ∧
    (∀ command ∈ between, command.beginsPath = false) ∧
    ∀ command ∈ later, command.beginsPath = false ∧ command ≠ closePath

variable {kind : Command α → Bool} {history : List (Command α)}

theorem not_closedSince_nil : ¬ClosedSince kind [] := by
  rintro ⟨earlier, later, eq, -⟩
  simp at eq

theorem not_movedWhileClosed_nil : ¬MovedWhileClosed ([] : List (Command α)) := by
  rintro ⟨earlier, between, p, later, eq, -⟩
  simp at eq

theorem closedSince_append_singleton (command : Command α) :
    ClosedSince kind (history ++ [command]) ↔
      command = closePath ∨ kind command = false ∧ ClosedSince kind history := by
  constructor
  · rintro ⟨earlier, later, eq, others⟩
    rcases List.eq_nil_or_concat later with rfl | ⟨later, last, rfl⟩
    · obtain ⟨-, same⟩ := List.append_inj' eq rfl
      exact .inl (List.cons.inj same).1
    · rw [List.concat_eq_append, ← List.cons_append, ← List.append_assoc] at eq
      obtain ⟨same, atEnd⟩ := List.append_inj' eq rfl
      obtain rfl : command = last := (List.cons.inj atEnd).1
      exact .inr ⟨others command (by simp), earlier, later, same,
        fun other member => others other (by simp [member])⟩
  · rintro (rfl | ⟨other, earlier, later, rfl, others⟩)
    · exact ⟨history, [], rfl, by simp⟩
    · refine ⟨earlier, later ++ [command], by simp, ?_⟩
      simpa [or_imp, forall_and, other] using others

theorem movedWhileClosed_append_singleton (command : Command α) :
    MovedWhileClosed (history ++ [command]) ↔
      (∃ p, command = moveTo p) ∧ ClosedSince beginsPath history ∨
        (command.beginsPath = false ∧ command ≠ closePath) ∧ MovedWhileClosed history := by
  constructor
  · rintro ⟨earlier, between, p, later, eq, kept, others⟩
    rw [← List.cons_append, ← List.append_assoc] at eq
    rcases List.eq_nil_or_concat later with rfl | ⟨later, last, rfl⟩
    · obtain ⟨eq, same⟩ := List.append_inj' eq rfl
      exact .inl ⟨⟨p, (List.cons.inj same).1⟩, earlier, between, eq, kept⟩
    · rw [List.concat_eq_append, ← List.cons_append, ← List.append_assoc] at eq
      obtain ⟨same, atEnd⟩ := List.append_inj' eq rfl
      obtain rfl : command = last := (List.cons.inj atEnd).1
      exact .inr ⟨others command (by simp), earlier, between, p, later, by simp [same], kept,
        fun other member => others other (by simp [member])⟩
  · rintro (⟨⟨p, rfl⟩, earlier, between, rfl, kept⟩ | ⟨other, earlier, between, p, later, rfl, kept,
      others⟩)
    · exact ⟨earlier, between, p, [], by simp, kept, by simp⟩
    · refine ⟨earlier, between, p, later ++ [command], by simp, kept, ?_⟩
      intro last member
      rcases List.mem_append.mp member with member | member
      · exact others last member
      · rw [List.mem_singleton.mp member]
        exact other

theorem not_closedSince_dropsPoints_iff :
    ClosedSince beginsPath history ∧ ¬ClosedSince dropsPoints history ↔
      MovedWhileClosed history := by
  induction history using List.reverseRecOn with
  | nil => exact iff_of_false (fun both => not_closedSince_nil both.1) not_movedWhileClosed_nil
  | append_singleton history command inductionHypothesis =>
      rw [closedSince_append_singleton, closedSince_append_singleton,
        movedWhileClosed_append_singleton, ← inductionHypothesis]
      cases command with
      | moveTo => simpa [beginsPath, dropsPoints] using fun closed _ => closed
      | _ => simp [beginsPath, dropsPoints]

theorem ClosedSince.beginsPath_of_dropsPoints (closed : ClosedSince dropsPoints history) :
    ClosedSince beginsPath history := by
  obtain ⟨earlier, later, eq, others⟩ := closed
  refine ⟨earlier, later, eq, fun command member => ?_⟩
  have kept := others command member
  cases command <;> first | rfl | cases kept

end Command

namespace Painter

open Command

variable [Scalar α]

/-- Only beginning and closing a path decide whether it is closed. -/
theorem closed_step (painter : Painter α) (command : Command α) :
    (painter.step command).1.closed = true ↔
      command = closePath ∨ command.beginsPath = false ∧ painter.closed = true := by
  cases command <;> simp [step, beginsPath, lineTo, curveTo]

theorem run_append_singleton (painter : Painter α) (history : List (Command α))
    (command : Command α) :
    (painter.run (history ++ [command])).1 = ((painter.run history).1.step command).1 := by
  rw [run_append, run_cons, run_nil]

/-- The invariant that ties the flag of a painter to what it has been told. -/
theorem closed_run (offset : Vec α) (history : List (Command α)) :
    ((fresh offset).run history).1.closed = true ↔ ClosedSince beginsPath history := by
  induction history using List.reverseRecOn with
  | nil => exact iff_of_false (by simp [fresh]) not_closedSince_nil
  | append_singleton history command inductionHypothesis =>
      rw [run_append_singleton, closed_step, closedSince_append_singleton, inductionHypothesis]

theorem exists_strokedShape_eq (painter : Painter α) :
    ∃ width pixel, painter.strokedShape =
      .path painter.path painter.closed .transparent width pixel := by
  rw [strokedShape]
  split
  · exact ⟨_, _, rfl⟩
  · exact ⟨_, _, rfl⟩

end Painter

open Command Painter

/-- A stroke that hands out a shape hands out a line. It is closed just if the path has been closed
since it was begun, which is the same as since its points were last thrown away just if the path has
not been moved while it was closed. -/
theorem closed_of_stroke [Scalar α] (offset : Vec α) (history : List (Command α))
    {shape : Shape α}
    (added : ((fresh offset).run (history ++ [.stroke])).2 =
      ((fresh offset).run history).2 ++ [shape]) :
    ∃ points closed width pixel,
      shape = .path points closed .transparent width pixel ∧ 2 ≤ points.length ∧
      (closed = true ↔ ClosedSince beginsPath history) ∧
      ((closed = true ↔ ClosedSince dropsPoints history) ↔ ¬MovedWhileClosed history) := by
  have flag := closed_run offset history
  rw [run_append, List.append_cancel_left_eq, run_cons, run_nil, List.append_nil] at added
  generalize ((fresh offset).run history).1 = painter at added flag
  obtain ⟨width, pixel, line⟩ := painter.exists_strokedShape_eq
  by_cases short : painter.path.length < 2
  · simp [step, short] at added
  simp only [step, short, if_false, List.cons.injEq, and_true] at added
  refine ⟨painter.path, painter.closed, width, pixel, added ▸ line, Nat.le_of_not_lt short, flag,
    ?_⟩
  rw [flag, ← not_closedSince_dropsPoints_iff]
  have weaker := @ClosedSince.beginsPath_of_dropsPoints α history
  tauto

/-- A triangle is closed, and a line is drawn from elsewhere. -/
def triangleThenLine : List (Command Float32) :=
  [.beginPath, .moveTo ⟨0, 0⟩, .lineTo ⟨10, 0⟩, .lineTo ⟨0, 10⟩, .closePath, .moveTo ⟨50, 0⟩,
    .lineTo ⟨60, 0⟩]

theorem movedWhileClosed_triangleThenLine : MovedWhileClosed triangleThenLine :=
  ⟨[.beginPath, .moveTo ⟨0, 0⟩, .lineTo ⟨10, 0⟩, .lineTo ⟨0, 10⟩], [], ⟨50, 0⟩, [.lineTo ⟨60, 0⟩],
    rfl, by simp, by simp [beginsPath]⟩

theorem run_triangleThenLine_stroke :
    ((fresh .zero).run (triangleThenLine ++ [.stroke])).2 =
      ((fresh .zero).run triangleThenLine).2 ++
        [.path [⟨50, 0⟩, ⟨60, 0⟩] true .transparent 1 .black] := by
  decide +kernel

theorem closed_of_stroke_after_move :
    ((fresh .zero).run (triangleThenLine ++ [.stroke])).2 =
        ((fresh .zero).run triangleThenLine).2 ++
          [.path [⟨50, 0⟩, ⟨60, 0⟩] true .transparent 1 .black] ∧
      ClosedSince beginsPath triangleThenLine ∧ ¬ClosedSince dropsPoints triangleThenLine := by
  have drawn := run_triangleThenLine_stroke
  obtain ⟨points, closed, width, pixel, eq, -, begun, dropped⟩ := closed_of_stroke .zero _ drawn
  obtain ⟨rfl, rfl, -, rfl, rfl⟩ := Shape.path.inj eq
  refine ⟨drawn, begun.mp rfl, fun since => ?_⟩
  exact dropped.mp (iff_of_true rfl since) movedWhileClosed_triangleThenLine

/-- A line may be closed although the path has not been closed since it was moved. -/
theorem closed_without_closing_after_move :
    ¬∀ (history : List (Command Float32)) (points : List (Vec Float32)) (closed : Bool)
      (width : Float32) (pixel : Pixel),
      ((fresh .zero).run (history ++ [.stroke])).2 =
          ((fresh .zero).run history).2 ++ [.path points closed .transparent width pixel] →
        (closed = true ↔ ClosedSince dropsPoints history) := by
  intro law
  have closed := law _ _ _ _ _ run_triangleThenLine_stroke
  obtain ⟨-, opened⟩ := not_closedSince_dropsPoints_iff.mpr movedWhileClosed_triangleThenLine
  exact opened (closed.mp rfl)

end ArcGraph
