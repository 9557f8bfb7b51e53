import ArcGraph.Canvas.Painter
import ArcGraph.Proofs.Drawing.Curve
import ArcGraph.Proofs.Registry.Run

/-!
The shapes that a painter hands out for edges.

The commands for an edge set whatever its shapes depend on, apart from the
offset. So each edge has its own block of shapes, and what was drawn before does
not matter.
-/

namespace ArcGraph

open Scalar

variable {α : Type} [Scalar α]

namespace Pen

variable (pen : Pen α)

/-- The pixel in which all of an edge is drawn. -/
def pixel (edge : Edge α) : Pixel :=
  .ofColor (pen.style.strokeColor edge.flags.selected edge.color)

/-- The curve of an arc when it starts at a given point. -/
def curveFrom (arc : Arc α) (start : Vec α) : α → Vec α :=
  ((pen.curveCommand arc).curve? start).getD fun _ => start

/-- The points that stand for an arc. The start of the curve is read back from the path. -/
def linePoints (offset : Vec α) (arc : Arc α) : List (Vec α) :=
  (arc.tail + offset) :: (List.range Painter.segments).map fun step =>
    pen.curveFrom arc (arc.tail + offset - offset) (ofNat (step + 1) / ofNat Painter.segments) +
      offset

def lineShape (offset : Vec α) (edge : Edge α) (arc : Arc α) : Shape α :=
  if pen.style.lineWidth ≤ ofNat 0 ∨ pen.pixel edge = .transparent then
    .path (pen.linePoints offset arc) false .transparent (ofNat 0) .transparent
  else .path (pen.linePoints offset arc) false .transparent pen.style.lineWidth (pen.pixel edge)

def arrowShape (offset : Vec α) (edge : Edge α) (arrow : Arrowhead α) : Shape α :=
  .path [arrow.tip + offset, arrow.left + offset, arrow.right + offset] true (pen.pixel edge)
    (ofNat 0) .transparent

def labelShapes (offset : Vec α) (edge : Edge α) (arc : Arc α) : List (Shape α) :=
  if edge.flags.weighted ∧ edge.weight.text ≠ "" then
    let direction := ((pen.arrowhead? edge arc).map Arrowhead.direction).getD .zero
    [.text edge.weight.text .middle .finish
      (arc.labelAnchor pen.style edge.flags.directed direction + offset)
      ((FontSize.ofDescription? pen.style.labelFont).getD Painter.standardFontSize)
      (pen.pixel edge)]
  else []

/-- The shapes of an edge along an arc. -/
def block (offset : Vec α) (edge : Edge α) (arc : Arc α) : List (Shape α) :=
  pen.lineShape offset edge arc ::
    (((pen.arrowhead? edge arc).map (pen.arrowShape offset edge)).toList ++
      pen.labelShapes offset edge arc)

end Pen

namespace Painter

variable (painter : Painter α) (pen : Pen α) (edge : Edge α) (arc : Arc α)

theorem step_curveCommand :
    painter.step (pen.curveCommand arc) =
      (painter.curveTo (pen.curveFrom arc (painter.current?.getD arc.head)), []) := by
  rw [Pen.curveFrom, Pen.curveCommand]
  cases pen.curve <;> rfl

/-- The painter behind the line of an edge. -/
def behindLine : Painter α :=
  { painter with
    path := pen.linePoints painter.offset arc
    closed := false
    stroke := pen.pixel edge
    fill := pen.pixel edge
    lineWidth := pen.style.lineWidth }

theorem length_linePoints (offset : Vec α) : (pen.linePoints offset arc).length = 25 := by
  simp [Pen.linePoints, segments]

theorem step_stroke_behindLine :
    (painter.behindLine pen edge arc).step .stroke =
      (painter.behindLine pen edge arc, [pen.lineShape painter.offset edge arc]) := by
  have long : ¬(painter.behindLine pen edge arc).path.length < 2 := by
    rw [behindLine, length_linePoints]
    decide
  simp only [step, if_neg long]
  rfl

theorem run_lineCommands :
    painter.run (pen.lineCommands edge arc) =
      (painter.behindLine pen edge arc, [pen.lineShape painter.offset edge arc]) := by
  have drawn := painter.step_stroke_behindLine pen edge arc
  rw [Pen.lineCommands, run_cons, run_cons, run_cons, run_cons, run_cons, run_cons, run_cons,
    run_nil, step_curveCommand]
  -- The path has its one point, so the curve is read back from there.
  change (((painter.behindLine pen edge arc).step .stroke).1,
    ((painter.behindLine pen edge arc).step .stroke).2 ++ []) = _
  rw [drawn]
  rfl

theorem run_arrowCommands (arrow : Arrowhead α) :
    painter.run (Pen.arrowCommands arrow) =
      ({ painter with
          path := [arrow.tip + painter.offset, arrow.left + painter.offset,
            arrow.right + painter.offset]
          closed := true },
        [.path [arrow.tip + painter.offset, arrow.left + painter.offset,
          arrow.right + painter.offset] true painter.fill (ofNat 0) .transparent]) :=
  rfl

/-- The label of an edge, once the painter fills in the edge's color. -/
theorem run_labelCommands (filled : painter.fill = pen.pixel edge) :
    (painter.run (if edge.flags.weighted then pen.labelCommands edge arc else [])).2 =
      pen.labelShapes painter.offset edge arc := by
  rw [Pen.labelShapes, Pen.labelCommands]
  cases edge.flags.weighted with
  | false => rfl
  | true =>
      by_cases empty : edge.weight.text = ""
      · simp [run_cons, step, textShapes, empty]
      · simp [run_cons, step, textShapes, empty, filled, Placement.ofAlign, Placement.ofBaseline]

/-- The shapes of an edge, whatever the painter has drawn before. -/
theorem run_commands_of_arc {edge : Edge α} {arc : Arc α} (drawn : edge.arc = some arc) :
    (painter.run (pen.commands edge)).2 = pen.block painter.offset edge arc := by
  rw [pen.commands_of_arc drawn, run_append, run_lineCommands, run_append, Pen.block]
  cases pen.arrowhead? edge arc with
  | none =>
      have labels := (painter.behindLine pen edge arc).run_labelCommands pen edge arc rfl
      exact congrArg (_ :: ·) labels
  | some arrow =>
      rw [Option.map_some, Option.getD_some, run_arrowCommands, run_labelCommands]
      · rfl
      · rfl

theorem run_commands_of_no_arc {edge : Edge α} (hidden : edge.arc = none) :
    painter.run (pen.commands edge) = (painter, []) := by
  rw [pen.commands_of_no_arc hidden, run_nil]

omit edge arc pen in
theorem offset_step (command : Command α) : (painter.step command).1.offset = painter.offset := by
  cases command <;> rfl

omit edge arc pen in
theorem offset_run (commands : List (Command α)) :
    (painter.run commands).1.offset = painter.offset := by
  induction commands generalizing painter with
  | nil => rfl
  | cons command rest inductionHypothesis =>
      rw [run_cons, inductionHypothesis, offset_step]

theorem run_flatMap (edges : List (Edge α)) :
    (painter.run (edges.flatMap pen.commands)).2 =
      (edges.filter fun edge => edge.arc.isSome).flatMap fun edge =>
        ((fresh painter.offset).run (pen.commands edge)).2 := by
  induction edges generalizing painter with
  | nil => rfl
  | cons edge rest inductionHypothesis =>
      rw [List.flatMap_cons, run_append, inductionHypothesis, offset_run]
      cases drawn : edge.arc with
      | none => simp [run_commands_of_no_arc, drawn]
      | some arc => simp [run_commands_of_arc, drawn, fresh]

end Painter

/-- The shapes of one edge: an open line of 25 points, perhaps a triangle on top of it, and perhaps
a text on top of that. The line may be in another color than the rest. -/
inductive IsBlock (stroke color : Pixel) : List (Shape α) → Prop where
  | intro {points : List (Vec α)} {width : α} {triangle text : List (Shape α)} :
      points.length = 25 →
      (triangle = [] ∨ ∃ a b c,
        triangle = [.path [a, b, c] true color (ofNat 0) .transparent]) →
      (text = [] ∨ ∃ content p size,
        text = [.text content .middle .finish p size color]) →
      IsBlock stroke color (.path points false .transparent width stroke :: (triangle ++ text))

theorem IsBlock.stroke_eq {stroke stroke' color : Pixel} {points : List (Vec α)} {width : α}
    {rest : List (Shape α)}
    (isBlock : IsBlock stroke color (.path points false .transparent width stroke' :: rest)) :
    stroke' = stroke := by
  cases isBlock
  rfl

namespace Pen

variable (pen : Pen α) (offset : Vec α) (edge : Edge α) (arc : Arc α)

/-- The color of the line of an edge. A line without width is without color. -/
def linePixel : Pixel :=
  if pen.style.lineWidth ≤ ofNat 0 then .transparent else pen.pixel edge

theorem lineShape_eq : ∃ width, pen.lineShape offset edge arc =
    .path (pen.linePoints offset arc) false .transparent width (pen.linePixel edge) := by
  rw [lineShape, linePixel]
  by_cases thin : pen.style.lineWidth ≤ ofNat 0
  · exact ⟨ofNat 0, by simp [thin]⟩
  · by_cases clear : pen.pixel edge = .transparent
    · exact ⟨ofNat 0, by simp [thin, clear]⟩
    · exact ⟨pen.style.lineWidth, by simp [thin, clear]⟩

theorem isBlock_block :
    IsBlock (pen.linePixel edge) (pen.pixel edge) (pen.block offset edge arc) := by
  obtain ⟨width, line⟩ := pen.lineShape_eq offset edge arc
  rw [block, line]
  refine .intro (Painter.length_linePoints pen arc offset) ?_ ?_
  · cases pen.arrowhead? edge arc with
    | none => exact .inl rfl
    | some arrow => exact .inr ⟨_, _, _, rfl⟩
  · rw [labelShapes]
    split
    · exact .inr ⟨_, _, _, rfl⟩
    · exact .inl rfl

end Pen

/-- Whatever a painter has been through, the shapes that it hands out for the edges of a registry
are those of each edge with an arc by itself, in order; and these are a line, an arrowhead and a
label in the edge's color, only that a line without width is without color. -/
theorem shapes_of_commands (painter : Painter α) (pen : Pen α) (registry : Registry α) :
    (painter.run (registry.commands pen)).2 =
      ((registry.edges.values.filter fun edge => edge.arc.isSome).flatMap fun edge =>
        ((Painter.fresh painter.offset).run (pen.commands edge)).2) ∧
    ∀ edge ∈ registry.edges.values, edge.arc.isSome = true →
      IsBlock
        (if pen.style.lineWidth ≤ ofNat 0 then .transparent
          else .ofColor (pen.style.strokeColor edge.flags.selected edge.color))
        (.ofColor (pen.style.strokeColor edge.flags.selected edge.color))
        ((Painter.fresh painter.offset).run (pen.commands edge)).2 := by
  refine ⟨painter.run_flatMap pen _, ?_⟩
  intro edge _ visible
  obtain ⟨arc, drawn⟩ := Option.isSome_iff_exists.mp visible
  rw [Painter.run_commands_of_arc _ pen drawn]
  exact pen.isBlock_block painter.offset edge arc

/-- One edge with an arrowhead and a label, between two disks. -/
def labelledPair : Registry Float32 :=
  let nodes : Nodes Float32 := fun id =>
    if id = 1 then some ⟨⟨0, 0⟩, 10⟩ else if id = 2 then some ⟨⟨160, 0⟩, 50⟩ else none
  (((Registry.empty 60).perform (.connect 1 2 (.label "a") true)).perform
    (.setWeightedAll true)).perform (.updateAll nodes)

theorem labelledPair_visible : ∃ edge, labelledPair.edges.values = [edge] ∧
    edge.arc.isSome = true ∧ edge.flags = ⟨true, true, false⟩ ∧ edge.color = .black :=
  ⟨_, rfl, by decide +kernel, rfl, rfl⟩

/-- A painter with a closed path left over, which has no stroke color. -/
theorem shapes_of_commands_left_over :
    ∃ (painter : Painter Float32) (edge : Edge Float32), painter.path.length = 3 ∧
      painter.closed = true ∧ painter.stroke = .transparent ∧
      edge ∈ labelledPair.edges.values ∧ edge.arc.isSome = true ∧
      IsBlock .black .black ((Painter.fresh painter.offset).run
        (Pen.commands ⟨.standard, .quadratic⟩ edge)).2 ∧
      (painter.run (labelledPair.commands ⟨.standard, .quadratic⟩)).2 =
        ((Painter.fresh painter.offset).run (Pen.commands ⟨.standard, .quadratic⟩ edge)).2 := by
  obtain ⟨edge, only, visible, flags, color⟩ := labelledPair_visible
  let painter : Painter Float32 := { Painter.fresh ⟨7, 5⟩ with
    path := [⟨0, 0⟩, ⟨1, 0⟩, ⟨0, 1⟩], closed := true, stroke := .transparent }
  obtain ⟨shapes, blocks⟩ := shapes_of_commands painter ⟨.standard, .quadratic⟩ labelledPair
  have member : edge ∈ labelledPair.edges.values := by simp [only]
  have isBlock := blocks edge member visible
  have wide : ¬(Style.standard : Style Float32).lineWidth ≤ ofNat 0 := by decide
  have black : Pixel.ofColor (Style.standard.strokeColor (α := Float32) false .black) = .black := by
    decide
  simp only [flags, color, black, wide, if_false] at isBlock
  refine ⟨painter, edge, rfl, rfl, rfl, member, visible, isBlock, ?_⟩
  rw [shapes, only]
  simp [visible]

/-- The line of an edge is not always in the edge's color: without width it has none. -/
theorem line_without_width_without_color :
    ¬∀ (painter : Painter Float32) (pen : Pen Float32) (registry : Registry Float32),
      ∀ edge ∈ registry.edges.values, edge.arc.isSome = true →
        IsBlock (.ofColor (pen.style.strokeColor edge.flags.selected edge.color))
          (.ofColor (pen.style.strokeColor edge.flags.selected edge.color))
          ((Painter.fresh painter.offset).run (pen.commands edge)).2 := by
  intro always
  obtain ⟨edge, only, visible, flags, color⟩ := labelledPair_visible
  obtain ⟨arc, drawn⟩ := Option.isSome_iff_exists.mp visible
  let pen : Pen Float32 := ⟨{ Style.standard with lineWidth := 0 }, .quadratic⟩
  have isBlock := always (.fresh .zero) pen labelledPair edge (by simp [only]) visible
  have thin : pen.style.lineWidth ≤ ofNat 0 := by decide
  obtain ⟨width, line⟩ :=
    pen.lineShape_eq (Painter.fresh (Painter.fresh .zero).offset).offset edge arc
  rw [Painter.run_commands_of_arc _ pen drawn, Pen.block, line, Pen.linePixel, if_pos thin, flags,
    color] at isBlock
  exact absurd isBlock.stroke_eq (by decide)

end ArcGraph
