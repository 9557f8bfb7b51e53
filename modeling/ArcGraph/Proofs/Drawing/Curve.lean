import ArcGraph.Drawing
import ArcGraph.Proofs.Arc.Hit

/-!
The curves that the commands for edges draw.

A curve command names its control points and its end, and starts where the path
has been moved to. Read with that start, the commands for an edge draw its arc,
and the two kinds of command draw the same curve.
-/

namespace ArcGraph

open Scalar

variable {α : Type}

namespace Command

def isCurve : Command α → Bool
  | quadraticTo _ _ | cubicTo _ _ _ => true
  | _ => false

/-- The point that the path has been moved to, after one more command. -/
def startAfter (start : Option (Vec α)) : Command α → Option (Vec α)
  | beginPath => none
  | moveTo p => some p
  | _ => start

/-- The curve that a command draws from a point. -/
def curve? [Scalar α] (start : Vec α) : Command α → Option (α → Vec α)
  | quadraticTo control p => some (Bezier.quadratic start control p)
  | cubicTo control₁ control₂ p => some (Bezier.cubic start control₁ control₂ p)
  | _ => none

theorem curve?_of_not_isCurve [Scalar α] {command : Command α} (other : command.isCurve = false)
    (start : Vec α) : command.curve? start = none := by
  cases command <;> first | rfl | cases other

/-- The curves that commands draw, in order. A path that was never moved to a point draws none. -/
def curves [Scalar α] : Option (Vec α) → List (Command α) → List (α → Vec α)
  | _, [] => []
  | start, command :: rest =>
      (start.bind command.curve?).toList ++ curves (command.startAfter start) rest

section Curves

variable [Scalar α] (start : Option (Vec α))

theorem curves_append (first second : List (Command α)) :
    curves start (first ++ second) =
      curves start first ++ curves (first.foldl startAfter start) second := by
  induction first generalizing start with
  | nil => rfl
  | cons command rest inductionHypothesis =>
      simp only [List.cons_append, curves, inductionHypothesis, List.append_assoc, List.foldl_cons]

theorem curves_cons_of_not_isCurve {command : Command α} (other : command.isCurve = false)
    (rest : List (Command α)) :
    curves start (command :: rest) = curves (command.startAfter start) rest := by
  rw [curves]
  cases start <;> simp [curve?_of_not_isCurve other]

theorem curves_of_not_isCurve {commands : List (Command α)}
    (others : ∀ command ∈ commands, command.isCurve = false) : curves start commands = [] := by
  induction commands generalizing start with
  | nil => rfl
  | cons command rest inductionHypothesis =>
      rw [curves_cons_of_not_isCurve start (others command (by simp))]
      exact inductionHypothesis _ fun other member => others other (by simp [member])

end Curves

end Command

/-- The surface declares that it draws the command. -/
def Capabilities.declares (capabilities : Capabilities) : Command α → Bool
  | .quadraticTo _ _ => capabilities.quadraticCurves
  | .cubicTo _ _ _ => capabilities.cubicCurves
  | .setFont _ | .setAlign _ | .setBaseline _ | .fillText _ _ => capabilities.text
  | _ => true

namespace Pen

/-- The kind of curve that the pen draws is declared, and so is text. -/
structure Suits (pen : Pen α) (capabilities : Capabilities) : Prop where
  curve : match pen.curve with
    | .quadratic => capabilities.quadraticCurves = true
    | .cubic => capabilities.cubicCurves = true
  text : capabilities.text = true

theorem suits_of_forSurface {capabilities : Capabilities} {style : Style α} {pen : Pen α}
    (chosen : forSurface capabilities style = .ok pen) :
    pen.Suits capabilities ∧ pen.style = style := by
  obtain ⟨quadratic, cubic, text⟩ := capabilities
  cases quadratic <;> cases cubic <;> cases text <;> cases chosen <;> exact ⟨⟨rfl, rfl⟩, rfl⟩

variable [Scalar α] (pen : Pen α)

theorem commands_of_arc {edge : Edge α} {arc : Arc α} (drawn : edge.arc = some arc) :
    pen.commands edge = pen.lineCommands edge arc ++
      (((pen.arrowhead? edge arc).map arrowCommands).getD [] ++
        if edge.flags.weighted then pen.labelCommands edge arc else []) := by
  simp [commands, drawn, arcCommands]

theorem commands_of_no_arc {edge : Edge α} (hidden : edge.arc = none) : pen.commands edge = [] := by
  simp [commands, hidden]

theorem isCurve_curveCommand (arc : Arc α) : (pen.curveCommand arc).isCurve = true := by
  rw [curveCommand]
  cases pen.curve <;> rfl

/-- Behind the line of an edge no command draws a curve. -/
theorem not_isCurve_of_mem (edge : Edge α) (arc : Arc α) {command : Command α}
    (member : command ∈ ((pen.arrowhead? edge arc).map arrowCommands).getD [] ++
      if edge.flags.weighted then pen.labelCommands edge arc else []) :
    command.isCurve = false := by
  rw [List.mem_append] at member
  rcases member with arrow | label
  · cases found : pen.arrowhead? edge arc with
    | none => simp [found] at arrow
    | some head =>
        simp only [found, Option.map_some, Option.getD_some, arrowCommands, List.mem_cons,
          List.not_mem_nil, or_false] at arrow
        rcases arrow with rfl | rfl | rfl | rfl | rfl | rfl <;> rfl
  · split at label
    · simp only [labelCommands, List.mem_cons, List.not_mem_nil, or_false] at label
      rcases label with rfl | rfl | rfl | rfl <;> rfl
    · cases label

/-- Among the commands for an edge with an arc one draws a curve. -/
theorem filter_isCurve_commands (edge : Edge α) :
    (pen.commands edge).filter Command.isCurve = (edge.arc.map pen.curveCommand).toList := by
  cases drawn : edge.arc with
  | none => simp [pen.commands_of_no_arc drawn]
  | some arc =>
      have line : (pen.lineCommands edge arc).filter Command.isCurve = [pen.curveCommand arc] := by
        have curve := pen.isCurve_curveCommand arc
        rw [lineCommands, List.filter_cons_of_neg, List.filter_cons_of_neg, List.filter_cons_of_neg,
          List.filter_cons_of_neg, List.filter_cons_of_neg, List.filter_cons_of_pos curve]
        all_goals simp [Command.isCurve]
      rw [pen.commands_of_arc drawn, List.filter_append, line, List.filter_eq_nil_iff.mpr]
      · rfl
      · intro command member
        rw [pen.not_isCurve_of_mem edge arc member]
        exact Bool.false_ne_true

variable {pen} {capabilities : Capabilities}

omit [Scalar α] in
theorem Suits.declares_of_not_isCurve (suits : pen.Suits capabilities) {command : Command α}
    (other : command.isCurve = false) : capabilities.declares command = true := by
  cases command <;> first | rfl | exact suits.text | cases other

theorem Suits.declares_curveCommand (suits : pen.Suits capabilities) (arc : Arc α) :
    capabilities.declares (pen.curveCommand arc) = true := by
  have declared := suits.curve
  rw [curveCommand]
  cases kind : pen.curve <;> rw [kind] at declared <;> exact declared

theorem Suits.declares_of_mem (suits : pen.Suits capabilities) {edge : Edge α}
    {command : Command α} (member : command ∈ pen.commands edge) :
    capabilities.declares command = true := by
  cases curve : command.isCurve with
  | false => exact suits.declares_of_not_isCurve curve
  | true =>
      have kept := List.mem_filter.mpr ⟨member, curve⟩
      rw [filter_isCurve_commands, Option.mem_toList, Option.map_eq_some_iff] at kept
      obtain ⟨arc, -, rfl⟩ := kept
      exact suits.declares_curveCommand arc

end Pen

/-! ### The curves in exact arithmetic -/

/-- A curve of degree two as one of degree three. -/
theorem Bezier.cubic_eq_quadratic (p₀ p₁ p₂ : Vec ℝ) :
    cubic p₀ (p₀ + (2 / 3 : ℝ) • (p₁ - p₀)) (p₂ + (2 / 3 : ℝ) • (p₁ - p₂)) p₂ =
      quadratic p₀ p₁ p₂ := by
  funext t
  ext
  · simp only [cubic, quadratic, Vec.add_x, Vec.sub_x, Vec.smul_x, ofNat_real]
    push_cast
    ring
  · simp only [cubic, quadratic, Vec.add_y, Vec.sub_y, Vec.smul_y, ofNat_real]
    push_cast
    ring

namespace Pen

variable (pen : Pen ℝ)

theorem curve?_curveCommand (arc : Arc ℝ) :
    (pen.curveCommand arc).curve? arc.tail = some arc.pointAt := by
  rw [curveCommand]
  cases pen.curve with
  | quadratic => rfl
  | cubic =>
      have raised := Bezier.cubic_eq_quadratic arc.tail arc.handle arc.head
      simp only [Command.curve?, ofNat_real, Nat.cast_ofNat, raised]
      rfl

theorem curves_commands (start : Option (Vec ℝ)) (edge : Edge ℝ) :
    Command.curves start (pen.commands edge) = (edge.arc.map Arc.pointAt).toList := by
  cases drawn : edge.arc with
  | none => simp [pen.commands_of_no_arc drawn, Command.curves]
  | some arc =>
      have line : Command.curves start (pen.lineCommands edge arc) = [arc.pointAt] := by
        rw [lineCommands, Command.curves_cons_of_not_isCurve, Command.curves_cons_of_not_isCurve,
          Command.curves_cons_of_not_isCurve, Command.curves_cons_of_not_isCurve,
          Command.curves_cons_of_not_isCurve, Command.curves, Command.curves_cons_of_not_isCurve]
        · exact congrArg (fun curve? => curve?.toList ++ []) (pen.curve?_curveCommand arc)
        all_goals rfl
      have others (start : Option (Vec ℝ)) := Command.curves_of_not_isCurve start fun _ =>
        pen.not_isCurve_of_mem edge arc
      rw [pen.commands_of_arc drawn, Command.curves_append, line, others]
      rfl

theorem curves_flatMap (start : Option (Vec ℝ)) (edges : List (Edge ℝ)) :
    Command.curves start (edges.flatMap pen.commands) =
      (edges.filterMap Edge.arc).map Arc.pointAt := by
  induction edges generalizing start with
  | nil => rfl
  | cons edge rest inductionHypothesis =>
      rw [List.flatMap_cons, Command.curves_append, curves_commands, inductionHypothesis]
      cases drawn : edge.arc <;> simp [drawn]

end Pen

/-- On a surface that a pen was chosen for, every edge with an arc is drawn by one curve command,
and the surface declares that command like all others. In exact arithmetic the curves are the arcs
of the edges in their order, each from where its path was moved to, with its apex halfway. -/
theorem curves_of_forSurface (capabilities : Capabilities) :
    (∀ (α : Type) [Scalar α] (style : Style α) (pen : Pen α) (registry : Registry α),
      Pen.forSurface capabilities style = .ok pen →
        (∀ edge ∈ registry.edges.values, (pen.commands edge).filter Command.isCurve =
          (edge.arc.map pen.curveCommand).toList) ∧
        ∀ command ∈ registry.commands pen, capabilities.declares command = true) ∧
    ∀ (style : Style ℝ) (pen : Pen ℝ) (registry : Registry ℝ),
      Pen.forSurface capabilities style = .ok pen →
        Command.curves none (registry.commands pen) =
            (registry.edges.values.filterMap Edge.arc).map Arc.pointAt ∧
          ∀ arc ∈ registry.edges.values.filterMap Edge.arc, arc.pointAt (1 / 2) = arc.apex := by
  constructor
  · intro α _ style pen registry chosen
    obtain ⟨suits, -⟩ := Pen.suits_of_forSurface chosen
    refine ⟨fun edge _ => pen.filter_isCurve_commands edge, ?_⟩
    intro command member
    obtain ⟨edge, -, drawn⟩ := List.mem_flatMap.mp member
    exact suits.declares_of_mem drawn
  · intro style pen registry chosen
    exact ⟨pen.curves_flatMap none _, fun arc _ => arc.pointAt_half⟩

/-- A pen with curves of degree three, and one edge between disks of different sizes. -/
theorem curves_of_forSurface_cubic :
    ∃ (pen : Pen ℝ) (registry : Registry ℝ),
      Pen.forSurface ⟨false, true, true⟩ Style.standard = .ok pen ∧ pen.curve = .cubic ∧
      (∀ command ∈ registry.commands pen,
        Capabilities.declares ⟨false, true, true⟩ command = true) ∧
      Command.curves none (registry.commands pen) = [(Arc.arch 10 50).pointAt] ∧
      (Arc.arch 10 50).pointAt (1 / 2) = (Arc.arch 10 50).apex := by
  have apart : (1 : NodeId) ≠ 2 := by decide
  let edge : Edge ℝ := { Edge.plain 1 1 2 default apart with arc := some (Arc.arch 10 50) }
  let registry : Registry ℝ := { Registry.empty 60 with edges := Table.empty.insert 1 edge }
  let pen : Pen ℝ := ⟨Style.standard, .cubic⟩
  have chosen : Pen.forSurface ⟨false, true, true⟩ Style.standard = .ok pen := rfl
  have arcs : registry.edges.values.filterMap Edge.arc = [Arc.arch 10 50] := rfl
  obtain ⟨declared, drawn⟩ := curves_of_forSurface ⟨false, true, true⟩
  obtain ⟨-, declared⟩ := declared ℝ Style.standard pen registry chosen
  obtain ⟨curves, halfway⟩ := drawn Style.standard pen registry chosen
  rw [arcs] at curves halfway
  exact ⟨pen, registry, chosen, rfl, declared, curves, halfway _ (by simp)⟩

end ArcGraph
