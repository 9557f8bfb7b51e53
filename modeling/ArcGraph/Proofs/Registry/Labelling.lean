import ArcGraph.Drawing
import ArcGraph.Proofs.Plane.Single
import ArcGraph.Proofs.Registry.Mirroring

/-!
Labels of partners.

The label of an edge without a head stands beside the middle of the chord. The
normals of two partners are opposite. So are the sides that their labels are
on, unless the centers of the nodes have the same first coordinate. The two
signs cancel, and only then are the labels on different sides of the chord.
-/

namespace ArcGraph

open Scalar

section Drawing

variable {α : Type} [Scalar α]

/-- The way from the middle of the chord to the label of an edge without a head. -/
def Arc.labelShift (arc : Arc α) (style : Style α) : Vec α :=
  (arc.labelSide * style.labelMidpointScale * style.labelOffsetFactor) • arc.normal

namespace Pen

variable (pen : Pen α) {edge : Edge α} {arc : Arc α}

/-- The texts that are drawn for an edge, each with its anchor. -/
def texts (edge : Edge α) : List (String × Vec α) :=
  (pen.commands edge).filterMap Command.text?

theorem texts_of_undirected (drawn : edge.arc = some arc) (undirected : edge.flags.directed = false)
    (weighted : edge.flags.weighted = true) :
    pen.texts edge = [(edge.weight.text, arc.midpoint + arc.labelShift pen.style)] := by
  have line : (pen.lineCommands edge arc).filterMap Command.text? = [] := by
    cases curve : pen.curve <;>
      simp [lineCommands, curveCommand, curve, Command.text?]
  have headless : pen.arrowhead? edge arc = none := by simp [arrowhead?, undirected]
  simp only [texts, commands, drawn, arcCommands, headless, weighted, if_true,
    List.filterMap_append, line, labelCommands, undirected]
  rfl

end Pen

/-- The two edges are stored and name each other. Both are drawn without a head and with a label. -/
structure Registry.Siblings (registry : Registry α) (edge edge' : Edge α) : Prop where
  stored : registry.get? edge.id = some edge
  stored' : registry.get? edge'.id = some edge'
  apart : edge.id ≠ edge'.id
  named : edge.partner = some edge'.id
  back : edge'.partner = some edge.id
  undirected : edge.flags.directed = false ∧ edge'.flags.directed = false
  weighted : edge.flags.weighted = true ∧ edge'.flags.weighted = true

theorem BuiltWith.exists_between {k : α} {registry : Registry α} (built : BuiltWith k registry)
    {nodes : Nodes α} {edge edge' : Edge α} {arc arc' : Arc α}
    (siblings : (registry.updateAll nodes).2.Siblings edge edge') (drawn : edge.arc = some arc)
    (drawn' : edge'.arc = some arc') :
    ∃ a b, nodes edge.source = some a ∧ nodes edge.target = some b ∧
      Arc.between a b k = .ok arc ∧ Arc.between b a k = .ok arc' := by
  obtain ⟨stored, stored', apart, named, back, -, -⟩ := siblings
  rw [Registry.updateAll, Registry.get?_mapEdges, Option.map_eq_some_iff] at stored stored'
  obtain ⟨old, stored, rfl⟩ := stored
  obtain ⟨old', stored', rfl⟩ := stored'
  have ties := Edge.keepsTies_updated nodes
  rw [ties.partner] at named back
  have opposed := built.opposed
  obtain ⟨source, target⟩ := opposed.against stored stored' apart named back
  obtain ⟨a, b, start, finish, forth⟩ := (old.arc_updated_eq_some_iff nodes arc).mp drawn
  obtain ⟨b', a', start', finish', back⟩ := (old'.arc_updated_eq_some_iff nodes arc').mp drawn'
  rw [← target, finish, Option.some.injEq] at start'
  rw [← source, start, Option.some.injEq] at finish'
  subst start' finish'
  rw [opposed.curved stored] at forth
  rw [opposed.curved stored'] at back
  exact ⟨a, b, by rw [ties.source, start], by rw [ties.target, finish], forth, back⟩

end Drawing

/-! ### Rounded arithmetic -/

namespace Arc

open Binary

variable {a b : Disk Float32} {k : Float32} {arc arc' : Arc Float32}

theorem alike_normal_swap (forth : between a b k = .ok arc) (back : between b a k = .ok arc') :
    arc'.midpoint = arc.midpoint ∧ arc'.normal.Alike (-arc.normal) := by
  obtain ⟨-, along, _, _, direction, -, -, rfl⟩ := between_cases forth
  obtain ⟨-, along', _, _, direction', -, -, rfl⟩ := between_cases back
  constructor
  · have sum : b.center + a.center = a.center + b.center :=
      Vec.ext (add_comm_single _ _) (add_comm_single _ _)
    exact congrArg ((ofNat 1 / ofNat 2 : Float32) • ·) sum
  · exact (Vec.alike_unit?_swap direction direction').perp

theorem labelSide_of_between (forth : between a b k = .ok arc) :
    arc.labelSide = if b.center.x < a.center.x then -ofNat 1 else ofNat 1 := by
  obtain ⟨⟨finite, finite', -⟩, -, -, -, -, -, -, rfl⟩ := between_cases forth
  simp only [Vec.isFinite, Bool.and_eq_true] at finite finite'
  exact if_congr (sub_lt_zero_iff finite'.1 finite.1) rfl rfl

theorem labelSide_swap_of_alike (forth : between a b k = .ok arc)
    (back : between b a k = .ok arc') (same : Alike a.center.x b.center.x) :
    arc'.labelSide = arc.labelSide := by
  rw [labelSide_of_between forth, labelSide_of_between back, if_neg (not_lt_of_alike same),
    if_neg (not_lt_of_alike same.symm)]

theorem labelSide_swap_of_not_alike (forth : between a b k = .ok arc)
    (back : between b a k = .ok arc') (apart : ¬Alike a.center.x b.center.x) :
    arc'.labelSide = -arc.labelSide := by
  obtain ⟨⟨finite, finite', -⟩, -⟩ := between_cases forth
  simp only [Vec.isFinite, Bool.and_eq_true] at finite finite'
  rw [labelSide_of_between forth, labelSide_of_between back]
  rcases lt_or_lt_of_not_alike (isNaN_of_isFinite finite.1) (isNaN_of_isFinite finite'.1) apart
    with rightward | leftward
  · rw [if_pos rightward, if_neg (not_lt_of_lt rightward)]
  · rw [if_pos leftward, if_neg (not_lt_of_lt leftward), neg_neg_single]

variable (style : Style Float32)

theorem alike_labelShift_of_alike (forth : between a b k = .ok arc)
    (back : between b a k = .ok arc') (same : Alike a.center.x b.center.x) :
    (arc'.labelShift style).Alike (-arc.labelShift style) := by
  rw [labelShift, labelShift, labelSide_swap_of_alike forth back same, ← Vec.smul_neg_single]
  exact (alike_normal_swap forth back).2.smul_left _

theorem alike_labelShift_of_not_alike (forth : between a b k = .ok arc)
    (back : between b a k = .ok arc') (apart : ¬Alike a.center.x b.center.x) :
    (arc'.labelShift style).Alike (arc.labelShift style) := by
  have turned := (alike_normal_swap forth back).2.smul_left
    (-(arc.labelSide * style.labelMidpointScale * style.labelOffsetFactor))
  rw [Vec.smul_neg_single, Vec.neg_smul_single _ arc.normal, Vec.neg_neg_single] at turned
  rw [labelShift, labelSide_swap_of_not_alike forth back apart, neg_mul_single, neg_mul_single]
  exact turned

end Arc

/-! ### Exact arithmetic -/

theorem Arc.label_eq_label_backward_iff {a b : Disk ℝ} {k : ℝ} {arc : Arc ℝ}
    (found : Arc.between a b k = .ok arc) {style : Style ℝ}
    (shown : style.labelMidpointScale * style.labelOffsetFactor ≠ 0) :
    arc.midpoint + arc.labelShift style = arc.backward.midpoint + arc.backward.labelShift style ↔
      a.center.x ≠ b.center.x := by
  have unit := Arc.normal_dot_self found
  obtain ⟨start, finish, -, -⟩ := Arc.disks_of_between found
  have side : arc.labelSide = if b.center.x - a.center.x < 0 then -1 else 1 := by
    simp [labelSide, start, finish]
  have side' : arc.backward.labelSide = if a.center.x - b.center.x < 0 then -1 else 1 := by
    simp [labelSide, backward, start, finish]
  rw [labelShift, labelShift, side, side']
  rcases lt_trichotomy a.center.x b.center.x with rightward | level | leftward
  · rw [if_neg (by linarith), if_pos (by linarith)]
    refine iff_of_true ?_ rightward.ne
    simp [Vec.ext_iff, backward]
  · rw [if_neg (by linarith), if_neg (by linarith)]
    refine iff_of_false (fun same => shown ?_) (not_not.mpr level)
    simp only [Vec.ext_iff, backward, Vec.add_x, Vec.add_y, Vec.smul_x, Vec.smul_y, Vec.neg_x,
      Vec.neg_y] at same
    rw [Vec.dot] at unit
    linear_combination same.1 * arc.normal.x / 2 + same.2 * arc.normal.y / 2 -
      style.labelMidpointScale * style.labelOffsetFactor * unit
  · rw [if_pos (by linarith), if_neg (by linarith)]
    refine iff_of_true ?_ leftward.ne'
    simp [Vec.ext_iff, backward]

/-! ### Two nodes connected twice -/

namespace Pair

section

variable {α : Type} [Scalar α]

/-- Two nodes that have been connected twice, without heads. -/
def registry : Registry α :=
  (((Registry.empty (ofNat 60)).perform (.connect 1 2 (.label "a") false)).perform
    (.connect 1 2 (.label "b") false)).perform (.setWeightedAll true)

theorem distinct : (1 : NodeId) ≠ 2 := by
  decide

theorem distinct' : (2 : NodeId) ≠ 1 :=
  distinct.symm

def first : Edge α :=
  { Edge.plain 1 1 2 (.label "a") distinct with
    partner := some 2, flags := { weighted := true }, curvature := ofNat 60 }

def second : Edge α :=
  { Edge.plain 2 2 1 (.label "b") distinct' with
    partner := some 1, flags := { weighted := true }, curvature := ofNat 60 }

theorem builtWith_registry : BuiltWith (ofNat 60) (registry : Registry α) :=
  ((BuiltWith.empty.step _).step _).step _

theorem siblings (nodes : Nodes α) :
    (registry.updateAll nodes).2.Siblings (first.updated nodes) (second.updated nodes) := by
  have after {key : EdgeId} {edge : Edge α} (stored : registry.get? key = some edge) :
      (registry.updateAll nodes).2.get? key = some (edge.updated nodes) := by
    rw [Registry.updateAll, Registry.get?_mapEdges, stored]
    rfl
  have stored : (registry.updateAll nodes).2.get? 1 = some (first.updated nodes) := after rfl
  have stored' : (registry.updateAll nodes).2.get? 2 = some (second.updated nodes) := after rfl
  have apart : (1 : EdgeId) ≠ 2 := by decide
  obtain ⟨arc, eq⟩ := (first : Edge α).updated_eq nodes
  obtain ⟨arc', eq'⟩ := (second : Edge α).updated_eq nodes
  rw [eq] at stored ⊢
  rw [eq'] at stored' ⊢
  exact ⟨stored, stored', apart, rfl, rfl, ⟨rfl, rfl⟩, rfl, rfl⟩

/-- The first node is left of the second. -/
def nodes : Nodes α := fun id =>
  if id = 1 then some ⟨⟨ofNat 0, ofNat 0⟩, ofNat 10⟩
  else if id = 2 then some ⟨⟨ofNat 160, ofNat 0⟩, ofNat 50⟩ else none

def pen : Pen α :=
  ⟨.standard, .quadratic⟩

end

theorem texts_first : (pen.texts (first.updated nodes) : List (String × Vec Float32)) =
    [("a", ⟨80, 45⟩)] := by
  decide +kernel

theorem texts_second : (pen.texts (second.updated nodes) : List (String × Vec Float32)) =
    [("b", ⟨80, 45⟩)] := by
  decide +kernel

/-- The first node is above the second, and so far out that the way to the labels is lost. -/
def farNodes : Nodes Float32 := fun id =>
  if id = 1 then some ⟨⟨10000000000, 0⟩, 10⟩
  else if id = 2 then some ⟨⟨10000000000, 100⟩, 10⟩ else none

example : pen.texts (first.updated farNodes) = [("a", ⟨10000000000, 50⟩)] ∧
    pen.texts (second.updated farNodes) = [("b", ⟨10000000000, 50⟩)] := by
  decide +kernel

end Pair

/-! ### Both labels -/

/-- Where the labels of two partners are drawn. If the centers of the nodes differ in their first
coordinate, both are in the same place. If not, they are on different sides of the chord, and they
differ unless rounding loses the way to them. In exact arithmetic nothing is lost. -/
theorem labels_of_siblings :
    (∀ {k : Float32} {registry : Registry Float32}, BuiltWith k registry →
      ∀ (nodes : Nodes Float32) (pen : Pen Float32) {edge edge' : Edge Float32}
        {arc arc' : Arc Float32}, (registry.updateAll nodes).2.Siblings edge edge' →
        edge.arc = some arc → edge'.arc = some arc' →
      ∃ a b p p', nodes edge.source = some a ∧ nodes edge.target = some b ∧
        pen.texts edge = [(edge.weight.text, p)] ∧ pen.texts edge' = [(edge'.weight.text, p')] ∧
        p = arc.midpoint + arc.labelShift pen.style ∧
        (¬Binary.Alike a.center.x b.center.x → p'.Alike p) ∧
        (Binary.Alike a.center.x b.center.x →
          p'.Alike (arc.midpoint - arc.labelShift pen.style) ∧
          (p'.Alike p → (p.x.isNaN = false → Binary.Alike p.x arc.midpoint.x) ∧
            (p.y.isNaN = false → Binary.Alike p.y arc.midpoint.y)))) ∧
    ∀ {k : ℝ} {registry : Registry ℝ}, BuiltWith k registry →
      ∀ (nodes : Nodes ℝ) (pen : Pen ℝ) {edge edge' : Edge ℝ} {arc arc' : Arc ℝ},
        (registry.updateAll nodes).2.Siblings edge edge' →
        edge.arc = some arc → edge'.arc = some arc' →
        pen.style.labelMidpointScale * pen.style.labelOffsetFactor ≠ 0 →
      ∃ a b p p', nodes edge.source = some a ∧ nodes edge.target = some b ∧
        pen.texts edge = [(edge.weight.text, p)] ∧ pen.texts edge' = [(edge'.weight.text, p')] ∧
        (p ≠ p' ↔ a.center.x = b.center.x) := by
  constructor
  · intro k registry built nodes pen edge edge' arc arc' siblings drawn drawn'
    obtain ⟨a, b, start, finish, forth, back⟩ := built.exists_between siblings drawn drawn'
    have middle := (Arc.alike_normal_swap forth back).1
    refine ⟨a, b, _, _, start, finish,
      pen.texts_of_undirected drawn siblings.undirected.1 siblings.weighted.1,
      pen.texts_of_undirected drawn' siblings.undirected.2 siblings.weighted.2, rfl, ?_, ?_⟩
    · intro apart
      rw [middle]
      exact (Arc.alike_labelShift_of_not_alike pen.style forth back apart).add_left _
    · intro same
      have opposite := (Arc.alike_labelShift_of_alike pen.style forth back same).add_left
        arc.midpoint
      rw [Vec.add_neg_single] at opposite
      rw [middle]
      refine ⟨opposite, fun together => ⟨fun number => ?_, fun number => ?_⟩⟩
      · exact Binary.alike_of_add_alike_sub (together.1.symm.trans opposite.1) number
      · exact Binary.alike_of_add_alike_sub (together.2.symm.trans opposite.2) number
  · intro k registry built nodes pen edge edge' arc arc' siblings drawn drawn' shown
    obtain ⟨a, b, start, finish, forth, back⟩ := built.exists_between siblings drawn drawn'
    obtain rfl : arc.backward = arc' := Except.ok.inj ((Arc.between_swap forth).symm.trans back)
    refine ⟨a, b, _, _, start, finish,
      pen.texts_of_undirected drawn siblings.undirected.1 siblings.weighted.1,
      pen.texts_of_undirected drawn' siblings.undirected.2 siblings.weighted.2, ?_⟩
    rw [Ne, Arc.label_eq_label_backward_iff forth shown, not_not]

theorem labels_of_siblings_pair :
    (∃ p p' : Vec Float32, Pair.pen.texts (Pair.first.updated Pair.nodes) = [("a", p)] ∧
      Pair.pen.texts (Pair.second.updated Pair.nodes) = [("b", p')] ∧ p'.Alike p) ∧
    ∃ p : Vec ℝ, Pair.pen.texts (Pair.first.updated Pair.nodes) = [("a", p)] ∧
      Pair.pen.texts (Pair.second.updated Pair.nodes) = [("b", p)] := by
  constructor
  · obtain ⟨arc, drawn⟩ : ∃ arc, ((Pair.first : Edge Float32).updated Pair.nodes).arc = some arc :=
      Option.isSome_iff_exists.mp (by decide +kernel)
    obtain ⟨arc', drawn'⟩ :
        ∃ arc, ((Pair.second : Edge Float32).updated Pair.nodes).arc = some arc :=
      Option.isSome_iff_exists.mp (by decide +kernel)
    obtain ⟨a, b, p, p', start, finish, text, text', -, together, -⟩ :=
      labels_of_siblings.1 Pair.builtWith_registry Pair.nodes Pair.pen (Pair.siblings _) drawn
        drawn'
    obtain rfl := Option.some.inj start
    obtain rfl := Option.some.inj finish
    exact ⟨p, p', text, text', together (by decide +kernel)⟩
  · have between : Arc.between ⟨⟨ofNat 0, ofNat 0⟩, ofNat 10⟩ ⟨⟨ofNat 160, ofNat 0⟩, ofNat 50⟩
        (ofNat 60) = .ok (Arc.arch 10 50) := by
      simpa using Arc.between_arch (r := 10) (s := 50) (by norm_num) (by norm_num)
    have drawn : ((Pair.first : Edge ℝ).updated Pair.nodes).arc = some (Arc.arch 10 50) :=
      (Edge.arc_updated_eq_some_iff _ _ _).mpr ⟨_, _, rfl, rfl, between⟩
    have drawn' :
        ((Pair.second : Edge ℝ).updated Pair.nodes).arc = some (Arc.arch 10 50).backward :=
      (Edge.arc_updated_eq_some_iff _ _ _).mpr ⟨_, _, rfl, rfl, Arc.between_swap between⟩
    obtain ⟨a, b, p, p', start, finish, text, text', apart⟩ :=
      labels_of_siblings.2 Pair.builtWith_registry Pair.nodes Pair.pen (Pair.siblings _) drawn
        drawn' (by norm_num [Pair.pen, Style.standard])
    obtain rfl := Option.some.inj start
    obtain rfl := Option.some.inj finish
    obtain rfl : p = p' := by
      by_contra different
      have level := apart.mp different
      norm_num at level
    exact ⟨p, text, text'⟩

/-- The labels of two partners may be in one place. -/
theorem labels_coincide_of_siblings :
    ¬∀ {k : Float32} {registry : Registry Float32}, BuiltWith k registry →
      ∀ (nodes : Nodes Float32) (pen : Pen Float32) {edge edge' : Edge Float32}
        {text text' : String} {p p' : Vec Float32},
        (registry.updateAll nodes).2.Siblings edge edge' →
        ¬Binary.Alike (pen.style.labelMidpointScale * pen.style.labelOffsetFactor) 0 →
        pen.texts edge = [(text, p)] → pen.texts edge' = [(text', p')] → p ≠ p' := by
  intro law
  exact law Pair.builtWith_registry Pair.nodes Pair.pen (Pair.siblings _) (by decide +kernel)
    Pair.texts_first Pair.texts_second rfl

end ArcGraph
