import ArcGraph.Proofs.Arc.Hit
import ArcGraph.Proofs.Arc.Mirror
import ArcGraph.Proofs.Registry.Pairing
import ArcGraph.Proofs.Registry.Step

/-!
Partners are mirror images.

Edges that name each other run in opposite directions with one curvature, after
any operations, even past the last id, where the counter starts again and edges
may be displaced. So the arc of the one is the arc of the other on the way back.
-/

namespace ArcGraph

open Scalar

/-- The registries that operations lead to from the empty one, whether or not ids are left. -/
inductive BuiltWith {α : Type} [Scalar α] (k : α) : Registry α → Prop where
  | empty : BuiltWith k (.empty k)
  | step {registry : Registry α} (operation : Operation α) :
      BuiltWith k registry → BuiltWith k (registry.perform operation)

namespace Registry

variable {α : Type}

/-- All edges have the curvature `k`, and those that name each other run in opposite directions. -/
structure Opposed (registry : Registry α) (k : α) : Prop where
  curvature : registry.curvature = k
  own : ∀ {key edge}, registry.get? key = some edge → edge.id = key
  curved : ∀ {key edge}, registry.get? key = some edge → edge.curvature = k
  against : ∀ {key other edge edge'}, registry.get? key = some edge →
    registry.get? other = some edge' → key ≠ other → edge.partner = some other →
    edge'.partner = some key → edge.source = edge'.target ∧ edge.target = edge'.source

theorem opposed_empty (k : α) : (empty k).Opposed k where
  curvature := rfl
  own found := by simp at found
  curved found := by simp at found
  against found := by simp at found

variable {k : α} {registry : Registry α}

theorem Opposed.of_thins (opposed : registry.Opposed k) {later : Registry α}
    (thins : registry.Thins later) : later.Opposed k where
  curvature := thins.curvature.trans opposed.curvature
  own := by
    intro key edge found
    obtain ⟨old, stored, continues⟩ := thins.edge found
    exact continues.id.trans (opposed.own stored)
  curved := by
    intro key edge found
    obtain ⟨old, stored, continues⟩ := thins.edge found
    exact continues.curvature.trans (opposed.curved stored)
  against := by
    intro key other edge edge' found found' apart named back
    obtain ⟨old, stored, continues⟩ := thins.edge found
    obtain ⟨old', stored', continues'⟩ := thins.edge found'
    rw [continues.source, continues.target, continues'.source, continues'.target]
    exact opposed.against stored stored' apart (continues.partner_eq named)
      (continues'.partner_eq back)

variable [Scalar α]

theorem Opposed.establish (opposed : registry.Opposed k) {connection : Connection}
    (against : ∀ {key}, connection.partner = some key → ∃ edge, registry.get? key = some edge ∧
      edge.source = connection.target ∧ edge.target = connection.source)
    (weight : Weight) (directed : Bool) :
    (registry.establish connection weight directed).Opposed k := by
  have new {edge : Edge α}
      (found : (registry.establish connection weight directed).get? registry.nextId = some edge) :
      edge = registry.newEdge connection weight directed := by
    rw [get?_establish, if_pos rfl, Option.some.injEq] at found
    exact found.symm
  have paired {other : EdgeId} {edge edge' : Edge α}
      (found : (registry.establish connection weight directed).get? registry.nextId = some edge)
      (found' : (registry.establish connection weight directed).get? other = some edge')
      (apart : other ≠ registry.nextId) (named : edge.partner = some other) :
      edge.source = edge'.target ∧ edge.target = edge'.source := by
    obtain rfl := new found
    obtain ⟨partner, stored, source, target⟩ := against named
    rcases (establish_cases found').resolve_left fun new => apart new.1 with
      ⟨old, stored', -, rfl⟩ | ⟨-, spared⟩
    · obtain rfl : partner = old := Option.some.inj (stored.symm.trans stored')
      exact ⟨target.symm, source.symm⟩
    · exact absurd named spared
  constructor
  case curvature => exact opposed.curvature
  case own =>
    intro key edge found
    rcases establish_cases found with ⟨rfl, rfl⟩ | ⟨old, stored, -, rfl⟩ | ⟨stored, -⟩
    · rfl
    · exact (opposed.own stored : old.id = key)
    · exact opposed.own stored
  case curved =>
    intro key edge found
    rcases establish_cases found with ⟨rfl, rfl⟩ | ⟨old, stored, -, rfl⟩ | ⟨stored, -⟩
    · exact opposed.curvature
    · exact (opposed.curved stored : old.curvature = k)
    · exact opposed.curved stored
  case against =>
    intro key other edge edge' found found' apart named back
    -- The new edge may stand in the place of an old one, so that its key alone tells it apart.
    by_cases fresh : key = registry.nextId
    · subst fresh
      exact paired found found' apart.symm named
    by_cases fresh' : other = registry.nextId
    · subst fresh'
      obtain ⟨source, target⟩ := paired found' found apart back
      exact ⟨target.symm, source.symm⟩
    rcases (establish_cases found).resolve_left fun new => fresh new.1 with
      ⟨old, -, -, rfl⟩ | ⟨stored, -⟩
    · exact absurd (Option.some.inj named).symm fresh'
    rcases (establish_cases found').resolve_left fun new => fresh' new.1 with
      ⟨old', -, -, rfl⟩ | ⟨stored', -⟩
    · exact absurd (Option.some.inj back).symm fresh
    exact opposed.against stored stored' apart named back

theorem Opposed.perform (opposed : registry.Opposed k) (operation : Operation α) :
    (registry.perform operation).Opposed k := by
  cases connected : registry.connected? operation with
  | none => exact opposed.of_thins (thins_of_not_connected connected)
  | some id =>
      obtain ⟨-, -, source, target, weight, directed, connection, planned, made⟩ :=
        perform_of_connected connected
      rw [made]
      exact opposed.establish (registry.opposed_of_plan opposed.own planned) weight directed

end Registry

theorem BuiltWith.opposed {α : Type} [Scalar α] {k : α} {registry : Registry α}
    (built : BuiltWith k registry) : registry.Opposed k := by
  induction built with
  | empty => exact Registry.opposed_empty k
  | step operation _ inductionHypothesis => exact inductionHypothesis.perform operation

namespace Edge

theorem arc_updated_of_opposed {edge edge' : Edge ℝ} (source : edge.source = edge'.target)
    (target : edge.target = edge'.source) (curvature : edge.curvature = edge'.curvature)
    {nodes : Nodes ℝ} {arc : Arc ℝ} (found : (edge.updated nodes).arc = some arc) :
    (edge'.updated nodes).arc = some arc.backward := by
  obtain ⟨start, finish, start?, finish?, between⟩ :=
    (edge.arc_updated_eq_some_iff nodes arc).mp found
  rw [source] at start?
  rw [target] at finish?
  rw [curvature] at between
  exact (edge'.arc_updated_eq_some_iff nodes arc.backward).mpr
    ⟨finish, start, finish?, start?, Arc.between_swap between⟩

end Edge

/-- After an update either both or neither of two edges that name each other have an arc, and the
one arc is the mirror image of the other in the line through the centers of their nodes, run through
backwards. -/
theorem arc_mirrored_of_partners {k : ℝ} {registry : Registry ℝ} (built : BuiltWith k registry)
    (nodes : Nodes ℝ) {key key' : EdgeId} {edge edge' : Edge ℝ}
    (stored : (registry.updateAll nodes).2.get? key = some edge)
    (stored' : (registry.updateAll nodes).2.get? key' = some edge') (apart : key ≠ key')
    (named : edge.partner = some key') (back : edge'.partner = some key) :
    (edge.arc.isSome ↔ edge'.arc.isSome) ∧
      ∀ arc arc', edge.arc = some arc → edge'.arc = some arc' →
        ∃ a b, nodes edge.source = some a ∧ nodes edge.target = some b ∧
          (∀ t, arc'.pointAt t = (arc.pointAt (1 - t)).mirror a.center b.center) ∧
          arc.side arc.apex = k ∧ arc.side arc'.apex = -k ∧
          arc'.tail = arc.head.mirror a.center b.center ∧
          arc'.head = arc.tail.mirror a.center b.center := by
  have opposed := built.opposed
  rw [Registry.updateAll, Registry.get?_mapEdges, Option.map_eq_some_iff] at stored stored'
  obtain ⟨old, stored, rfl⟩ := stored
  obtain ⟨old', stored', rfl⟩ := stored'
  have ties := Edge.keepsTies_updated nodes
  rw [ties.partner] at named back
  have ⟨source, target⟩ := opposed.against stored stored' apart named back
  have curved := opposed.curved stored
  have curvature : old.curvature = old'.curvature := curved.trans (opposed.curved stored').symm
  constructor
  · rw [Option.isSome_iff_exists, Option.isSome_iff_exists]
    constructor
    · rintro ⟨arc, found⟩
      exact ⟨arc.backward, Edge.arc_updated_of_opposed source target curvature found⟩
    · rintro ⟨arc, found⟩
      exact ⟨arc.backward,
        Edge.arc_updated_of_opposed target.symm source.symm curvature.symm found⟩
  · intro arc arc' found found'
    have back := Edge.arc_updated_of_opposed source target curvature found
    obtain rfl : arc.backward = arc' := Option.some.inj (back.symm.trans found')
    obtain ⟨a, b, start, finish, between⟩ := (old.arc_updated_eq_some_iff nodes arc).mp found
    rw [curved] at between
    refine ⟨a, b, ?_, ?_, ?_, Arc.side_apex between, ?_, ?_, ?_⟩
    · rw [ties.source, start]
    · rw [ties.target, finish]
    · intro t
      rw [arc.pointAt_backward, Arc.mirror_eq between]
    · rw [← Arc.side_apex between]
      exact Arc.side_mirror between arc.apex
    · exact Arc.mirror_eq between arc.head
    · exact Arc.mirror_eq between arc.tail

/-- Two partners between disks of different sizes. -/
theorem arc_mirrored_of_partners_arch :
    ∃ (registry : Registry ℝ) (nodes : Nodes ℝ) (edge edge' : Edge ℝ) (arc' : Arc ℝ),
      BuiltWith 60 registry ∧ (registry.updateAll nodes).2.get? 1 = some edge ∧
      (registry.updateAll nodes).2.get? 2 = some edge' ∧ (1 : EdgeId) ≠ 2 ∧
      edge.partner = some 2 ∧ edge'.partner = some 1 ∧ edge.arc = some (Arc.arch 10 50) ∧
      edge'.arc = some arc' ∧
      (∀ t, arc'.pointAt t = ((Arc.arch 10 50).pointAt (1 - t)).mirror ⟨0, 0⟩ ⟨160, 0⟩) ∧
      (Arc.arch 10 50).side arc'.apex = -60 := by
  let nodes : Nodes ℝ := fun id =>
    if id = 1 then some ⟨⟨0, 0⟩, 10⟩ else if id = 2 then some ⟨⟨160, 0⟩, 50⟩ else none
  have built : BuiltWith (60 : ℝ) _ :=
    (BuiltWith.empty.step (.connect 1 2 default true)).step (.connect 2 1 default true)
  obtain ⟨registry, built, ⟨old, stored, named, source, target, curved⟩, old', stored', back⟩ :
      ∃ registry : Registry ℝ, BuiltWith 60 registry ∧
        (∃ old, registry.get? 1 = some old ∧ old.partner = some 2 ∧ old.source = 1 ∧
          old.target = 2 ∧ old.curvature = 60) ∧
        ∃ old, registry.get? 2 = some old ∧ old.partner = some 1 :=
    ⟨_, built, ⟨_, rfl, rfl, rfl, rfl, rfl⟩, _, rfl, rfl⟩
  have start : nodes old.source = some ⟨⟨0, 0⟩, 10⟩ := by simp [nodes, source]
  have finish : nodes old.target = some ⟨⟨160, 0⟩, 50⟩ := by simp [nodes, target]
  have found : (old.updated nodes).arc = some (Arc.arch 10 50) := by
    rw [old.arc_updated_eq_some_iff nodes]
    refine ⟨_, _, start, finish, ?_⟩
    rw [curved]
    exact Arc.between_arch (by norm_num) (by norm_num)
  have after {key : EdgeId} {edge : Edge ℝ} (stored : registry.get? key = some edge) :
      (registry.updateAll nodes).2.get? key = some (edge.updated nodes) := by
    rw [Registry.updateAll, Registry.get?_mapEdges, stored]
    rfl
  have ties := Edge.keepsTies_updated nodes
  rw [← ties.partner] at named back
  have apart : (1 : EdgeId) ≠ 2 := by decide
  obtain ⟨either, mirrored⟩ :=
    arc_mirrored_of_partners built nodes (after stored) (after stored') apart named back
  obtain ⟨arc', found'⟩ : ∃ arc', (old'.updated nodes).arc = some arc' := by
    rw [← Option.isSome_iff_exists, ← either, found]
    rfl
  obtain ⟨a, b, start', finish', points, -, height, -⟩ := mirrored _ _ found found'
  rw [ties.source, start, Option.some.injEq] at start'
  rw [ties.target, finish, Option.some.injEq] at finish'
  subst start' finish'
  exact ⟨registry, nodes, _, _, arc', built, after stored, after stored', apart, named, back, found,
    found', points, height⟩

end ArcGraph
