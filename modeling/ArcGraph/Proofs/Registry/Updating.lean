import ArcGraph.Proofs.Drawing.Curve
import ArcGraph.Proofs.Registry.Clicking

/-!
Updating the arcs of all edges.

An update gives every edge the arc that its nodes and its curvature call for,
and forgets the arc that it had. Edges are drawn and picked by their arcs, so
afterwards nothing shows of earlier updates, and nothing of edges without an arc.
-/

namespace ArcGraph

variable {α : Type}

namespace Edge

/-- The edges are the same apart from their partners and their arcs. -/
structure Resembles (edge edge' : Edge α) : Prop where
  id : edge.id = edge'.id
  source : edge.source = edge'.source
  target : edge.target = edge'.target
  weight : edge.weight = edge'.weight
  flags : edge.flags = edge'.flags
  color : edge.color = edge'.color
  curvature : edge.curvature = edge'.curvature

variable [Scalar α]

/-- The arc between the nodes of an edge, if both are there and have one. -/
def arcAmong? (edge : Edge α) (nodes : Nodes α) : Option (Arc α) :=
  (nodes edge.source).bind fun start =>
    (nodes edge.target).bind fun finish =>
      (Arc.between start finish edge.curvature).toOption

theorem updated_eq_arcAmong (edge : Edge α) (nodes : Nodes α) :
    edge.updated nodes = { edge with arc := edge.arcAmong? nodes } := by
  unfold updated arcAmong?
  cases nodes edge.source with
  | none => rfl
  | some start => cases nodes edge.target <;> rfl

theorem updated_updated (edge : Edge α) (earlier nodes : Nodes α) :
    (edge.updated earlier).updated nodes = edge.updated nodes := by
  simp only [updated_eq_arcAmong, arcAmong?]

theorem Resembles.withPartner_updated {edge edge' : Edge α} (alike : edge.Resembles edge')
    (nodes : Nodes α) :
    (edge.updated nodes).withPartner none = (edge'.updated nodes).withPartner none := by
  cases edge
  cases edge'
  obtain ⟨rfl, rfl, rfl, rfl, rfl, rfl, rfl⟩ := alike
  rw [updated_eq_arcAmong, updated_eq_arcAmong]
  rfl

theorem isHit_eq_false_of_no_arc {edge : Edge α} (hidden : edge.arc = none) (p : Vec α)
    (distance : α) : edge.isHit p distance = false := by
  rw [isHit, hidden, Option.any_none]

end Edge

namespace Registry

/-- The edges that have an arc, in the order of drawing. -/
def visible (registry : Registry α) : List (Edge α) :=
  registry.edges.values.filter fun edge => edge.arc.isSome

/-- The registries have the same keys in the same order, and under each key edges that are the same
apart from their partners and their arcs. -/
structure Resembles (registry registry' : Registry α) : Prop where
  keys : registry.edges.keys = registry'.edges.keys
  edge : ∀ {key edge edge'}, registry.get? key = some edge → registry'.get? key = some edge' →
    edge.Resembles edge'

theorem Resembles.mapValues_eq {registry registry' : Registry α}
    (alike : registry.Resembles registry') {change : Edge α → Edge α}
    (same : ∀ {edge edge'}, edge.Resembles edge' → change edge = change edge') :
    registry.edges.mapValues change = registry'.edges.mapValues change := by
  apply Table.ext_get?
  case keys => simpa using alike.keys
  intro key
  have present : (registry.get? key = none) ↔ registry'.get? key = none := by
    rw [get?_eq_none_iff, get?_eq_none_iff, alike.keys]
  rw [Table.get?_mapValues, Table.get?_mapValues]
  change (registry.get? key).map change = (registry'.get? key).map change
  cases stored : registry.get? key with
  | none => rw [present.mp stored]
  | some edge =>
      cases stored' : registry'.get? key with
      | none => simp [present.mpr stored'] at stored
      | some edge' => exact congrArg some (same (alike.edge stored stored'))

variable [Scalar α] (registry : Registry α)

/-! ### What is drawn and picked -/

theorem commands_eq_visible (pen : Pen α) :
    registry.commands pen = registry.visible.flatMap pen.commands := by
  rw [commands, visible]
  induction registry.edges.values with
  | nil => rfl
  | cons edge rest inductionHypothesis =>
      rw [List.flatMap_cons, inductionHypothesis]
      cases drawn : edge.arc with
      | none => simp [drawn, pen.commands_of_no_arc drawn]
      | some arc => simp [drawn]

theorem pick?_eq_visible (p : Vec α) (tolerance : α) :
    registry.pick? p tolerance =
      (registry.visible.reverse.find? fun edge => edge.isHit p tolerance).map Edge.id := by
  have hit (edge : Edge α) :
      (edge.arc.isSome && edge.isHit p tolerance) = edge.isHit p tolerance := by
    cases hidden : edge.arc <;> simp [Edge.isHit, hidden]
  rw [visible, ← List.filter_reverse, List.find?_filter]
  simp only [pick?, Bool.decide_and, Bool.decide_eq_true, hit]

/-- Edges without an arc are neither drawn nor picked. The id of such an edge can be picked only for
another edge that carries it too. -/
structure ShowsVisible : Prop where
  drawn : ∀ pen : Pen α, registry.commands pen = registry.visible.flatMap pen.commands
  picked : ∀ p tolerance, registry.pick? p tolerance =
    (registry.visible.reverse.find? fun edge => edge.isHit p tolerance).map Edge.id
  undrawn : ∀ (pen : Pen α) (edge : Edge α), edge.arc = none → pen.commands edge = []
  unpicked : ∀ {key edge}, registry.get? key = some edge → edge.arc = none → ∀ p tolerance,
    registry.pick? p tolerance = some edge.id → ∃ key' edge', key' ≠ key ∧
      registry.get? key' = some edge' ∧ edge'.arc.isSome = true ∧ edge'.id = edge.id

theorem showsVisible : registry.ShowsVisible where
  drawn := registry.commands_eq_visible
  picked := registry.pick?_eq_visible
  undrawn pen _ hidden := pen.commands_of_no_arc hidden
  unpicked := by
    intro key edge stored hidden p tolerance picked
    obtain ⟨key', edge', stored', hit, same⟩ := exists_of_pick? picked
    have shown : edge'.arc.isSome = true := by
      rw [Option.isSome_iff_ne_none]
      intro hidden'
      rw [Edge.isHit_eq_false_of_no_arc hidden'] at hit
      cases hit
    refine ⟨key', edge', ?_, stored', shown, same⟩
    rintro rfl
    obtain rfl : edge = edge' := Option.some.inj (stored.symm.trans stored')
    simp [hidden] at shown

/-! ### The update -/

/-- Every edge has the arc that the nodes of the moment give it, and nothing else is changed. The
answer counts the edges that could be given an arc, which are those that have one, and another
update with the same nodes finds nothing to do. -/
structure IsUpdate (nodes : Nodes α) (outcome : ℕ × Registry α) : Prop where
  keys : outcome.2.edges.keys = registry.edges.keys
  edge : ∀ key, outcome.2.get? key =
    (registry.get? key).map fun edge => { edge with arc := edge.arcAmong? nodes }
  nextId : outcome.2.nextId = registry.nextId
  curvature : outcome.2.curvature = registry.curvature
  count : outcome.1 = outcome.2.visible.length
  successes : outcome.1 = registry.edges.values.countP fun edge => (edge.arcAmong? nodes).isSome
  again : outcome.2.updateAll nodes = outcome

theorem updateAll_updateAll (earlier nodes : Nodes α) :
    (registry.updateAll earlier).2.updateAll nodes = registry.updateAll nodes := by
  have same : (registry.updateAll earlier).2.mapEdges (fun edge => edge.updated nodes) =
      registry.mapEdges fun edge => edge.updated nodes := by
    rw [updateAll, mapEdges_mapEdges]
    simp only [Edge.updated_updated]
  rw [updateAll, same]
  rfl

theorem isUpdate_updateAll (nodes : Nodes α) :
    registry.IsUpdate nodes (registry.updateAll nodes) where
  keys := Table.keys_mapValues _ _
  edge key := by
    rw [updateAll, get?_mapEdges]
    simp only [Edge.updated_eq_arcAmong]
  nextId := rfl
  curvature := rfl
  count := List.countP_eq_length_filter
  successes := by
    rw [updateAll, mapEdges, Table.values_mapValues, List.countP_map]
    simp only [Function.comp_def, Edge.updated_eq_arcAmong]
  again := registry.updateAll_updateAll nodes nodes

variable {registry} {registry' : Registry α}

theorem Resembles.mapEdges_updateAll (alike : registry.Resembles registry') (nodes : Nodes α) :
    ((registry.updateAll nodes).2.mapEdges fun edge => edge.withPartner none).edges =
      ((registry'.updateAll nodes).2.mapEdges fun edge => edge.withPartner none).edges := by
  rw [updateAll, updateAll, mapEdges_mapEdges, mapEdges_mapEdges]
  exact alike.mapValues_eq fun alike => alike.withPartner_updated nodes

theorem Resembles.pick?_updateAll (alike : registry.Resembles registry') (nodes : Nodes α)
    (p : Vec α) (tolerance : α) :
    (registry.updateAll nodes).2.pick? p tolerance =
      (registry'.updateAll nodes).2.pick? p tolerance := by
  have unpaired (registry : Registry α) :
      (registry.mapEdges fun edge => edge.withPartner none).pick? p tolerance =
        registry.pick? p tolerance := registry.pick?_mapEdges (fun _ => rfl) fun _ => rfl
  rw [← unpaired, pick?, alike.mapEdges_updateAll, ← pick?, unpaired]

theorem Resembles.commands_updateAll (alike : registry.Resembles registry') (nodes : Nodes α)
    (pen : Pen α) :
    (registry.updateAll nodes).2.commands pen = (registry'.updateAll nodes).2.commands pen := by
  have unpaired (registry : Registry α) :
      (registry.mapEdges fun edge => edge.withPartner none).commands pen =
        registry.commands pen := by
    rw [commands, mapEdges, Table.values_mapValues, List.flatMap_map]
    rfl
  rw [← unpaired, commands, alike.mapEdges_updateAll, ← commands, unpaired]

end Registry

/-- After an update the arcs are those of the moment, and only they are drawn and picked. Registries
that have the same edges, apart from partners and whatever arcs earlier updates left them with, look
the same and are picked from in the same way. -/
theorem update_of_present [Scalar α] (registry : Registry α) (nodes : Nodes α) :
    registry.IsUpdate nodes (registry.updateAll nodes) ∧
    (registry.updateAll nodes).2.ShowsVisible ∧
    ((∀ {key edge}, registry.get? key = some edge → edge.id = key) →
      ∀ key edge, (registry.updateAll nodes).2.get? key = some edge → edge.arc = none →
        ∀ p tolerance, (registry.updateAll nodes).2.pick? p tolerance ≠ some key) ∧
    ∀ registry', registry.Resembles registry' →
      (∀ p tolerance, (registry.updateAll nodes).2.pick? p tolerance =
        (registry'.updateAll nodes).2.pick? p tolerance) ∧
      ∀ pen, (registry.updateAll nodes).2.commands pen =
        (registry'.updateAll nodes).2.commands pen := by
  have isUpdate := registry.isUpdate_updateAll nodes
  have shown := (registry.updateAll nodes).2.showsVisible
  refine ⟨isUpdate, shown, ?_, fun registry' alike =>
    ⟨alike.pick?_updateAll nodes, alike.commands_updateAll nodes⟩⟩
  intro own key edge stored hidden p tolerance picked
  have own' {key : EdgeId} {edge : Edge α}
      (stored : (registry.updateAll nodes).2.get? key = some edge) : edge.id = key :=
    Registry.own_of_map own isUpdate.edge (fun _ _ => rfl) stored
  rw [← own' stored] at picked
  obtain ⟨key', edge', apart, stored', -, same⟩ := shown.unpicked stored hidden p tolerance picked
  rw [own' stored', own' stored] at same
  exact apart same

/-- The crossing without the node that the edge below leads to. -/
def crossingNodesLeft : Nodes Float32 :=
  Function.update crossingNodes 4 none

theorem resembles_crossed : crossed.Resembles crossing where
  keys := rfl
  edge := by
    intro key edge edge' stored stored'
    rw [crossed, Registry.perform, Registry.updateAll, Registry.get?_mapEdges, stored',
      Option.map_some, Option.some.injEq, Edge.updated_eq_arcAmong] at stored
    subst stored
    exact ⟨rfl, rfl, rfl, rfl, rfl, rfl, rfl⟩

/-- The edge below loses its arc, and nothing of it is left at the point where it was picked. -/
theorem update_of_present_node_lost :
    crossed.pick? ⟨20, 50⟩ 10 = some 1 ∧
      (crossed.updateAll crossingNodesLeft).1 = 1 ∧
      (∃ edge, (crossed.updateAll crossingNodesLeft).2.get? 1 = some edge ∧ edge.arc = none) ∧
      (crossed.updateAll crossingNodesLeft).2.pick? ⟨20, 50⟩ 10 ≠ some 1 ∧
      crossed.Resembles crossing ∧
      (crossed.get? 2).map Edge.arc ≠ (crossing.get? 2).map Edge.arc ∧
      (crossed.updateAll crossingNodesLeft).2.pick? ⟨20, 50⟩ (1 / 0) = some 2 ∧
      (crossing.updateAll crossingNodesLeft).2.pick? ⟨20, 50⟩ (1 / 0) = some 2 := by
  have own {key : EdgeId} {edge : Edge Float32} (stored : crossed.get? key = some edge) :
      edge.id = key := reachable_crossed.paired.own stored
  obtain ⟨-, -, unpicked, same⟩ := update_of_present crossed crossingNodesLeft
  obtain ⟨edge, stored, hidden⟩ : ∃ edge,
      (crossed.updateAll crossingNodesLeft).2.get? 1 = some edge ∧ edge.arc = none :=
    ⟨_, rfl, by decide +kernel⟩
  have picked : (crossed.updateAll crossingNodesLeft).2.pick? ⟨20, 50⟩ (1 / 0) = some 2 := by
    decide +kernel
  refine ⟨by decide +kernel, by decide +kernel, ⟨edge, stored, hidden⟩,
    unpicked own 1 edge stored hidden _ _, resembles_crossed, by decide +kernel, picked, ?_⟩
  rw [← (same crossing resembles_crossed).1, picked]

end ArcGraph
