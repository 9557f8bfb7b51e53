import ArcGraph.Proofs.Arc.Hit
import ArcGraph.Proofs.Number.Order
import ArcGraph.Proofs.Registry.Pairing

/-!
Picking inside the nodes.

No edge is hit inside the disk of a node that it starts or ends at, whatever the
tolerance, so that a click on a node goes to the node. A node of a host may have
any radius; one that is not proper counts as zero.
-/

namespace ArcGraph

open Scalar

section Nodes

variable {α : Type} [Scalar α]

namespace Disk

/-- The disk with its radius as curves take it. -/
def proper (disk : Disk α) : Disk α :=
  { disk with radius := properRadius disk.radius }

theorem properRadius_zero : properRadius (ofNat 0 : α) = ofNat 0 :=
  ite_self _

theorem properRadius_properRadius (radius : α) :
    properRadius (properRadius radius) = properRadius radius := by
  by_cases finite : isProperRadius radius = true
  · have same : properRadius radius = radius := if_pos finite
    rw [same, same]
  · have zero : properRadius radius = ofNat 0 := if_neg finite
    rw [zero, properRadius_zero]

end Disk

theorem Arc.between_proper (start finish : Disk α) (curvature : α) :
    between start.proper finish.proper curvature = between start finish curvature := by
  simp only [between, Disk.proper, Disk.properRadius_properRadius]

theorem Edge.updated_proper (edge : Edge α) (nodes : Nodes α) :
    edge.updated (fun node => (nodes node).map Disk.proper) = edge.updated nodes := by
  unfold updated
  dsimp only
  cases nodes edge.source with
  | none => rfl
  | some start =>
      cases nodes edge.target with
      | none => rfl
      | some finish => simp only [Option.map_some, updatedFrom, Arc.between_proper]

/-- An update cannot tell a radius that is not proper from zero. -/
theorem Registry.updateAll_of_improper (registry : Registry α) {nodes : Nodes α} {node : NodeId}
    {disk : Disk α} (there : nodes node = some disk)
    (improper : Disk.isProperRadius disk.radius = false) :
    registry.updateAll (Function.update nodes node (some ⟨disk.center, ofNat 0⟩)) =
      registry.updateAll nodes := by
  have same : (fun other => (Function.update nodes node (some ⟨disk.center, ofNat 0⟩) other).map
      Disk.proper) = fun other => (nodes other).map Disk.proper := by
    funext other
    by_cases here : other = node
    · subst here
      rw [Function.update_self, there, Option.map_some, Option.map_some, Disk.proper, Disk.proper,
        Disk.properRadius_zero, Disk.properRadius, improper, if_neg Bool.false_ne_true]
    · rw [Function.update_of_ne here]
  have edges : (fun edge : Edge α => edge.updated
      (Function.update nodes node (some ⟨disk.center, ofNat 0⟩))) =
        fun edge => edge.updated nodes := by
    funext edge
    rw [← edge.updated_proper, same, edge.updated_proper]
  rw [updateAll, edges]
  rfl

end Nodes

namespace Registry

variable {α : Type} [Scalar α] {registry : Registry α} {p : Vec α} {tolerance : α}

theorem exists_of_pick? {id : EdgeId} (picked : registry.pick? p tolerance = some id) :
    ∃ key edge, registry.get? key = some edge ∧ edge.isHit p tolerance = true ∧ edge.id = id := by
  rw [pick?, Option.map_eq_some_iff] at picked
  obtain ⟨edge, found, same⟩ := picked
  have member := List.mem_reverse.mp (List.mem_of_find?_eq_some found)
  obtain ⟨key, stored⟩ := (registry.edges.mem_values_iff edge).mp member
  have hit : edge.isHit p tolerance = true := by simpa only using List.find?_some found
  exact ⟨key, edge, stored, hit, same⟩

/-- Where edges are stored under their own ids, the edge under the id that is picked is hit. -/
theorem isHit_of_pick? (own : ∀ {key edge}, registry.get? key = some edge → edge.id = key)
    {key : EdgeId} {edge : Edge α} (stored : registry.get? key = some edge)
    (picked : registry.pick? p tolerance = some key) : edge.isHit p tolerance = true := by
  obtain ⟨key', hitEdge, stored', hit, same⟩ := exists_of_pick? picked
  obtain rfl : key' = key := (own stored').symm.trans same
  obtain rfl : edge = hitEdge := Option.some.inj (stored.symm.trans stored')
  exact hit

theorem pick?_of_selectWith {next : Bool → Bool} {id : EdgeId}
    (selected : (registry.selectWith next p tolerance).1 = some id) :
    registry.pick? p tolerance = some id := by
  unfold selectWith at selected
  cases picked : registry.pick? p tolerance with
  | none => simp [picked] at selected
  | some key =>
      simp only [picked] at selected
      split at selected
      · exact selected
      · cases selected

theorem get?_selectWith_of_ne (next : Bool → Bool) {key : EdgeId}
    (other : registry.pick? p tolerance ≠ some key) :
    (registry.selectWith next p tolerance).2.get? key = registry.get? key := by
  unfold selectWith
  cases picked : registry.pick? p tolerance with
  | none => rfl
  | some id =>
      have apart : ¬ key = id := fun same => other (same ▸ picked)
      by_cases present : registry.edges.contains id = true
      · simp only [present, if_true, get?_modify, if_neg apart, Option.map_id']
      · simp only [present, Bool.false_eq_true, if_false]

end Registry

/-! ### Inside a disk -/

theorem Arc.isInsideDisk_of_lt {arc : Arc Float32} {p : Vec Float32}
    (inside : p.distance arc.start < arc.startRadius ∨ p.distance arc.finish < arc.finishRadius) :
    arc.isInsideDisk p = true := by
  rw [← Bool.not_eq_false, isInsideDisk_eq_false_iff]
  rintro ⟨fromStart, fromFinish⟩
  rcases inside with less | less
  · exact Binary.not_le_of_lt less fromStart
  · exact Binary.not_le_of_lt less fromFinish

theorem Disk.isProperRadius_eq_false {radius : Float32}
    (improper : radius < 0 ∨ radius.isNaN = true ∨ radius.isInf = true) :
    Disk.isProperRadius radius = false := by
  rw [Disk.isProperRadius, Bool.and_eq_false_iff, decide_eq_false_iff_not]
  rcases improper with negative | endless
  · exact .inr (Binary.not_le_of_lt negative)
  · exact .inl (Binary.isFinite_eq_false_iff.mpr endless)

section Inside

variable {nodes : Nodes Float32} {node : NodeId} {disk : Disk Float32}
  (there : nodes node = some disk) (proper : Disk.isProperRadius disk.radius = true)
  {p : Vec Float32} (inside : p.distance disk.center < disk.radius)
include there proper inside

theorem Edge.isHit_updated_eq_false {edge : Edge Float32} (touches : edge.touches node = true)
    (tolerance : Float32) : (edge.updated nodes).isHit p tolerance = false := by
  cases found : (edge.updated nodes).arc with
  | none => rw [isHit, found, Option.any_none]
  | some arc =>
      rw [isHit, found, Option.any_some]
      obtain ⟨start, finish, start?, finish?, between⟩ :=
        (edge.arc_updated_eq_some_iff nodes arc).mp found
      obtain ⟨starts, finishes, startRadius, finishRadius⟩ := Arc.disks_of_between between
      apply arc.isHit_eq_false_of_isInsideDisk
      apply Arc.isInsideDisk_of_lt
      have kept : Disk.properRadius disk.radius = disk.radius := if_pos proper
      simp only [Edge.touches, Bool.or_eq_true, decide_eq_true_eq] at touches
      rcases touches with source | target
      · obtain rfl : disk = start := Option.some.inj (there.symm.trans (source ▸ start?))
        left
        rwa [starts, startRadius, kept]
      · obtain rfl : disk = finish := Option.some.inj (there.symm.trans (target ▸ finish?))
        right
        rwa [finishes, finishRadius, kept]

end Inside

/-- The three ways to select at a point, with what they answer and leave behind. -/
def Registry.selections {α : Type} [Scalar α] (registry : Registry α) (p : Vec α) (tolerance : α) :
    List (Option EdgeId × Registry α) :=
  [registry.selectAt p tolerance, registry.deselectAt p tolerance, registry.toggleAt p tolerance]

theorem Registry.exists_of_mem_selections {α : Type} [Scalar α] {registry : Registry α} {p : Vec α}
    {tolerance : α} {selection : Option EdgeId × Registry α}
    (member : selection ∈ registry.selections p tolerance) :
    ∃ next, selection = registry.selectWith next p tolerance := by
  simp only [selections, List.mem_cons, List.not_mem_nil, or_false] at member
  rcases member with rfl | rfl | rfl
  · exact ⟨_, rfl⟩
  · exact ⟨_, rfl⟩
  · exact ⟨_, rfl⟩

/-- Right after an update no edge of a node is picked at a point inside the disk of the node, for
any tolerance, and selecting at the point neither answers with such an edge nor changes it. For a
node whose radius is negative, infinite or no number the update is the one for radius zero. -/
theorem edge_of_node_unpicked {registry : Registry Float32}
    (own : ∀ {key edge}, registry.get? key = some edge → edge.id = key) (nodes : Nodes Float32)
    {node : NodeId} {disk : Disk Float32} (there : nodes node = some disk) :
    (disk.radius.isFinite = true → 0 ≤ disk.radius →
      ∀ p tolerance, p.distance disk.center < disk.radius →
      ∀ key edge, (registry.updateAll nodes).2.get? key = some edge → edge.touches node = true →
        (registry.updateAll nodes).2.pick? p tolerance ≠ some edge.id ∧
        ∀ selection ∈ (registry.updateAll nodes).2.selections p tolerance,
          selection.1 ≠ some edge.id ∧ selection.2.get? key = some edge) ∧
    (disk.radius < 0 ∨ disk.radius.isNaN = true ∨ disk.radius.isInf = true →
      registry.updateAll nodes =
        registry.updateAll (Function.update nodes node (some ⟨disk.center, 0⟩))) := by
  constructor
  · intro finite nonneg p tolerance inside key edge stored touches
    have ties := Edge.keepsTies_updated nodes
    have own' {key : EdgeId} {edge : Edge Float32}
        (stored : (registry.updateAll nodes).2.get? key = some edge) : edge.id = key := by
      rw [Registry.updateAll, Registry.get?_mapEdges, Option.map_eq_some_iff] at stored
      obtain ⟨old, stored, rfl⟩ := stored
      rw [ties.id, own stored]
    have proper : Disk.isProperRadius disk.radius = true := by
      rw [Disk.isProperRadius, Bool.and_eq_true, decide_eq_true_eq]
      exact ⟨finite, nonneg⟩
    have missed : edge.isHit p tolerance = false := by
      rw [Registry.updateAll, Registry.get?_mapEdges, Option.map_eq_some_iff] at stored
      obtain ⟨old, -, rfl⟩ := stored
      rw [Edge.touches, ties.source, ties.target] at touches
      exact Edge.isHit_updated_eq_false there proper inside touches tolerance
    have unpicked : (registry.updateAll nodes).2.pick? p tolerance ≠ some key := by
      intro picked
      rw [Registry.isHit_of_pick? own' stored picked] at missed
      cases missed
    rw [own' stored]
    refine ⟨unpicked, ?_⟩
    intro selection member
    obtain ⟨next, rfl⟩ := Registry.exists_of_mem_selections member
    refine ⟨fun selected => unpicked (Registry.pick?_of_selectWith selected), ?_⟩
    rw [Registry.get?_selectWith_of_ne next unpicked, stored]
  · intro improper
    exact (registry.updateAll_of_improper there (Disk.isProperRadius_eq_false improper)).symm

/-- Two edges of which the one on top starts at a node that the other passes. -/
def crossing : Registry Float32 :=
  ((Registry.empty 60).perform (.connect 3 4 default true)).perform (.connect 1 2 default true)

def crossingNodes : Nodes Float32 := fun node =>
  [(1, ⟨⟨0, 0⟩, 10⟩), (2, ⟨⟨100, 0⟩, 10⟩), (3, ⟨⟨-50, 0⟩, -1⟩), (4, ⟨⟨150, 0⟩, 10⟩)].lookup node

/-- Inside the node the edge below is picked. -/
theorem edge_of_node_unpicked_crossing :
    (∀ key edge, crossing.get? key = some edge → edge.id = key) ∧
      crossingNodes 1 = some ⟨⟨0, 0⟩, 10⟩ ∧ (10 : Float32).isFinite = true ∧ (0 : Float32) ≤ 10 ∧
      (⟨7, 1⟩ : Vec Float32).distance ⟨0, 0⟩ < 10 ∧
      (crossing.updateAll crossingNodes).2.pick? ⟨7, 1⟩ (1 / 0) = some 1 ∧
      (∃ edge, (crossing.updateAll crossingNodes).2.get? 2 = some edge ∧ edge.touches 1 = true ∧
        (crossing.updateAll crossingNodes).2.pick? ⟨7, 1⟩ (1 / 0) ≠ some edge.id ∧
        ((crossing.updateAll crossingNodes).2.toggleAt ⟨7, 1⟩ (1 / 0)).2.get? 2 = some edge) ∧
      crossingNodes 3 = some ⟨⟨-50, 0⟩, -1⟩ ∧ (-1 : Float32) < 0 ∧
      crossing.updateAll crossingNodes =
        crossing.updateAll (Function.update crossingNodes 3 (some ⟨⟨-50, 0⟩, 0⟩)) := by
  have reached : Reachable crossing :=
    ((Reachable.empty 60).step (.connect 3 4 default true) (by decide)).step
      (.connect 1 2 default true) (by decide)
  have own {key : EdgeId} {edge : Edge Float32} (stored : crossing.get? key = some edge) :
      edge.id = key := reached.paired.own stored
  have node : crossingNodes 1 = some ⟨⟨0, 0⟩, 10⟩ := by decide +kernel
  have foreign : crossingNodes 3 = some ⟨⟨-50, 0⟩, -1⟩ := by decide +kernel
  have inside : (⟨7, 1⟩ : Vec Float32).distance ⟨0, 0⟩ < 10 := by decide +kernel
  have negative : (-1 : Float32) < 0 := by decide +kernel
  obtain ⟨edge, stored, touches⟩ : ∃ edge,
      (crossing.updateAll crossingNodes).2.get? 2 = some edge ∧ edge.touches 1 = true :=
    ⟨_, rfl, by decide +kernel⟩
  obtain ⟨unpicked, unchanged⟩ := (edge_of_node_unpicked own crossingNodes node).1
    (by decide +kernel) (by decide +kernel) ⟨7, 1⟩ (1 / 0) inside 2 edge stored touches
  have toggled := (unchanged ((crossing.updateAll crossingNodes).2.toggleAt ⟨7, 1⟩ (1 / 0))
    (by simp [Registry.selections])).2
  exact ⟨fun _ _ => own, node, by decide +kernel, by decide +kernel, inside, by decide +kernel,
    ⟨edge, stored, touches, unpicked, toggled⟩, foreign, negative,
    (edge_of_node_unpicked own crossingNodes foreign).2 (.inl negative)⟩

end ArcGraph
