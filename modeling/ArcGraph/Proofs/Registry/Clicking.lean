import ArcGraph.Proofs.Registry.Clearing
import ArcGraph.Proofs.Registry.Tolerance

/-!
Clicking on edges.

A click picks the topmost edge at a point and changes whether that edge is
selected. Registries that agree once nothing is selected any more agree in all
that picking looks at, so no click bears on what later ones pick.
-/

namespace ArcGraph

variable {α : Type} [Scalar α]

namespace Registry

variable {registry : Registry α} {p : Vec α} {tolerance : α}

/-! ### The edge that is picked -/

theorem IsTopmost.place_eq {place place' : ℕ} {edge edge' : Edge α}
    (topmost : registry.IsTopmost p tolerance place edge)
    (topmost' : registry.IsTopmost p tolerance place' edge') : place = place' := by
  rcases lt_trichotomy place place' with less | same | greater
  · exact absurd topmost'.hit (by simp [topmost.last less topmost'.drawn])
  · exact same
  · exact absurd topmost.hit (by simp [topmost'.last greater topmost.drawn])

theorem pick?_of_isTopmost {place : ℕ} {edge : Edge α}
    (topmost : registry.IsTopmost p tolerance place edge) :
    registry.pick? p tolerance = some edge.id := by
  obtain ⟨id, picked⟩ := exists_pick? topmost.drawn topmost.hit
  obtain ⟨place', edge', topmost', rfl⟩ := exists_isTopmost_of_pick? picked
  obtain rfl := topmost.place_eq topmost'
  obtain rfl : edge = edge' := Option.some.inj (topmost.drawn.symm.trans topmost'.drawn)
  exact picked

theorem pick?_eq_some_iff (own : ∀ {key edge}, registry.get? key = some edge → edge.id = key)
    (id : EdgeId) : registry.pick? p tolerance = some id ↔
      ∃ edge place, registry.get? id = some edge ∧ registry.IsTopmost p tolerance place edge := by
  constructor
  · intro picked
    obtain ⟨place, edge, topmost, rfl⟩ := exists_isTopmost_of_pick? picked
    obtain ⟨key, stored⟩ := (registry.edges.mem_values_iff edge).mp
      (List.mem_of_getElem? topmost.drawn)
    obtain rfl := own stored
    exact ⟨edge, place, stored, topmost⟩
  · rintro ⟨edge, place, stored, topmost⟩
    rw [pick?_of_isTopmost topmost, own stored]

theorem pick?_eq_none_iff : registry.pick? p tolerance = none ↔
    ∀ key edge, registry.get? key = some edge → edge.isHit p tolerance = false := by
  rw [pick?, Option.map_eq_none_iff, List.find?_eq_none]
  constructor
  · intro missed key edge stored
    have member := (registry.edges.mem_values_iff edge).mpr ⟨key, stored⟩
    simpa using missed edge (List.mem_reverse.mpr member)
  · intro missed edge member
    obtain ⟨key, stored⟩ := (registry.edges.mem_values_iff edge).mp (List.mem_reverse.mp member)
    simp [missed key edge stored]

/-! ### What picking looks at -/

theorem pick?_mapEdges (registry : Registry α) {change : Edge α → Edge α}
    (id : ∀ edge, (change edge).id = edge.id)
    (hit : ∀ edge, (change edge).isHit p tolerance = edge.isHit p tolerance) :
    (registry.mapEdges change).pick? p tolerance = registry.pick? p tolerance := by
  simp only [pick?, mapEdges, Table.values_mapValues, ← List.map_reverse, List.find?_map,
    Option.map_map, Function.comp_def, id, hit]

theorem pick?_deselectAll (registry : Registry α) (p : Vec α) (tolerance : α) :
    registry.deselectAll.pick? p tolerance = registry.pick? p tolerance :=
  registry.pick?_mapEdges (fun _ => rfl) fun _ => rfl

theorem pick?_of_deselectAll_eq {registry' : Registry α}
    (same : registry.deselectAll = registry'.deselectAll) (p : Vec α) (tolerance : α) :
    registry.pick? p tolerance = registry'.pick? p tolerance := by
  rw [← registry.pick?_deselectAll, same, pick?_deselectAll]

omit [Scalar α] in
theorem deselectAll_modify (registry : Registry α) (key : EdgeId) (selected : Edge α → Bool) :
    (registry.modify key fun edge => edge.withSelected (selected edge)).deselectAll =
      registry.deselectAll := by
  apply ext_get?
  case keys => simp [deselectAll, mapEdges, modify]
  case nextId => rfl
  case curvature => rfl
  intro other
  rw [deselectAll, deselectAll, get?_mapEdges, get?_mapEdges, get?_modify, Option.map_map]
  congr 1
  funext edge
  by_cases same : other = key <;> simp [same, Edge.withSelected]

theorem deselectAll_selectWith (registry : Registry α) (next : Bool → Bool) (p : Vec α)
    (tolerance : α) :
    (registry.selectWith next p tolerance).2.deselectAll = registry.deselectAll := by
  rcases registry.selectWith_cases next p tolerance with same | ⟨key, changed⟩
  · rw [same]
  · rw [changed, deselectAll_modify]

/-! ### One click -/

/-- The answer is the edge that is picked, and nothing is changed but whether that edge is
selected. -/
structure IsClick (registry : Registry α) (p : Vec α) (tolerance : α) (select : Bool → Bool)
    (outcome : Option EdgeId × Registry α) : Prop where
  answer : outcome.1 = registry.pick? p tolerance
  keys : outcome.2.edges.keys = registry.edges.keys
  edge : ∀ key, outcome.2.get? key = (registry.get? key).map fun edge =>
    if registry.pick? p tolerance = some key then edge.withSelected (select edge.flags.selected)
    else edge
  nextId : outcome.2.nextId = registry.nextId
  curvature : outcome.2.curvature = registry.curvature
  picks : ∀ p' tolerance', outcome.2.pick? p' tolerance' = registry.pick? p' tolerance'

section Own

variable (own : ∀ {key edge}, registry.get? key = some edge → edge.id = key)
include own

theorem contains_of_pick? {id : EdgeId} (picked : registry.pick? p tolerance = some id) :
    registry.edges.contains id = true := by
  obtain ⟨edge, place, stored, -⟩ := (pick?_eq_some_iff own id).mp picked
  rw [Table.contains_iff_mem_keys]
  exact (registry.mem_keys_iff id).mpr ⟨edge, stored⟩

theorem isClick_selectWith (select : Bool → Bool) (p : Vec α) (tolerance : α) :
    registry.IsClick p tolerance select (registry.selectWith select p tolerance) := by
  have outcome : registry.selectWith select p tolerance = (registry.pick? p tolerance,
      { registry with
        edges := registry.edges.modifyAt? (registry.pick? p tolerance) fun edge =>
          edge.withSelected (select edge.flags.selected) }) := by
    unfold selectWith
    cases picked : registry.pick? p tolerance with
    | none => rfl
    | some id =>
        simp only [contains_of_pick? own picked, if_true]
        rfl
  have picks := pick?_of_deselectAll_eq (registry.deselectAll_selectWith select p tolerance)
  rw [outcome] at picks ⊢
  exact {
    answer := rfl
    keys := Table.keys_modifyAt? _ _ _
    edge := Table.get?_modifyAt? _ _ _
    nextId := rfl
    curvature := rfl
    picks := picks }

theorem toggleAt_toggleAt (p : Vec α) (tolerance : α) :
    (registry.toggleAt p tolerance).2.toggleAt p tolerance =
      (registry.pick? p tolerance, registry) := by
  have first := isClick_selectWith own (fun selected => !selected) p tolerance
  have own' {key : EdgeId} {edge : Edge α}
      (stored : (registry.toggleAt p tolerance).2.get? key = some edge) : edge.id = key :=
    own_of_map own first.edge (fun _ _ => by split <;> rfl) stored
  have second := isClick_selectWith own' (fun selected => !selected) p tolerance
  refine Prod.ext (second.answer.trans (first.picks p tolerance)) ?_
  apply ext_get?
  case keys => exact second.keys.trans first.keys
  case nextId => exact second.nextId.trans first.nextId
  case curvature => exact second.curvature.trans first.curvature
  intro key
  have twice := second.edge key
  rw [toggleAt, first.picks, first.edge, Option.map_map] at twice
  refine twice.trans ?_
  change _ = registry.get? key
  cases registry.get? key with
  | none => rfl
  | some edge =>
      by_cases picked : registry.pick? p tolerance = some key <;> simp [picked, Edge.withSelected]

end Own

end Registry

/-! ### Any number of clicks -/

omit [Scalar α] in
/-- The operation is a click. -/
def Operation.isClick : Operation α → Bool
  | .selectAt _ _ | .deselectAt _ _ | .toggleAt _ _ => true
  | _ => false

namespace Registry

theorem deselectAll_perform (registry : Registry α) {click : Operation α}
    (isClick : click.isClick = true) :
    (registry.perform click).deselectAll = registry.deselectAll := by
  cases click <;> first | exact registry.deselectAll_selectWith _ _ _ | cases isClick

theorem deselectAll_foldl_perform (registry : Registry α) {clicks : List (Operation α)}
    (areClicks : ∀ click ∈ clicks, click.isClick = true) :
    (clicks.foldl perform registry).deselectAll = registry.deselectAll := by
  induction clicks generalizing registry with
  | nil => rfl
  | cons click rest inductionHypothesis =>
      obtain ⟨first, others⟩ := List.forall_mem_cons.mp areClicks
      rw [List.foldl_cons, inductionHypothesis _ others, registry.deselectAll_perform first]

end Registry

/-- Where edges are stored under their own ids, the edge that is picked is the one that is hit with
none that is hit drawn after it. A click answers with it and changes only whether it is selected, a
second one like it undoes a toggle, and after any clicks every point has the same edge picked and
nothing but selections is different. -/
theorem clicks_of_own {registry : Registry α}
    (own : ∀ {key edge}, registry.get? key = some edge → edge.id = key) :
    (∀ p tolerance,
      (∀ id, registry.pick? p tolerance = some id ↔
        ∃ edge place, registry.get? id = some edge ∧
          registry.IsTopmost p tolerance place edge) ∧
      (registry.pick? p tolerance = none ↔
        ∀ key edge, registry.get? key = some edge → edge.isHit p tolerance = false) ∧
      registry.IsClick p tolerance (fun _ => true) (registry.selectAt p tolerance) ∧
      registry.IsClick p tolerance (fun _ => false) (registry.deselectAt p tolerance) ∧
      registry.IsClick p tolerance (fun selected => !selected) (registry.toggleAt p tolerance) ∧
      (registry.toggleAt p tolerance).2.toggleAt p tolerance =
        (registry.pick? p tolerance, registry)) ∧
    ∀ clicks : List (Operation α), (∀ click ∈ clicks, click.isClick = true) →
      (clicks.foldl Registry.perform registry).deselectAll = registry.deselectAll ∧
      ∀ p tolerance, (clicks.foldl Registry.perform registry).pick? p tolerance =
        registry.pick? p tolerance := by
  constructor
  · intro p tolerance
    exact ⟨Registry.pick?_eq_some_iff own, Registry.pick?_eq_none_iff,
      Registry.isClick_selectWith own _ p tolerance, Registry.isClick_selectWith own _ p tolerance,
      Registry.isClick_selectWith own _ p tolerance, Registry.toggleAt_toggleAt own p tolerance⟩
  · intro clicks areClicks
    have same := registry.deselectAll_foldl_perform areClicks
    exact ⟨same, Registry.pick?_of_deselectAll_eq same⟩

/-- The two edges that cross, with their arcs. -/
def crossed : Registry Float32 :=
  crossing.perform (.updateAll crossingNodes)

theorem reachable_crossed : Reachable crossed :=
  (((Reachable.empty 60).step (.connect 3 4 default true) (by decide)).step
    (.connect 1 2 default true) (by decide)).step (.updateAll crossingNodes) trivial

/-- A toggle of the edge below, and clicks that select both edges. -/
theorem clicks_of_own_crossing :
    (∀ key edge, crossed.get? key = some edge → edge.id = key) ∧
      crossed.pick? ⟨20, 50⟩ 10 = some 1 ∧
      (∃ edge place, crossed.get? 1 = some edge ∧ crossed.IsTopmost ⟨20, 50⟩ 10 place edge) ∧
      (crossed.toggleAt ⟨20, 50⟩ 10).2.selectedCount = 1 ∧
      (crossed.toggleAt ⟨20, 50⟩ 10).2.toggleAt ⟨20, 50⟩ 10 = (some 1, crossed) ∧
      ∃ clicks : List (Operation Float32), (∀ click ∈ clicks, click.isClick = true) ∧
        (clicks.foldl Registry.perform crossed).selectedCount = 2 ∧
        (clicks.foldl Registry.perform crossed).deselectAll = crossed.deselectAll := by
  have own {key : EdgeId} {edge : Edge Float32} (stored : crossed.get? key = some edge) :
      edge.id = key := reachable_crossed.paired.own stored
  have picked : crossed.pick? ⟨20, 50⟩ 10 = some 1 := by decide +kernel
  obtain ⟨single, many⟩ := clicks_of_own own
  obtain ⟨topmost, -, -, -, -, twice⟩ := single ⟨20, 50⟩ 10
  let clicks : List (Operation Float32) :=
    [.selectAt ⟨20, 50⟩ 10, .toggleAt ⟨20, 50⟩ (1 / 0)]
  have areClicks : ∀ click ∈ clicks, click.isClick = true := by simp [clicks, Operation.isClick]
  exact ⟨fun _ _ => own, picked, (topmost 1).mp picked, by decide +kernel, picked ▸ twice, clicks,
    areClicks, by decide +kernel, (many clicks areClicks).1⟩

end ArcGraph
