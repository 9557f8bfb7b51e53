import ArcGraph.Proofs.Registry.Run

/-!
What one operation of a run can do.

It either connects two nodes, and then it stores one edge more, or it adds no
edge at all: every edge that is there afterwards was there before, with the same
id, nodes and curvature, and with its partner unless it lost that one.
-/

namespace ArcGraph

variable {α : Type}

namespace Edge

/-- The edge is the old one in what is fixed, and has its partner or none. -/
structure Continues (edge old : Edge α) : Prop where
  id : edge.id = old.id
  source : edge.source = old.source
  target : edge.target = old.target
  curvature : edge.curvature = old.curvature
  partner : edge.partner = old.partner ∨ edge.partner = none

theorem Continues.refl (edge : Edge α) : edge.Continues edge :=
  ⟨rfl, rfl, rfl, rfl, .inl rfl⟩

theorem Continues.trans {edge middle old : Edge α} (later : edge.Continues middle)
    (earlier : middle.Continues old) : edge.Continues old where
  id := later.id.trans earlier.id
  source := later.source.trans earlier.source
  target := later.target.trans earlier.target
  curvature := later.curvature.trans earlier.curvature
  partner := by
    rcases later.partner with same | lost
    · rw [same]
      exact earlier.partner
    · exact .inr lost

theorem Continues.partner_eq {edge old : Edge α} (continues : edge.Continues old) {key : EdgeId}
    (named : edge.partner = some key) : old.partner = some key := by
  rcases continues.partner with same | lost
  · rw [← same, named]
  · rw [lost] at named
    cases named

theorem continues_forget (edge : Edge α) (key : EdgeId) : (edge.forget key).Continues edge := by
  unfold forget
  split
  · exact ⟨rfl, rfl, rfl, rfl, .inr rfl⟩
  · exact .refl edge

theorem continues_withSelected (edge : Edge α) (selected : Bool) :
    (edge.withSelected selected).Continues edge :=
  ⟨rfl, rfl, rfl, rfl, .inl rfl⟩

theorem continues_updated [Scalar α] (edge : Edge α) (nodes : Nodes α) :
    (edge.updated nodes).Continues edge := by
  obtain ⟨arc, same⟩ := edge.updated_eq nodes
  rw [same]
  exact ⟨rfl, rfl, rfl, rfl, .inl rfl⟩

end Edge

namespace Registry

/-- The registry `later` has no edges but those of `registry`, and no other counter. -/
structure Thins (registry later : Registry α) : Prop where
  nextId : later.nextId = registry.nextId
  curvature : later.curvature = registry.curvature
  edge : ∀ {key edge}, later.get? key = some edge →
    ∃ old, registry.get? key = some old ∧ edge.Continues old

theorem Thins.refl (registry : Registry α) : registry.Thins registry :=
  ⟨rfl, rfl, fun {_ edge} stored => ⟨edge, stored, .refl edge⟩⟩

theorem Thins.trans {registry middle later : Registry α} (first : registry.Thins middle)
    (second : middle.Thins later) : registry.Thins later where
  nextId := second.nextId.trans first.nextId
  curvature := second.curvature.trans first.curvature
  edge := by
    intro key edge stored
    obtain ⟨between, stored, continues⟩ := second.edge stored
    obtain ⟨old, stored, continues'⟩ := first.edge stored
    exact ⟨old, stored, continues.trans continues'⟩

variable (registry : Registry α)

theorem thins_mapEdges {change : Edge α → Edge α} (keeps : ∀ edge, (change edge).Continues edge) :
    registry.Thins (registry.mapEdges change) := by
  refine ⟨rfl, rfl, ?_⟩
  intro key edge stored
  rw [get?_mapEdges, Option.map_eq_some_iff] at stored
  obtain ⟨old, stored, rfl⟩ := stored
  exact ⟨old, stored, keeps old⟩

theorem thins_modify (key : EdgeId) {change : Edge α → Edge α}
    (keeps : ∀ edge, (change edge).Continues edge) :
    registry.Thins (registry.modify key change) := by
  refine ⟨rfl, rfl, ?_⟩
  intro other edge stored
  rw [get?_modify, Option.map_eq_some_iff] at stored
  obtain ⟨old, stored, rfl⟩ := stored
  refine ⟨old, stored, ?_⟩
  by_cases same : other = key
  · rw [if_pos same]
    exact keeps old
  · rw [if_neg same]
    exact .refl old

theorem thins_without (key : EdgeId) (partner : Option EdgeId) :
    registry.Thins (registry.without key partner) := by
  refine ⟨rfl, rfl, ?_⟩
  intro other edge stored
  rw [get?_without] at stored
  by_cases taken : other = key
  · simp [taken] at stored
  · rw [if_neg taken, Option.map_eq_some_iff] at stored
    obtain ⟨old, stored, rfl⟩ := stored
    refine ⟨old, stored, ?_⟩
    split
    · exact old.continues_forget key
    · exact .refl old

theorem thins_removeAll (keys : List EdgeId) : registry.Thins (registry.removeAll keys).2 :=
  removeAll_induction (.refl registry)
    (fun {middle key edge} thins _ => thins.trans (middle.thins_without key edge.partner)) keys

variable [Scalar α]

theorem thins_selectWith (next : Bool → Bool) (p : Vec α) (tolerance : α) :
    registry.Thins (registry.selectWith next p tolerance).2 := by
  rcases registry.selectWith_cases next p tolerance with same | ⟨key, changed⟩
  · rw [same]
    exact .refl registry
  · rw [changed]
    exact registry.thins_modify key fun edge => edge.continues_withSelected _

/-- The id that an operation gives back for the edge that it connects, if it connects one. -/
def connected? : Operation α → Option EdgeId
  | .connect source target weight directed =>
      match registry.connect source target weight directed with
      | .ok (id, _) => some id
      | .error _ => none
  | .connectNodes nodes source target weight directed =>
      match registry.connectNodes nodes source target weight directed with
      | .ok (id, _) => some id
      | .error _ => none
  | _ => none

variable {registry}

theorem perform_of_connected {operation : Operation α} {id : EdgeId}
    (connected : registry.connected? operation = some id) :
    id = registry.nextId ∧ (operation.HasRoom registry → registry.nextId < lastId) ∧
      ∃ source target weight directed connection,
        registry.plan source target directed = .ok connection ∧
          registry.perform operation = registry.establish connection weight directed := by
  cases operation with
  | connect source target weight directed =>
      cases outcome : registry.connect source target weight directed with
      | error failure => simp [connected?, outcome] at connected
      | ok result =>
          simp only [connected?, outcome, Option.some.injEq] at connected
          obtain ⟨own, connection, planned, made⟩ := registry.connect_eq_ok_iff.mp outcome
          refine ⟨connected ▸ own, fun room => room, source, target, weight, directed, connection,
            planned, ?_⟩
          simp only [perform, outcome, made]
  | connectNodes nodes source target weight directed =>
      cases outcome : registry.connectNodes nodes source target weight directed with
      | error failure => simp [connected?, outcome] at connected
      | ok result =>
          simp only [connected?, outcome, Option.some.injEq] at connected
          have joined := registry.connect_of_connectNodes outcome
          obtain ⟨own, connection, planned, made⟩ := registry.connect_eq_ok_iff.mp joined
          refine ⟨connected ▸ own, fun room => room, source, target, weight, directed, connection,
            planned, ?_⟩
          simp only [perform, outcome, made]
  | _ => simp [connected?] at connected

theorem thins_of_not_connected {operation : Operation α}
    (unconnected : registry.connected? operation = none) :
    registry.Thins (registry.perform operation) := by
  cases operation with
  | connect source target weight directed =>
      cases outcome : registry.connect source target weight directed with
      | error failure => simpa only [perform, outcome] using Thins.refl registry
      | ok result => simp [connected?, outcome] at unconnected
  | connectNodes nodes source target weight directed =>
      cases outcome : registry.connectNodes nodes source target weight directed with
      | error failure => simpa only [perform, outcome] using Thins.refl registry
      | ok result => simp [connected?, outcome] at unconnected
  | remove key =>
      cases found : registry.get? key with
      | none =>
          simpa only [perform, registry.remove_of_get?_eq_none found] using Thins.refl registry
      | some edge =>
          simpa only [perform, registry.remove_of_get? found] using
            registry.thins_without key edge.partner
  | removeSelected => exact registry.thins_removeAll _
  | removeIncident node => exact registry.thins_removeAll _
  | setDirectedAll directed =>
      exact registry.thins_mapEdges fun _ => ⟨rfl, rfl, rfl, rfl, .inl rfl⟩
  | setWeightedAll weighted =>
      exact registry.thins_mapEdges fun _ => ⟨rfl, rfl, rfl, rfl, .inl rfl⟩
  | updateAll nodes => exact registry.thins_mapEdges fun edge => edge.continues_updated nodes
  | selectAt p tolerance => exact registry.thins_selectWith _ p tolerance
  | deselectAt p tolerance => exact registry.thins_selectWith _ p tolerance
  | toggleAt p tolerance => exact registry.thins_selectWith _ p tolerance
  | selectInBox a b =>
      apply registry.thins_mapEdges
      intro edge
      split
      · exact edge.continues_withSelected true
      · exact .refl edge
  | deselectAll => exact registry.thins_mapEdges fun edge => edge.continues_withSelected false

end Registry

end ArcGraph
