import ArcGraph.Proofs.Registry.Pairing

/-!
A new edge and its withdrawal.

A connection puts one edge on top and touches at most one other, the edge that
becomes its partner. That one was free before, so that taking the new edge out
again frees it and brings everything back but the counter and the arrowhead of
the former partner.
-/

namespace ArcGraph

variable {α : Type}

namespace Registry

/-- The registry `next` has the requested edge on top of the edges of `registry`. It is alone
between its nodes, or it has the one other edge there as its partner, which no other edge is. -/
structure Gains (registry : Registry α) (source target : NodeId) (directed : Bool) (new : Edge α)
    (next : Registry α) : Prop where
  stored : next.get? registry.nextId = some new
  id : new.id = registry.nextId
  last : next.edges.keys = registry.edges.keys ++ [registry.nextId]
  joins : registry.between source target = [] ∧
      new.source = source ∧ new.target = target ∧ new.partner = none ∨
    ∃ edge, registry.between source target = [edge] ∧ registry.get? edge.id = some edge ∧
      new.partner = some edge.id ∧
      (directed = true ∧ new.source = source ∧ new.target = target ∨
        directed = false ∧ new.source = edge.target ∧ new.target = edge.source)
  others : ∀ {key edge}, registry.get? key = some edge → next.get? key = some
    (if new.partner = some key then (edge.withPartner (some registry.nextId)).withDirected directed
    else edge)
  nextId : next.nextId = registry.nextId + 1
  curvature : next.curvature = registry.curvature

variable {registry : Registry α}

theorem Paired.get?_nextId (paired : registry.Paired) : registry.get? registry.nextId = none := by
  cases found : registry.get? registry.nextId with
  | none => rfl
  | some edge => exact absurd (paired.passed found) (UInt64.lt_irrefl registry.nextId)

/-- The edge that a connection takes as its partner has none before. -/
theorem Paired.free_of_plan (paired : registry.Paired) {source target : NodeId} {directed : Bool}
    {connection : Connection} (planned : registry.plan source target directed = .ok connection)
    {key : EdgeId} {edge : Edge α} (named : connection.partner = some key)
    (stored : registry.get? key = some edge) : edge.partner = none := by
  rcases registry.plan_cases planned with ⟨-, -, -, free⟩ | ⟨only, -, alone, -, named', -⟩
  · rw [free] at named
    cases named
  · obtain rfl : only.id = key := Option.some.inj (named'.symm.trans named)
    have member : only ∈ registry.between source target := by simp [alone]
    obtain ⟨stored', -⟩ := paired.get?_of_mem_between member
    obtain rfl : edge = only := Option.some.inj (stored.symm.trans stored')
    exact paired.partner_of_between_eq_singleton alone

variable [Scalar α]

theorem Paired.gains_establish (paired : registry.Paired) {source target : NodeId}
    {directed : Bool} {connection : Connection}
    (planned : registry.plan source target directed = .ok connection) (weight : Weight) :
    registry.Gains source target directed (registry.newEdge connection weight directed)
      (registry.establish connection weight directed) := by
  have fresh := paired.get?_nextId
  constructor
  case stored => rw [get?_establish, if_pos rfl]
  case id => rfl
  case last =>
    exact registry.keys_establish connection weight directed
      ((registry.get?_eq_none_iff registry.nextId).mp fresh)
  case joins =>
    rcases registry.plan_cases planned with
      ⟨none, source', target', free⟩ | ⟨edge, other, alone, found, named, ends⟩
    · exact .inl ⟨none, source', target', free⟩
    · have member : edge ∈ registry.between source target := by simp [alone]
      obtain ⟨stored, -⟩ := paired.get?_of_mem_between member
      obtain rfl : edge = other := Option.some.inj (stored.symm.trans found)
      refine .inr ⟨edge, alone, stored, named, ?_⟩
      rcases ends with ⟨arrow, -, ends⟩ | ⟨plain, ends⟩
      · exact .inl ⟨arrow, ends⟩
      · exact .inr ⟨plain, ends⟩
  case others =>
    intro key edge stored
    rw [get?_establish, if_neg (ne_of_get? stored fresh), stored, Option.map_some]
    rfl
  case nextId => rfl
  case curvature => rfl

/-- The new edge goes, and its partner is as free as it was. -/
theorem Paired.without_establish (paired : registry.Paired) {source target : NodeId}
    {directed : Bool} {connection : Connection}
    (planned : registry.plan source target directed = .ok connection) (weight : Weight) :
    (registry.establish connection weight directed).without registry.nextId connection.partner =
      { registry with
        edges := registry.edges.modifyAt? connection.partner fun edge => edge.withDirected directed
        nextId := registry.nextId + 1 } := by
  have fresh := paired.get?_nextId
  have gains := paired.gains_establish planned weight
  apply ext_get?
  case keys =>
    have others : ∀ key ∈ registry.edges.keys, decide (key ≠ registry.nextId) = true := by
      intro key member
      obtain ⟨edge, stored⟩ := (registry.mem_keys_iff key).mp member
      exact decide_eq_true (ne_of_get? stored fresh)
    rw [keys_without, gains.last, Table.keys_modifyAt?, List.filter_append,
      List.filter_eq_self.mpr others]
    simp
  case view =>
    intro key
    rw [get?_without]
    have view : ({ registry with
        edges := registry.edges.modifyAt? connection.partner fun edge => edge.withDirected directed
        nextId := registry.nextId + 1 } : Registry α).get? key =
          (registry.get? key).map fun edge =>
            if connection.partner = some key then edge.withDirected directed else edge :=
      Table.get?_modifyAt? registry.edges connection.partner _ key
    rw [view]
    by_cases new : key = registry.nextId
    · rw [if_pos new, new, fresh, Option.map_none]
    rw [if_neg new]
    cases stored : registry.get? key with
    | none =>
        rw [get?_establish, if_neg new, stored, Option.map_none, Option.map_none, Option.map_none]
    | some edge =>
        rw [gains.others stored, Option.map_some, Option.map_some]
        by_cases named : connection.partner = some key
        · have free := paired.free_of_plan planned named stored
          have back : ((edge.withPartner (some registry.nextId)).withDirected directed).forget
              registry.nextId = edge.withDirected directed := by
            have parted : ((edge.withPartner (some registry.nextId)).withDirected directed).forget
                registry.nextId = { edge.withDirected directed with partner := none } := if_pos rfl
            rw [parted, ← free]
            rfl
          rw [if_pos named, if_pos named, ← back]
          congr 2
          exact if_pos named
        · rw [if_neg named, if_neg named]
          congr 1
          exact if_neg named
  case nextId => rfl
  case curvature => rfl

end Registry

/-- A connection in a reachable registry adds the requested edge on top. Taking that edge out again
gives the registry back as it was, except that its id is used up and that its former partner keeps
the arrowhead, or the lack of one, that came with the request. -/
theorem withdraw_of_connect [Scalar α] {registry next : Registry α} (reached : Reachable registry)
    {source target : NodeId} {weight : Weight} {directed : Bool} {id : EdgeId}
    (connected : registry.connect source target weight directed = .ok (id, next)) :
    ∃ new, new.id = id ∧ registry.Gains source target directed new next ∧
      next.remove id = .ok (new, { registry with
        edges := registry.edges.modifyAt? new.partner fun edge => edge.withDirected directed
        nextId := registry.nextId + 1 }) := by
  have paired := reached.paired
  obtain ⟨rfl, connection, planned, rfl⟩ := registry.connect_eq_ok_iff.mp connected
  have gains := paired.gains_establish planned weight
  refine ⟨registry.newEdge connection weight directed, rfl, gains, ?_⟩
  rw [Registry.remove_of_get? _ gains.stored]
  have back := paired.without_establish planned weight
  exact congrArg (fun rest => Except.ok (registry.newEdge connection weight directed, rest)) back

/-- An edge with an arrowhead gets a partner, loses the arrowhead to it and stays without when the
partner goes. -/
theorem withdraw_of_connect_plain_partner :
    ∃ registry next withdrawn : Registry Float32, ∃ new : Edge Float32, Reachable registry ∧
      (registry.get? 1).map (fun edge => edge.flags.directed) = some true ∧
      registry.connect 1 2 default false = .ok (2, next) ∧
      registry.Gains 1 2 false new next ∧ (new.source, new.target) = (2, 1) ∧
      next.remove 2 = .ok (new, withdrawn) ∧
      (withdrawn.get? 1).map (fun edge => (edge.partner, edge.flags.directed)) =
        some (none, false) := by
  have reached : Reachable (α := Float32) _ :=
    (Reachable.empty 60).step (.connect 1 2 default true) (by decide)
  obtain ⟨new, -, gains, withdrawn⟩ :=
    @withdraw_of_connect Float32 _ _ _ reached 1 2 default false 2 rfl
  obtain rfl := Option.some.inj gains.stored
  exact ⟨_, _, _, _, reached, rfl, rfl, gains, rfl, withdrawn, rfl⟩

end ArcGraph
