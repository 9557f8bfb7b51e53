import ArcGraph.Proofs.Registry.Step

/-!
Ids of runs in which edges also come in with ids of their own and are changed at
will, their ids and partners included.

The id that an edge carries says nothing then. What stays true is about the ids
that edges came in under, and about the keys of the registry, which are among
those: the counter has passed them all, or has come to the last id.
-/

namespace ArcGraph

variable {α : Type}

/-- An operation, an edge that is put in, or any change of the edge under a key. -/
inductive Action (α : Type) where
  | operate (operation : Operation α)
  | insert (edge : Edge α)
  | change (key : EdgeId) (change : Edge α → Edge α)

/-- There is an id left for the edge that the action may connect. -/
def Action.HasRoom (registry : Registry α) : Action α → Prop
  | .operate operation => operation.HasRoom registry
  | _ => True

instance (registry : Registry α) (action : Action α) : Decidable (action.HasRoom registry) := by
  unfold Action.HasRoom
  split <;> infer_instance

namespace Registry

/-- The registry `next` has one edge more, under an id that was no key. No edge is lost: those of
`registry` keep all but their partners and their arrowheads. -/
structure Grows (registry : Registry α) (id : EdgeId) (next : Registry α) : Prop where
  new : id ∉ registry.edges.keys
  keys : next.edges.keys = registry.edges.keys ++ [id]
  stored : ∃ edge, next.get? id = some edge ∧ edge.id = id
  kept : ∀ {key edge}, registry.get? key = some edge → ∃ partner directed,
    next.get? key = some ((edge.withPartner partner).withDirected directed)
  nextId : next.nextId = max registry.nextId (idAfter id)

variable [Scalar α]

/-- The registry after an action. An action that is refused leaves it as it is. -/
def act (registry : Registry α) : Action α → Registry α
  | .operate operation => registry.perform operation
  | .insert edge =>
      match registry.insert edge with
      | .ok next => next
      | .error _ => registry
  | .change key change => registry.modify key change

/-- The id under which an action adds an edge, if it adds one. -/
def added? (registry : Registry α) : Action α → Option EdgeId
  | .operate operation => registry.connected? operation
  | .insert edge =>
      match registry.insert edge with
      | .ok _ => some edge.id
      | .error _ => none
  | .change _ _ => none

end Registry

/-- Actions lead from the one registry to the other and add edges under the given ids, in this
order. -/
inductive Run [Scalar α] (first : Registry α) : List EdgeId → Registry α → Prop where
  | refl : Run first [] first
  | step {ids : List EdgeId} {registry : Registry α} (action : Action α) :
      Run first ids registry → action.HasRoom registry →
        Run first (ids ++ (registry.added? action).toList) (registry.act action)

namespace Registry

/-- The counter has passed the keys and the given ids, or has come to the last id. -/
structure Counts (registry : Registry α) (ids : List EdgeId) : Prop where
  keys : ∀ key ∈ registry.edges.keys, idAfter key ≤ registry.nextId
  ids : ∀ id ∈ ids, idAfter id ≤ registry.nextId

theorem counts_empty (curvature : α) : (empty curvature).Counts [] where
  keys _ member := by cases member
  ids _ member := by cases member

variable {registry : Registry α} {ids : List EdgeId}

theorem le_max_left (a b : EdgeId) : a ≤ max a b := by
  rw [UInt64.le_iff_toNat_le, toNat_max]
  omega

theorem le_max_right (a b : EdgeId) : b ≤ max a b := by
  rw [UInt64.le_iff_toNat_le, toNat_max]
  omega

theorem not_idAfter_le_of_lt_lastId {id : EdgeId} (room : id < lastId) : ¬ idAfter id ≤ id := by
  rw [idAfter_le_iff]
  rintro (less | ⟨last, -⟩)
  · exact UInt64.lt_irrefl id less
  · exact UInt64.ne_of_lt room last

theorem lt_of_idAfter_le {id next : EdgeId} (passed : idAfter id ≤ next) (room : next < lastId) :
    id < next := by
  rcases (idAfter_le_iff id next).mp passed with less | ⟨-, last⟩
  · exact less
  · exact absurd last (UInt64.ne_of_lt room)

theorem Counts.nextId_notMem (counts : registry.Counts ids) (room : registry.nextId < lastId) :
    registry.nextId ∉ registry.edges.keys := fun member =>
  not_idAfter_le_of_lt_lastId room (counts.keys _ member)

theorem grows_withInserted {edge : Edge α} (fresh : registry.get? edge.id = none) :
    registry.Grows edge.id (registry.withInserted edge) where
  new := (registry.get?_eq_none_iff edge.id).mp fresh
  keys := registry.keys_withInserted fresh
  stored := ⟨edge, by rw [get?_withInserted, if_pos rfl], rfl⟩
  kept := by
    intro key old stored
    rw [get?_withInserted, if_neg (ne_of_get? stored fresh), stored, Option.map_some]
    split
    · exact ⟨none, old.flags.directed, rfl⟩
    · split
      · exact ⟨some edge.id, old.flags.directed, rfl⟩
      · exact ⟨old.partner, old.flags.directed, rfl⟩
  nextId := rfl

theorem grows_of_insert {edge : Edge α} {next : Registry α}
    (inserted : registry.insert edge = .ok next) : registry.Grows edge.id next := by
  cases stored : registry.get? edge.id with
  | some old =>
      rw [registry.insert_of_get?_eq_some stored] at inserted
      cases inserted
  | none =>
      rw [registry.insert_of_get?_eq_none stored] at inserted
      cases inserted
      exact grows_withInserted stored

variable [Scalar α]

theorem Counts.grows_establish (counts : registry.Counts ids) (room : registry.nextId < lastId)
    (connection : Connection) (weight : Weight) (directed : Bool) :
    registry.Grows registry.nextId (registry.establish connection weight directed) where
  new := counts.nextId_notMem room
  keys := registry.keys_establish connection weight directed (counts.nextId_notMem room)
  stored := ⟨registry.newEdge connection weight directed, by rw [get?_establish, if_pos rfl], rfl⟩
  kept := by
    intro key old stored
    have apart : key ≠ registry.nextId :=
      ne_of_get? stored ((registry.get?_eq_none_iff _).mpr (counts.nextId_notMem room))
    rw [get?_establish, if_neg apart, stored, Option.map_some]
    split
    · exact ⟨some registry.nextId, directed, rfl⟩
    · exact ⟨old.partner, old.flags.directed, rfl⟩
  nextId := by
    have last := toNat_le_lastId registry.nextId
    have next := lt_succ_of_lt_lastId room
    rw [nextId_establish, idAfter_of_ne (UInt64.ne_of_lt room)]
    rw [UInt64.lt_iff_toNat_lt] at next
    rw [← UInt64.toNat_inj, toNat_max]
    omega

theorem Counts.grows_perform (counts : registry.Counts ids) {operation : Operation α}
    (room : operation.HasRoom registry) {id : EdgeId}
    (connected : registry.connected? operation = some id) :
    registry.Grows id (registry.perform operation) := by
  obtain ⟨rfl, room', source, target, weight, directed, connection, -, made⟩ :=
    perform_of_connected connected
  rw [made]
  exact counts.grows_establish (room' room) connection weight directed

theorem Counts.act_cases (counts : registry.Counts ids) {action : Action α}
    (room : action.HasRoom registry) :
    (∃ id, registry.added? action = some id ∧ registry.Grows id (registry.act action)) ∨
      (registry.added? action = none ∧ (registry.act action).nextId = registry.nextId ∧
        ∀ key ∈ (registry.act action).edges.keys, key ∈ registry.edges.keys) := by
  cases action with
  | operate operation =>
      cases connected : registry.connected? operation with
      | some id => exact .inl ⟨id, connected, counts.grows_perform room connected⟩
      | none =>
          have thins := thins_of_not_connected connected
          refine .inr ⟨connected, thins.nextId, ?_⟩
          intro key member
          rw [mem_keys_iff] at member ⊢
          obtain ⟨edge, stored⟩ := member
          obtain ⟨old, stored', -⟩ := thins.edge stored
          exact ⟨old, stored'⟩
  | insert edge =>
      cases outcome : registry.insert edge with
      | ok next =>
          have grows := grows_of_insert outcome
          exact .inl ⟨edge.id, by simp [added?, outcome], by simpa [act, outcome] using grows⟩
      | error refusal => exact .inr (by simp [added?, act, outcome])
  | change key change =>
      refine .inr ⟨rfl, rfl, ?_⟩
      intro other member
      rwa [act, modify, Table.keys_modify] at member

theorem Counts.act (counts : registry.Counts ids) {action : Action α}
    (room : action.HasRoom registry) :
    registry.nextId ≤ (registry.act action).nextId ∧
      (registry.act action).Counts (ids ++ (registry.added? action).toList) := by
  rcases counts.act_cases room with ⟨id, added, grows⟩ | ⟨added, same, keys⟩
  · have higher : registry.nextId ≤ (registry.act action).nextId := by
      rw [grows.nextId]
      exact le_max_left _ _
    have passed : idAfter id ≤ (registry.act action).nextId := by
      rw [grows.nextId]
      exact le_max_right _ _
    refine ⟨higher, ?_, ?_⟩
    · intro key member
      rw [grows.keys, List.mem_append, List.mem_singleton] at member
      rcases member with old | rfl
      · exact UInt64.le_trans (counts.keys key old) higher
      · exact passed
    · intro earlier member
      rw [added, Option.toList_some, List.mem_append, List.mem_singleton] at member
      rcases member with old | rfl
      · exact UInt64.le_trans (counts.ids earlier old) higher
      · exact passed
  · rw [same, added, Option.toList_none, List.append_nil]
    refine ⟨UInt64.le_refl _, ?_, ?_⟩
    · intro key member
      rw [same]
      exact counts.keys key (keys key member)
    · rw [same]
      exact counts.ids

end Registry

theorem Run.counts [Scalar α] {first now : Registry α} {ids later : List EdgeId}
    (ran : Run first later now) (counts : first.Counts ids) :
    first.nextId ≤ now.nextId ∧ now.Counts (ids ++ later) := by
  induction ran with
  | refl => exact ⟨UInt64.le_refl _, by simpa using counts⟩
  | step action _ room inductionHypothesis =>
      obtain ⟨higher, counts⟩ := inductionHypothesis
      obtain ⟨higher', counts'⟩ := counts.act room
      rw [← List.append_assoc]
      exact ⟨UInt64.le_trans higher higher', counts'⟩

/-- From any moment of a run to any later one the counter does not fall. It has passed all keys or
has come to the last id, and an edge that is connected or put in then displaces none; the id of one
that is connected is above all ids that edges were given or brought along before. -/
theorem ids_fresh_of_run [Scalar α] {curvature : α} {earlier now : Registry α}
    {ids later : List EdgeId} (ran : Run (.empty curvature) ids earlier)
    (ran' : Run earlier later now) :
    earlier.nextId ≤ now.nextId ∧
      (∀ key ∈ now.edges.keys, key < now.nextId ∨ key = lastId ∧ now.nextId = lastId) ∧
      (∀ operation id, operation.HasRoom now → now.connected? operation = some id →
        (∀ id' ∈ ids ++ later, id' < id) ∧ now.Grows id (now.perform operation)) ∧
      ∀ edge next, now.insert edge = .ok next → now.Grows edge.id next := by
  obtain ⟨-, counts⟩ := ran.counts (Registry.counts_empty curvature)
  obtain ⟨higher, counts'⟩ := ran'.counts counts
  rw [List.nil_append] at counts'
  refine ⟨higher, ?_, ?_, ?_⟩
  · intro key member
    exact (Registry.idAfter_le_iff key now.nextId).mp (counts'.keys key member)
  · intro operation id room connected
    refine ⟨?_, counts'.grows_perform room connected⟩
    obtain ⟨rfl, room', -⟩ := Registry.perform_of_connected connected
    intro id' member
    exact Registry.lt_of_idAfter_le (counts'.ids id' member) (room' room)
  · intro edge next inserted
    exact Registry.grows_of_insert inserted

/-- An edge that was given another id, one that came in under a high id and left again, and the
edges that are connected after that. -/
theorem ids_fresh_of_run_after_gap :
    ∃ earlier now : Registry Float32, Run (.empty 60) [1, 50] earlier ∧ Run earlier [51] now ∧
      (now.get? 1).map Edge.id = some 77 ∧ now.edges.keys = [1, 51] ∧
      now.connected? (.connect 7 8 default true) = some 52 ∧
      (∀ id ∈ [1, 50, 51], id < (52 : EdgeId)) ∧
      now.Grows 52 (now.perform (.connect 7 8 default true)) := by
  have start : Run (Registry.empty (60 : Float32)) _ _ := .refl
  have ran := (((start.step (.operate (.connect 1 2 default true)) (by decide)).step
    (.change 1 fun edge => { edge with id := 77 }) trivial).step
    (.insert (.plain 50 5 6 default (by decide))) trivial).step (.operate (.remove 50)) trivial
  have goOn {ids : List EdgeId} {earlier : Registry Float32} (_ : Run (.empty 60) ids earlier)
      (room : earlier.nextId < lastId) :=
    ((Run.refl.step (.operate (.connect 3 4 default false)) room).step (.operate .deselectAll)
      trivial : Run earlier _ _)
  have ran' := goOn ran (by decide)
  obtain ⟨-, -, connecting, -⟩ := ids_fresh_of_run ran ran'
  obtain ⟨above, grows⟩ := connecting (.connect 7 8 default true) 52 (by decide) rfl
  exact ⟨_, _, ran, ran', rfl, rfl, rfl, above, grows⟩

end ArcGraph
