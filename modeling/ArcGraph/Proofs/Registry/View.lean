import ArcGraph.Registry.Selection

/-!
What the operations of a registry do to the edge under a key.

Each operation has one equation for `get?`; the proofs about runs use these
equations and do not open the operations again.
-/

namespace ArcGraph

variable {α : Type}

namespace Edge

/-- The edge without its partner, if the partner is the given one. -/
def forget (edge : Edge α) (key : EdgeId) : Edge α :=
  if edge.partner = some key then edge.withPartner none else edge

/-- The change leaves the id, the partner and the nodes of every edge as they are. -/
structure KeepsTies (change : Edge α → Edge α) : Prop where
  id : ∀ edge, (change edge).id = edge.id
  partner : ∀ edge, (change edge).partner = edge.partner
  source : ∀ edge, (change edge).source = edge.source
  target : ∀ edge, (change edge).target = edge.target

@[simp] theorem forget_id (edge : Edge α) (key : EdgeId) : (edge.forget key).id = edge.id := by
  unfold forget
  split <;> rfl

@[simp] theorem forget_source (edge : Edge α) (key : EdgeId) :
    (edge.forget key).source = edge.source := by
  unfold forget
  split <;> rfl

@[simp] theorem forget_target (edge : Edge α) (key : EdgeId) :
    (edge.forget key).target = edge.target := by
  unfold forget
  split <;> rfl

@[simp] theorem forget_flags (edge : Edge α) (key : EdgeId) :
    (edge.forget key).flags = edge.flags := by
  unfold forget
  split <;> rfl

@[simp] theorem forget_connects (edge : Edge α) (key : EdgeId) (a b : NodeId) :
    (edge.forget key).connects a b = edge.connects a b := by
  simp [connects]

theorem forget_of_ne {edge : Edge α} {key : EdgeId} (other : edge.partner ≠ some key) :
    edge.forget key = edge :=
  if_neg other

theorem forget_partner_eq_some_iff (edge : Edge α) (key other : EdgeId) :
    (edge.forget key).partner = some other ↔ edge.partner = some other ∧ other ≠ key := by
  by_cases named : edge.partner = some key
  · rw [forget, if_pos named, named, Option.some.injEq]
    constructor
    · intro cleared
      cases cleared
    · rintro ⟨same, apart⟩
      exact absurd same.symm apart
  · rw [forget_of_ne named]
    constructor
    · intro held
      exact ⟨held, fun same => named (same ▸ held)⟩
    · exact And.left

theorem withPartner_forget {edge : Edge α} {key : EdgeId} (named : edge.partner = some key) :
    (edge.forget key).withPartner (some key) = edge := by
  rw [forget, if_pos named]
  simp [withPartner, ← named]

theorem keepsTies_id : KeepsTies fun edge : Edge α => edge where
  id _ := rfl
  partner _ := rfl
  source _ := rfl
  target _ := rfl

theorem keepsTies_withDirected (directed : Bool) :
    KeepsTies fun edge : Edge α => edge.withDirected directed :=
  ⟨fun _ => rfl, fun _ => rfl, fun _ => rfl, fun _ => rfl⟩

theorem keepsTies_withWeighted (weighted : Bool) :
    KeepsTies fun edge : Edge α => edge.withWeighted weighted :=
  ⟨fun _ => rfl, fun _ => rfl, fun _ => rfl, fun _ => rfl⟩

theorem keepsTies_withSelected (selected : Edge α → Bool) :
    KeepsTies fun edge => edge.withSelected (selected edge) :=
  ⟨fun _ => rfl, fun _ => rfl, fun _ => rfl, fun _ => rfl⟩

theorem updated_eq [Scalar α] (edge : Edge α) (nodes : Nodes α) :
    ∃ arc, edge.updated nodes = { edge with arc } := by
  unfold updated
  split
  · exact ⟨_, rfl⟩
  · exact ⟨none, rfl⟩

theorem keepsTies_updated [Scalar α] (nodes : Nodes α) :
    KeepsTies fun edge : Edge α => edge.updated nodes := by
  constructor <;>
    · intro edge
      obtain ⟨arc, same⟩ := edge.updated_eq nodes
      rw [same]

theorem arc_updated_eq_some_iff [Scalar α] (edge : Edge α) (nodes : Nodes α) (arc : Arc α) :
    (edge.updated nodes).arc = some arc ↔
      ∃ start finish, nodes edge.source = some start ∧ nodes edge.target = some finish ∧
        Arc.between start finish edge.curvature = .ok arc := by
  unfold updated
  cases nodes edge.source with
  | none => simp
  | some start =>
      cases nodes edge.target with
      | none => simp
      | some finish =>
          cases outcome : Arc.between start finish edge.curvature <;>
            simp [updatedFrom, outcome, Except.toOption]

theorem connects_iff (edge : Edge α) (a b : NodeId) :
    edge.connects a b = true ↔
      edge.source = a ∧ edge.target = b ∨ edge.source = b ∧ edge.target = a := by
  simp [connects]

end Edge

/-- Change the value under a key, if a key is given. -/
def Table.modifyAt? {Key Value : Type} [DecidableEq Key] (table : Table Key Value)
    (key? : Option Key) (change : Value → Value) : Table Key Value :=
  match key? with
  | none => table
  | some key => table.modify key change

theorem Table.get?_modifyAt? {Key Value : Type} [DecidableEq Key] (table : Table Key Value)
    (key? : Option Key) (change : Value → Value) (other : Key) :
    (table.modifyAt? key? change).get? other =
      (table.get? other).map fun value => if key? = some other then change value else value := by
  cases key? with
  | none => simp [modifyAt?]
  | some key =>
      by_cases same : other = key
      · subst same
        simp [modifyAt?, get?_modify]
      · have apart : ¬ key = other := fun equal => same equal.symm
        simp [modifyAt?, get?_modify, same, apart]

theorem Table.keys_modifyAt? {Key Value : Type} [DecidableEq Key] (table : Table Key Value)
    (key? : Option Key) (change : Value → Value) :
    (table.modifyAt? key? change).keys = table.keys := by
  cases key? with
  | none => rfl
  | some key => exact table.keys_modify key change

namespace Registry

variable (registry : Registry α)

theorem get?_modify (key other : EdgeId) (change : Edge α → Edge α) :
    (registry.modify key change).get? other =
      (registry.get? other).map (if other = key then change else fun edge => edge) := by
  rw [get?, modify, Table.get?_modify]
  by_cases same : other = key <;> simp [same, get?]

theorem get?_mapEdges (change : Edge α → Edge α) (key : EdgeId) :
    (registry.mapEdges change).get? key = (registry.get? key).map change :=
  Table.get?_mapValues change registry.edges key

theorem mapEdges_mapEdges (first second : Edge α → Edge α) :
    (registry.mapEdges first).mapEdges second =
      registry.mapEdges fun edge => second (first edge) := by
  simp [mapEdges, Table.mapValues, Function.comp_def]

/-- Edges stay under their own ids when each is changed into one with the same id. -/
theorem own_of_map {registry next : Registry α}
    (own : ∀ {key edge}, registry.get? key = some edge → edge.id = key)
    {change : EdgeId → Edge α → Edge α}
    (view : ∀ key, next.get? key = (registry.get? key).map (change key))
    (id : ∀ key edge, (change key edge).id = edge.id) {key : EdgeId} {edge : Edge α}
    (stored : next.get? key = some edge) : edge.id = key := by
  rw [view, Option.map_eq_some_iff] at stored
  obtain ⟨old, stored, rfl⟩ := stored
  rw [id, own stored]

@[simp] theorem nextId_modify (key : EdgeId) (change : Edge α → Edge α) :
    (registry.modify key change).nextId = registry.nextId := rfl

@[simp] theorem nextId_mapEdges (change : Edge α → Edge α) :
    (registry.mapEdges change).nextId = registry.nextId := rfl

@[simp] theorem get?_empty (curvature : α) (key : EdgeId) :
    (empty curvature).get? key = none := rfl

theorem get?_eq_none_iff (key : EdgeId) : registry.get? key = none ↔ key ∉ registry.edges.keys :=
  registry.edges.get?_eq_none_iff key

theorem mem_keys_iff (key : EdgeId) :
    key ∈ registry.edges.keys ↔ ∃ edge, registry.get? key = some edge := by
  rw [← Table.contains_iff_mem_keys, Table.contains, Option.isSome_iff_exists]
  rfl

theorem ne_of_get? {registry : Registry α} {key other : EdgeId} {edge : Edge α}
    (stored : registry.get? key = some edge) (missing : registry.get? other = none) :
    key ≠ other := by
  rintro rfl
  rw [stored] at missing
  cases missing

theorem mem_between_iff (edge : Edge α) (a b : NodeId) :
    edge ∈ registry.between a b ↔
      (∃ key, registry.get? key = some edge) ∧ edge.connects a b = true := by
  rw [between, List.mem_filter, Table.mem_values_iff]
  rfl

/-! ### Taking out -/

/-- The registry without the edge under a key that names the given partner. -/
def without (key : EdgeId) (partner : Option EdgeId) : Registry α :=
  { registry with
    edges := (registry.edges.erase key).modifyAt? partner fun edge => edge.forget key }

theorem remove_of_get? {key : EdgeId} {edge : Edge α} (found : registry.get? key = some edge) :
    registry.remove key = .ok (edge, registry.without key edge.partner) := by
  rw [remove, found]
  cases named : edge.partner <;> simp [without, Table.modifyAt?, named, Edge.forget]

theorem remove_of_get?_eq_none {key : EdgeId} (missing : registry.get? key = none) :
    registry.remove key = .error (.unknownEdge key) := by
  rw [remove, missing]

@[simp] theorem nextId_without (key : EdgeId) (partner : Option EdgeId) :
    (registry.without key partner).nextId = registry.nextId := rfl

theorem keys_without (key : EdgeId) (partner : Option EdgeId) :
    (registry.without key partner).edges.keys =
      registry.edges.keys.filter fun other => decide (other ≠ key) := by
  rw [without, Table.keys_modifyAt?, Table.keys_erase]

theorem get?_without (key : EdgeId) (partner : Option EdgeId) (other : EdgeId) :
    (registry.without key partner).get? other =
      if other = key then none
      else (registry.get? other).map fun edge =>
        if partner = some other then edge.forget key else edge := by
  simp only [without, get?, Table.get?_modifyAt?, Table.get?_erase]
  by_cases taken : other = key <;> simp [taken]

theorem removeAll_induction {property : Registry α → Prop} {registry : Registry α}
    (start : property registry)
    (step : ∀ {registry key edge}, property registry → registry.get? key = some edge →
      property (registry.without key edge.partner))
    (keys : List EdgeId) : property (registry.removeAll keys).2 := by
  induction keys generalizing registry with
  | nil => exact start
  | cons key rest inductionHypothesis =>
      rw [removeAll]
      cases found : registry.get? key with
      | none =>
          rw [remove_of_get?_eq_none registry found]
          exact inductionHypothesis start
      | some edge =>
          rw [remove_of_get? registry found]
          exact inductionHypothesis (step start found)

/-! ### Putting in -/

/-- The registry with an edge added under its id, which no edge is stored under. -/
def withInserted (edge : Edge α) : Registry α :=
  let paired := registry.edges.modifyAt? edge.partner fun edge' => edge'.withPartner (some edge.id)
  let parted := paired.modifyAt? (registry.dispossessed? edge) fun edge' => edge'.withPartner none
  { registry with
    edges := parted.insert edge.id edge
    nextId := max registry.nextId (idAfter edge.id) }

theorem insert_of_get?_eq_none {edge : Edge α} (fresh : registry.get? edge.id = none) :
    registry.insert edge = .ok (registry.withInserted edge) := by
  have absent : registry.edges.contains edge.id = false := by
    rw [get?] at fresh
    simp [Table.contains, fresh]
  rw [insert, absent]
  cases named : edge.partner <;> cases former : registry.dispossessed? edge <;>
    simp [withInserted, Table.modifyAt?, named, former]

theorem insert_of_get?_eq_some {edge old : Edge α} (stored : registry.get? edge.id = some old) :
    registry.insert edge = .error (.duplicateId edge.id) := by
  have present : registry.edges.contains edge.id = true := by
    rw [get?] at stored
    simp [Table.contains, stored]
  rw [insert, present, if_pos rfl]

@[simp] theorem nextId_withInserted (edge : Edge α) :
    (registry.withInserted edge).nextId = max registry.nextId (idAfter edge.id) := rfl

theorem keys_withInserted {edge : Edge α} (fresh : registry.get? edge.id = none) :
    (registry.withInserted edge).edges.keys = registry.edges.keys ++ [edge.id] := by
  rw [get?_eq_none_iff] at fresh
  rw [withInserted, Table.keys_insert_of_notMem, Table.keys_modifyAt?, Table.keys_modifyAt?]
  rw [Table.keys_modifyAt?, Table.keys_modifyAt?]
  exact fresh

theorem dispossessed?_eq_some_iff (edge : Edge α) (old : EdgeId) :
    registry.dispossessed? edge = some old ↔
      ∃ other partner, edge.partner = some other ∧ registry.get? other = some partner ∧
        partner.partner = some old ∧ old ≠ edge.id := by
  simp only [dispossessed?, Option.filter_eq_some_iff, Option.bind_eq_some_iff, decide_eq_true_eq]
  constructor
  · rintro ⟨⟨partner, ⟨other, named, stored⟩, former⟩, apart⟩
    exact ⟨other, partner, named, stored, former, apart⟩
  · rintro ⟨other, partner, named, stored, former, apart⟩
    exact ⟨⟨partner, ⟨other, named, stored⟩, former⟩, apart⟩

/-- Besides the new edge an insertion changes at most two: the partner that it names, and the
former partner of that one. -/
theorem get?_withInserted (edge : Edge α) (other : EdgeId) :
    (registry.withInserted edge).get? other =
      if other = edge.id then some edge
      else (registry.get? other).map fun edge' =>
        if registry.dispossessed? edge = some other then edge'.withPartner none
        else if edge.partner = some other then edge'.withPartner (some edge.id)
        else edge' := by
  simp only [withInserted, get?, Table.get?_insert, Table.get?_modifyAt?, Option.map_map]
  by_cases own : other = edge.id
  · simp [own]
  · rw [if_neg own, if_neg own]
    congr 1
    funext edge'
    by_cases former : registry.dispossessed? edge = some other <;>
      by_cases named : edge.partner = some other <;>
      simp [former, named, Edge.withPartner]

/-! ### Connecting -/

/-- A connection is planned between nodes that no edge joins, or against the one edge that does.
The edge that is looked up is the one stored under the id of the edge that was found. -/
theorem plan_cases {source target : NodeId} {directed : Bool} {connection : Connection}
    (planned : registry.plan source target directed = .ok connection) :
    (registry.between source target = [] ∧ connection.source = source ∧
        connection.target = target ∧ connection.partner = none) ∨
      ∃ edge other, registry.between source target = [edge] ∧
        registry.get? edge.id = some other ∧ connection.partner = some edge.id ∧
        (directed = true ∧ other.source = target ∧
            connection.source = source ∧ connection.target = target ∨
          directed = false ∧
            connection.source = other.target ∧ connection.target = other.source) := by
  unfold plan at planned
  split at planned
  · cases planned
  cases joining : registry.between source target with
  | nil =>
      rw [joining] at planned
      cases planned
      exact .inl ⟨rfl, rfl, rfl, rfl⟩
  | cons edge rest =>
      rw [joining] at planned
      cases rest with
      | cons second more => cases planned
      | nil =>
          simp only [List.map_cons, List.map_nil] at planned
          cases found : registry.get? edge.id with
          | none =>
              rw [found] at planned
              cases planned
          | some other =>
              rw [found] at planned
              refine .inr ⟨edge, other, rfl, found, ?_⟩
              cases directed with
              | false =>
                  cases planned
                  exact ⟨rfl, .inr ⟨rfl, rfl, rfl⟩⟩
              | true =>
                  by_cases opposed : other.source = target
                  · simp only [opposed, if_true] at planned
                    cases planned
                    exact ⟨rfl, .inl ⟨rfl, opposed, rfl, rfl⟩⟩
                  · simp [opposed] at planned

/-- The partner of a planned connection runs against it. -/
theorem opposed_of_plan
    (own : ∀ {key edge}, registry.get? key = some edge → edge.id = key) {source target : NodeId}
    {directed : Bool} {connection : Connection}
    (planned : registry.plan source target directed = .ok connection) {key : EdgeId}
    (named : connection.partner = some key) : ∃ edge, registry.get? key = some edge ∧
      edge.source = connection.target ∧ edge.target = connection.source := by
  rcases registry.plan_cases planned with
    ⟨-, -, -, free⟩ | ⟨edge, other, alone, found, named', ends⟩
  · rw [free] at named
    cases named
  · -- The edge that was found is the one that is looked up, as it is stored under its own id.
    obtain rfl : edge.id = key := Option.some.inj (named'.symm.trans named)
    have member : edge ∈ registry.between source target := by simp [alone]
    obtain ⟨⟨key, stored⟩, join⟩ := (registry.mem_between_iff edge source target).mp member
    obtain rfl := own stored
    obtain rfl : edge = other := Option.some.inj (stored.symm.trans found)
    refine ⟨edge, stored, ?_⟩
    rw [Edge.connects_iff] at join
    rcases ends with ⟨-, back, source', target'⟩ | ⟨-, source', target'⟩
    · have distinct := edge.distinct
      grind
    · exact ⟨target'.symm, source'.symm⟩

variable [Scalar α]

/-- The edge that a connection adds. -/
def newEdge (connection : Connection) (weight : Weight) (directed : Bool) : Edge α :=
  { Edge.plain registry.nextId connection.source connection.target weight connection.distinct with
    partner := connection.partner
    flags := { directed }
    curvature := registry.curvature }

theorem get?_establish (connection : Connection) (weight : Weight) (directed : Bool)
    (key : EdgeId) :
    (registry.establish connection weight directed).get? key =
      if key = registry.nextId then some (registry.newEdge connection weight directed)
      else (registry.get? key).map fun edge =>
        if connection.partner = some key then
          (edge.withPartner (some registry.nextId)).withDirected directed
        else edge := by
  simp only [get?, establish, Table.get?_insert]
  by_cases new : key = registry.nextId
  · rw [if_pos new, if_pos new]
    rfl
  · rw [if_neg new, if_neg new]
    cases named : connection.partner with
    | none => simp
    | some other => exact Table.get?_modifyAt? registry.edges (some other) _ key

theorem keys_establish (connection : Connection) (weight : Weight) (directed : Bool)
    (new : registry.nextId ∉ registry.edges.keys) :
    (registry.establish connection weight directed).edges.keys =
      registry.edges.keys ++ [registry.nextId] := by
  rw [establish]
  cases connection.partner with
  | none => exact Table.keys_insert_of_notMem new _
  | some other =>
      rw [Table.keys_insert_of_notMem, Table.keys_modify]
      rwa [Table.keys_modify]

@[simp] theorem nextId_establish (connection : Connection) (weight : Weight) (directed : Bool) :
    (registry.establish connection weight directed).nextId = registry.nextId + 1 := rfl

/-- The id that is given back is the next one, and the edge is the one that was planned. -/
theorem connect_eq_ok_iff {source target : NodeId} {weight : Weight} {directed : Bool}
    {id : EdgeId} {next : Registry α} :
    registry.connect source target weight directed = .ok (id, next) ↔
      id = registry.nextId ∧ ∃ connection,
        registry.plan source target directed = .ok connection ∧
          next = registry.establish connection weight directed := by
  rw [connect]
  cases registry.plan source target directed with
  | error failure => simp
  | ok planned => simp [eq_comm]

theorem connect_of_connectNodes {nodes : Nodes α} {source target : NodeId} {weight : Weight}
    {directed : Bool} {id : EdgeId} {next : Registry α}
    (connected : registry.connectNodes nodes source target weight directed = .ok (id, next)) :
    registry.connect source target weight directed = .ok (id, next) := by
  unfold connectNodes at connected
  split at connected
  · cases connected
  · exact connected

/-! ### Selecting -/

/-- Selecting at a point changes at most the selection of one edge. -/
theorem selectWith_cases (next : Bool → Bool) (p : Vec α) (tolerance : α) :
    (registry.selectWith next p tolerance).2 = registry ∨
      ∃ key, (registry.selectWith next p tolerance).2 =
        registry.modify key fun edge => edge.withSelected (next edge.flags.selected) := by
  unfold selectWith
  cases registry.pick? p tolerance with
  | none => exact .inl rfl
  | some key =>
      by_cases stored : registry.edges.contains key = true
      · exact .inr ⟨key, by simp [stored]⟩
      · exact .inl (by simp [stored])

end Registry

end ArcGraph
