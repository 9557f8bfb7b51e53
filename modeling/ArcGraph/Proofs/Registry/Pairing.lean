import ArcGraph.Proofs.Registry.Clearing
import ArcGraph.Proofs.Registry.Linking
import ArcGraph.Proofs.Registry.Run

/-!
Partners come in pairs.

`Paired` is what every operation of a run preserves. Its parts need each other:
an edge that is alone between its nodes has to be free of a partner for the next
connection to take it, and links have to be mutual for a removal to free the
edge that stays.
-/

namespace ArcGraph

variable {α : Type}

namespace Edge

/-- The edges run in opposite directions, and both have an arrowhead or neither has. -/
def Mirrors (edge other : Edge α) : Prop :=
  edge.source = other.target ∧ edge.target = other.source ∧
    edge.flags.directed = other.flags.directed

theorem connects_ends {edge other : Edge α} {a b : NodeId} (joins : edge.connects a b = true)
    (joins' : other.connects a b = true) : other.connects edge.source edge.target = true := by
  rw [connects_iff] at joins joins' ⊢
  rcases joins with ⟨rfl, rfl⟩ | ⟨rfl, rfl⟩
  · exact joins'
  · exact joins'.symm

theorem connects_of_mirrors {edge other : Edge α} (mirrors : edge.Mirrors other) (a b : NodeId) :
    edge.connects a b = other.connects a b := by
  obtain ⟨source, target, -⟩ := mirrors
  rw [connects_comm, connects, connects, source, target, Bool.and_comm,
    Bool.and_comm (decide (other.target = a))]

end Edge

namespace Registry

/-- Edges are stored under their own ids, which the counter has passed. A partner is stored, names
the edge back and mirrors it, and any two edges between the same nodes are partners. -/
structure Paired (registry : Registry α) : Prop where
  own : ∀ {key edge}, registry.get? key = some edge → edge.id = key
  passed : ∀ {key edge}, registry.get? key = some edge → key < registry.nextId
  linked : ∀ {key edge other}, registry.get? key = some edge → edge.partner = some other →
    ∃ edge', registry.get? other = some edge' ∧ edge'.partner = some key ∧ edge'.Mirrors edge
  joined : ∀ {a b key key' edge edge'}, registry.get? key = some edge →
    registry.get? key' = some edge' → edge.connects a b = true → edge'.connects a b = true →
    key ≠ key' → edge.partner = some key'

theorem paired_empty (curvature : α) : (empty curvature).Paired where
  own found := by simp at found
  passed found := by simp at found
  linked found := by simp at found
  joined found := by simp at found

variable {registry : Registry α}

theorem Paired.toLinked (paired : registry.Paired) : registry.Linked where
  own := paired.own
  back := by
    intro key other edge stored named
    obtain ⟨edge', stored', back, mirrors⟩ := paired.linked stored named
    refine ⟨?_, edge', stored', back⟩
    rintro rfl
    obtain rfl : edge = edge' := Option.some.inj (stored.symm.trans stored')
    exact edge.distinct mirrors.1

/-- An edge between two nodes is stored under its own id. -/
theorem Paired.get?_of_mem_between (paired : registry.Paired) {a b : NodeId} {edge : Edge α}
    (member : edge ∈ registry.between a b) :
    registry.get? edge.id = some edge ∧ edge.connects a b = true := by
  obtain ⟨⟨key, stored⟩, join⟩ := (registry.mem_between_iff edge a b).mp member
  rw [paired.own stored]
  exact ⟨stored, join⟩

theorem Paired.nodup_between (paired : registry.Paired) (a b : NodeId) :
    ((registry.between a b).map Edge.id).Nodup :=
  nodup_ids_filter paired.own _

theorem Paired.partner_of_mem_between (paired : registry.Paired) {a b : NodeId}
    {edge other : Edge α} (member : edge ∈ registry.between a b)
    (member' : other ∈ registry.between a b) (apart : edge.id ≠ other.id) :
    edge.partner = some other.id := by
  obtain ⟨stored, join⟩ := paired.get?_of_mem_between member
  obtain ⟨stored', join'⟩ := paired.get?_of_mem_between member'
  exact paired.joined stored stored' join join' apart

theorem Paired.length_between_le (paired : registry.Paired) (a b : NodeId) :
    (registry.between a b).length ≤ 2 := by
  have nodup := paired.nodup_between a b
  cases joining : registry.between a b with
  | nil => simp
  | cons first rest =>
      cases rest with
      | nil => simp
      | cons second rest =>
          cases rest with
          | nil => simp
          | cons third rest =>
              rw [joining] at nodup
              simp only [List.map_cons, List.nodup_cons, List.mem_cons, not_or] at nodup
              obtain ⟨⟨apart, apart', -⟩, ⟨apart'', -⟩, -⟩ := nodup
              have member : first ∈ registry.between a b := by simp [joining]
              have member' : second ∈ registry.between a b := by simp [joining]
              have member'' : third ∈ registry.between a b := by simp [joining]
              have named := paired.partner_of_mem_between member member' apart
              have named' := paired.partner_of_mem_between member member'' apart'
              exact absurd (Option.some.inj (named.symm.trans named')) apart''

theorem Paired.partner_of_between_eq_singleton (paired : registry.Paired) {a b : NodeId}
    {edge : Edge α} (alone : registry.between a b = [edge]) : edge.partner = none := by
  have only : edge ∈ registry.between a b := by simp [alone]
  obtain ⟨stored, join⟩ := paired.get?_of_mem_between only
  cases named : edge.partner with
  | none => rfl
  | some other =>
      obtain ⟨edge', stored', -, mirrors⟩ := paired.linked stored named
      have member : edge' ∈ registry.between a b := by
        rw [mem_between_iff, Edge.connects_of_mirrors mirrors]
        exact ⟨⟨other, stored'⟩, join⟩
      rw [alone, List.mem_singleton] at member
      exact absurd (member ▸ mirrors.1) edge.distinct

theorem Paired.sibling?_sibling? (paired : registry.Paired) {key : EdgeId} {edge : Edge α}
    (sibling : registry.sibling? key = some edge) :
    ∃ self, registry.get? key = some self ∧ self.id = key ∧
      registry.sibling? edge.id = some self := by
  simp only [sibling?, Option.bind_eq_some_iff] at sibling
  obtain ⟨other, ⟨self, stored, named⟩, stored'⟩ := sibling
  obtain ⟨edge', stored'', back, -⟩ := paired.linked stored named
  obtain rfl : edge = edge' := Option.some.inj (stored'.symm.trans stored'')
  refine ⟨self, stored, paired.own stored, ?_⟩
  simp [sibling?, paired.own stored', stored', back, stored]

/-! ### Changes that keep ties -/

/-- The invariant survives any change of the edges in place that keeps their ties and treats
arrowheads alike. -/
theorem Paired.of_changes (paired : registry.Paired) {changed : Registry α}
    (change : EdgeId → Edge α → Edge α) (nextId : changed.nextId = registry.nextId)
    (view : ∀ key, changed.get? key = (registry.get? key).map (change key))
    (keeps : ∀ key, Edge.KeepsTies (change key))
    (alike : ∀ key key' edge edge', edge.flags.directed = edge'.flags.directed →
      (change key edge).flags.directed = (change key' edge').flags.directed) :
    changed.Paired := by
  have before {key : EdgeId} {edge : Edge α} (found : changed.get? key = some edge) :
      ∃ old, registry.get? key = some old ∧ change key old = edge := by
    rw [view, Option.map_eq_some_iff] at found
    exact found
  have joins (key : EdgeId) (old : Edge α) (a b : NodeId) :
      (change key old).connects a b = old.connects a b := by
    simp only [Edge.connects, (keeps key).source, (keeps key).target]
  constructor
  case own =>
    intro key edge found
    obtain ⟨old, stored, rfl⟩ := before found
    rw [(keeps key).id, paired.own stored]
  case passed =>
    intro key edge found
    obtain ⟨old, stored, rfl⟩ := before found
    rw [nextId]
    exact paired.passed stored
  case linked =>
    intro key edge other found named
    obtain ⟨old, stored, rfl⟩ := before found
    rw [(keeps key).partner] at named
    obtain ⟨old', stored', back, source, target, directed⟩ := paired.linked stored named
    refine ⟨change other old', by rw [view, stored']; rfl, ?_, ?_, ?_, alike _ _ _ _ directed⟩
    · rw [(keeps other).partner, back]
    · rw [(keeps other).source, (keeps key).target, source]
    · rw [(keeps other).target, (keeps key).source, target]
  case joined =>
    intro a b key key' edge edge' found found' join join' apart
    obtain ⟨old, stored, rfl⟩ := before found
    obtain ⟨old', stored', rfl⟩ := before found'
    rw [joins] at join join'
    rw [(keeps key).partner]
    exact paired.joined stored stored' join join' apart

theorem Paired.mapEdges (paired : registry.Paired) {change : Edge α → Edge α}
    (keeps : Edge.KeepsTies change)
    (alike : ∀ edge edge', edge.flags.directed = edge'.flags.directed →
      (change edge).flags.directed = (change edge').flags.directed) :
    (registry.mapEdges change).Paired :=
  paired.of_changes (fun _ => change) rfl (registry.get?_mapEdges change) (fun _ => keeps)
    fun _ _ => alike

theorem Paired.modify (paired : registry.Paired) (key : EdgeId) {change : Edge α → Edge α}
    (keeps : Edge.KeepsTies change)
    (alike : ∀ edge, (change edge).flags.directed = edge.flags.directed) :
    (registry.modify key change).Paired := by
  refine paired.of_changes (fun other => if other = key then change else fun edge => edge) rfl
    (fun other => registry.get?_modify key other change) ?_ ?_
  · intro other
    by_cases same : other = key
    · simpa [same] using keeps
    · simpa [same] using Edge.keepsTies_id
  · intro other other' edge edge' directed
    by_cases same : other = key <;> by_cases same' : other' = key <;>
      simp [same, same', alike, directed]

/-! ### Taking out -/

theorem Paired.without (paired : registry.Paired) {key : EdgeId} {edge : Edge α}
    (found : registry.get? key = some edge) : (registry.without key edge.partner).Paired := by
  constructor
  case own => exact (paired.toLinked.without found).own
  case passed =>
    intro other edge' found'
    obtain ⟨-, old, stored, -⟩ := paired.toLinked.of_get?_without found found'
    exact paired.passed stored
  case linked =>
    intro other edge' far found' named
    obtain ⟨kept, old, stored, rfl⟩ := paired.toLinked.of_get?_without found found'
    obtain ⟨named, farKept⟩ := (old.forget_partner_eq_some_iff key far).mp named
    obtain ⟨old', stored', back, mirrors⟩ := paired.linked stored named
    refine ⟨old'.forget key, by simp [paired.toLinked.get?_without found, farKept, stored'], ?_, ?_⟩
    · exact (old'.forget_partner_eq_some_iff key other).mpr ⟨back, kept⟩
    · simpa [Edge.Mirrors] using mirrors
  case joined =>
    intro a b near far edge₁ edge₂ found₁ found₂ join₁ join₂ apart
    obtain ⟨-, old₁, stored₁, rfl⟩ := paired.toLinked.of_get?_without found found₁
    obtain ⟨farKept, old₂, stored₂, rfl⟩ := paired.toLinked.of_get?_without found found₂
    rw [Edge.forget_connects] at join₁ join₂
    exact (old₁.forget_partner_eq_some_iff key far).mpr
      ⟨paired.joined stored₁ stored₂ join₁ join₂ apart, farKept⟩

theorem Paired.removeAll (paired : registry.Paired) (keys : List EdgeId) :
    (registry.removeAll keys).2.Paired :=
  removeAll_induction paired (fun paired found => paired.without found) keys

/-! ### Connecting -/

/-- The partner of the connection is the one edge between its nodes and runs against it. -/
structure Fits (registry : Registry α) (connection : Connection) : Prop where
  sole : ∀ {key edge}, registry.get? key = some edge →
    edge.connects connection.source connection.target = true → connection.partner = some key
  opposed : ∀ {key}, connection.partner = some key → ∃ edge, registry.get? key = some edge ∧
    edge.source = connection.target ∧ edge.target = connection.source

theorem Paired.fits_of_plan (paired : registry.Paired) {source target : NodeId} {directed : Bool}
    {connection : Connection} (planned : registry.plan source target directed = .ok connection) :
    registry.Fits connection := by
  refine ⟨?_, registry.opposed_of_plan paired.own planned⟩
  intro key edge stored join
  rcases registry.plan_cases planned with ⟨alone, rfl, rfl, -⟩ | ⟨only, -, alone, -, named, -⟩
  · have member := (registry.mem_between_iff edge _ _).mpr ⟨⟨key, stored⟩, join⟩
    rw [alone] at member
    cases member
  · have member : only ∈ registry.between source target := by simp [alone]
    obtain ⟨found, join'⟩ := paired.get?_of_mem_between member
    obtain ⟨same, found', source', target'⟩ := registry.opposed_of_plan paired.own planned named
    obtain rfl : only = same := Option.some.inj (found.symm.trans found')
    have joins : edge.connects source target = true := by
      rw [Edge.connects_iff, ← source', ← target'] at join
      rw [Edge.connects_iff] at join' ⊢
      grind
    have member' := (registry.mem_between_iff edge source target).mpr ⟨⟨key, stored⟩, joins⟩
    rw [alone, List.mem_singleton] at member'
    rw [named, ← member', paired.own stored]

variable [Scalar α]

/-- An edge of a registry with a new connection is the new one, the partner of the connection, or
an old one that is left as it was. -/
theorem establish_cases {connection : Connection} {weight : Weight} {directed : Bool}
    {key : EdgeId} {edge : Edge α}
    (found : (registry.establish connection weight directed).get? key = some edge) :
    (key = registry.nextId ∧ edge = registry.newEdge connection weight directed) ∨
      (∃ old, registry.get? key = some old ∧ connection.partner = some key ∧
        edge = (old.withPartner (some registry.nextId)).withDirected directed) ∨
      (registry.get? key = some edge ∧ connection.partner ≠ some key) := by
  rw [get?_establish] at found
  by_cases new : key = registry.nextId
  · rw [if_pos new, Option.some.injEq] at found
    exact .inl ⟨new, found.symm⟩
  · rw [if_neg new, Option.map_eq_some_iff] at found
    obtain ⟨old, stored, rfl⟩ := found
    by_cases named : connection.partner = some key
    · exact .inr (.inl ⟨old, stored, named, if_pos named⟩)
    · exact .inr (.inr ⟨by rw [stored, if_neg named], named⟩)

theorem own_establish (own : ∀ {key edge}, registry.get? key = some edge → edge.id = key)
    {connection : Connection} {weight : Weight} {directed : Bool} {key : EdgeId} {edge : Edge α}
    (found : (registry.establish connection weight directed).get? key = some edge) :
    edge.id = key := by
  rcases establish_cases found with ⟨rfl, rfl⟩ | ⟨old, stored, -, rfl⟩ | ⟨stored, -⟩
  · rfl
  · exact (own stored : old.id = key)
  · exact own stored

theorem Paired.establish (paired : registry.Paired) {connection : Connection}
    (fits : registry.Fits connection) (room : registry.nextId < lastId) (weight : Weight)
    (directed : Bool) : (registry.establish connection weight directed).Paired := by
  have new : (registry.establish connection weight directed).get? registry.nextId =
      some (registry.newEdge connection weight directed) := by
    rw [get?_establish, if_pos rfl]
  have stays {key : EdgeId} {edge : Edge α} (stored : registry.get? key = some edge) :
      (registry.establish connection weight directed).get? key =
        some (if connection.partner = some key then
          (edge.withPartner (some registry.nextId)).withDirected directed else edge) := by
    rw [get?_establish, if_neg (UInt64.ne_of_lt (paired.passed stored)), stored, Option.map_some]
  have taken {key : EdgeId} {old : Edge α} (stored : registry.get? key = some old)
      (named : connection.partner = some key) :
      old.source = connection.target ∧ old.target = connection.source := by
    obtain ⟨edge, stored', ends⟩ := fits.opposed named
    rw [stored, Option.some.injEq] at stored'
    exact stored' ▸ ends
  constructor
  case own =>
    intro key edge found
    exact own_establish paired.own found
  case passed =>
    intro key edge found
    have next := lt_succ_of_lt_lastId room
    rcases establish_cases found with ⟨rfl, -⟩ | ⟨old, stored, -, -⟩ | ⟨stored, -⟩
    · exact next
    · exact UInt64.lt_trans (paired.passed stored) next
    · exact UInt64.lt_trans (paired.passed stored) next
  case linked =>
    intro key edge other found named
    rcases establish_cases found with ⟨rfl, rfl⟩ | ⟨old, stored, named', rfl⟩ | ⟨stored, spared⟩
    · have named : connection.partner = some other := named
      obtain ⟨edge', stored', source, target⟩ := fits.opposed named
      refine ⟨(edge'.withPartner (some registry.nextId)).withDirected directed, ?_, rfl, source,
        target, rfl⟩
      rw [stays stored', if_pos named]
    · obtain rfl : registry.nextId = other := Option.some.inj named
      obtain ⟨source, target⟩ := taken stored named'
      exact ⟨_, new, named', target.symm, source.symm, rfl⟩
    · obtain ⟨edge', stored', back, mirrors⟩ := paired.linked stored named
      -- The far edge is not taken over: the connection would have two edges between its nodes.
      have spared' : connection.partner ≠ some other := by
        intro named'
        obtain ⟨source, target⟩ := taken stored' named'
        have join : edge.connects connection.source connection.target = true := by
          rw [← Edge.connects_of_mirrors mirrors, Edge.connects_iff]
          exact .inr ⟨source, target⟩
        exact spared (fits.sole stored join)
      exact ⟨edge', by rw [stays stored', if_neg spared'], back, mirrors⟩
  case joined =>
    intro a b key key' edge edge' found found' join join' apart
    rcases establish_cases found with ⟨rfl, rfl⟩ | ⟨old, stored, named, rfl⟩ | ⟨stored, spared⟩
    · rcases establish_cases found' with ⟨rfl, -⟩ | ⟨old', stored', named', rfl⟩ | ⟨stored', -⟩
      · exact absurd rfl apart
      · exact named'
      · exact fits.sole stored' (Edge.connects_ends join join')
    · rcases establish_cases found' with
        ⟨rfl, -⟩ | ⟨old', stored', named', rfl⟩ | ⟨stored', spared'⟩
      · rfl
      · exact absurd (Option.some.inj (named.symm.trans named')) apart
      · obtain ⟨source, target⟩ := taken stored named
        have join' : edge'.connects old.source old.target = true := Edge.connects_ends join join'
        rw [source, target, Edge.connects_comm] at join'
        exact absurd (fits.sole stored' join') spared'
    · rcases establish_cases found' with ⟨rfl, rfl⟩ | ⟨old', stored', named', rfl⟩ | ⟨stored', -⟩
      · exact absurd (fits.sole stored (Edge.connects_ends join' join)) spared
      · exact paired.joined stored stored' join join' apart
      · exact paired.joined stored stored' join join' apart

theorem Paired.connect (paired : registry.Paired) {source target : NodeId} {weight : Weight}
    {directed : Bool} {id : EdgeId} {next : Registry α}
    (connected : registry.connect source target weight directed = .ok (id, next))
    (room : registry.nextId < lastId) : next.Paired := by
  obtain ⟨-, connection, planned, rfl⟩ := registry.connect_eq_ok_iff.mp connected
  exact paired.establish (paired.fits_of_plan planned) room weight directed

/-! ### Runs -/

theorem Paired.selectWith (paired : registry.Paired) (next : Bool → Bool) (p : Vec α)
    (tolerance : α) : (registry.selectWith next p tolerance).2.Paired := by
  rcases registry.selectWith_cases next p tolerance with same | ⟨key, changed⟩
  · rw [same]
    exact paired
  · rw [changed]
    exact paired.modify key (Edge.keepsTies_withSelected _) fun _ => rfl

theorem Paired.perform (paired : registry.Paired) {operation : Operation α}
    (room : operation.HasRoom registry) : (registry.perform operation).Paired := by
  cases operation with
  | connect source target weight directed =>
      cases outcome : registry.connect source target weight directed with
      | error failure => simpa only [Registry.perform, outcome] using paired
      | ok result => simpa only [Registry.perform, outcome] using paired.connect outcome room
  | connectNodes nodes source target weight directed =>
      cases outcome : registry.connectNodes nodes source target weight directed with
      | error failure => simpa only [Registry.perform, outcome] using paired
      | ok result =>
          have connected := registry.connect_of_connectNodes outcome
          simpa only [Registry.perform, outcome] using paired.connect connected room
  | remove key =>
      cases found : registry.get? key with
      | none =>
          simpa only [Registry.perform, registry.remove_of_get?_eq_none found] using paired
      | some edge =>
          simpa only [Registry.perform, registry.remove_of_get? found] using paired.without found
  | removeSelected => exact paired.removeAll _
  | removeIncident node => exact paired.removeAll _
  | setDirectedAll directed =>
      exact paired.mapEdges (Edge.keepsTies_withDirected directed) fun _ _ _ => rfl
  | setWeightedAll weighted =>
      exact paired.mapEdges (Edge.keepsTies_withWeighted weighted) fun _ _ same => same
  | updateAll nodes =>
      refine paired.mapEdges (Edge.keepsTies_updated nodes) fun edge edge' same => ?_
      obtain ⟨arc, updated⟩ := edge.updated_eq nodes
      obtain ⟨arc', updated'⟩ := edge'.updated_eq nodes
      rw [updated, updated']
      exact same
  | selectAt p tolerance => exact paired.selectWith _ p tolerance
  | deselectAt p tolerance => exact paired.selectWith _ p tolerance
  | toggleAt p tolerance => exact paired.selectWith _ p tolerance
  | selectInBox a b =>
      have inBox (edge : Edge α) : (if isInBox (a.lowerCorner b) (a.upperCorner b) edge then
          edge.withSelected true else edge) = edge.withSelected
            (isInBox (a.lowerCorner b) (a.upperCorner b) edge || edge.flags.selected) := by
        cases isInBox (a.lowerCorner b) (a.upperCorner b) edge <;> rfl
      simp only [Registry.perform, Registry.selectInBox, inBox]
      exact paired.mapEdges (Edge.keepsTies_withSelected _) fun _ _ same => same
  | deselectAll =>
      exact paired.mapEdges (Edge.keepsTies_withSelected _) fun _ _ same => same

end Registry

theorem Reachable.paired [Scalar α] {registry : Registry α} (reached : Reachable registry) :
    registry.Paired := by
  induction reached with
  | empty curvature => exact Registry.paired_empty curvature
  | step operation _ room inductionHypothesis => exact inductionHypothesis.perform room

/-- After any run the edges between two nodes are none, one that is free, or two that mirror and
name each other; so the sibling of an edge's sibling is the edge itself. -/
theorem siblings_of_reachable [Scalar α] {registry : Registry α} (reached : Reachable registry) :
    (∀ key edge, registry.get? key = some edge → edge.id = key ∧ edge.source ≠ edge.target) ∧
      (∀ a b, (registry.between a b).length ≤ 2) ∧
      (∀ a b edge other, registry.between a b = [edge, other] →
        edge.source = other.target ∧ edge.target = other.source ∧
          edge.partner = some other.id ∧ other.partner = some edge.id ∧
          edge.flags.directed = other.flags.directed) ∧
      (∀ a b edge, registry.between a b = [edge] → edge.partner = none) ∧
      ∀ key edge, registry.sibling? key = some edge →
        ∃ self, registry.get? key = some self ∧ self.id = key ∧
          registry.sibling? edge.id = some self := by
  have paired := reached.paired
  refine ⟨?_, paired.length_between_le, ?_, ?_, ?_⟩
  · intro key edge stored
    exact ⟨paired.own stored, edge.distinct⟩
  · intro a b edge other joining
    have member : edge ∈ registry.between a b := by simp [joining]
    have member' : other ∈ registry.between a b := by simp [joining]
    have apart : edge.id ≠ other.id := by
      have nodup := paired.nodup_between a b
      rw [joining] at nodup
      simpa using nodup
    have named := paired.partner_of_mem_between member member' apart
    have back := paired.partner_of_mem_between member' member apart.symm
    obtain ⟨stored, -⟩ := paired.get?_of_mem_between member
    obtain ⟨stored', -⟩ := paired.get?_of_mem_between member'
    obtain ⟨edge', found, -, source, target, directed⟩ := paired.linked stored' back
    obtain rfl : edge = edge' := Option.some.inj (stored.symm.trans found)
    exact ⟨source, target, named, back, directed⟩
  · intro a b edge alone
    exact paired.partner_of_between_eq_singleton alone
  · intro key edge sibling
    exact paired.sibling?_sibling? sibling

/-- A directed edge with its partner, both without arrowheads in the end, and a third edge that
came and went. -/
theorem siblings_of_reachable_two_nodes :
    ∃ registry : Registry Float32, Reachable registry ∧
      (∃ edge other, registry.between 1 2 = [edge, other] ∧
        edge.partner = some other.id ∧ edge.flags.directed = other.flags.directed) ∧
      registry.nextId = 4 := by
  have reached : Reachable (α := Float32) _ :=
    ((((Reachable.empty 60).step (.connect 1 2 default true) (by decide)).step
      (.connect 2 1 default true) (by decide)).step
      (.connect 2 3 default false) (by decide)).step (.removeIncident 3) trivial
      |>.step (.setDirectedAll false) trivial
  refine ⟨_, reached, ?_, rfl⟩
  obtain ⟨-, -, two, -⟩ := siblings_of_reachable reached
  have joining := two 1 2 _ _ rfl
  exact ⟨_, _, rfl, joining.2.2.1, joining.2.2.2.2⟩

end ArcGraph
