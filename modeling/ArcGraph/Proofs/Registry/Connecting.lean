import ArcGraph.Proofs.Registry.Ids
import ArcGraph.Proofs.Registry.Pairing

/-!
Connecting next to edges that came in with partners of their own.

A connection takes the one edge between its nodes for its partner, whether that
edge is free or not. An edge that came in may be its former partner across nodes,
and nobody tells that one, which goes on naming an edge that now names another.
No other link becomes one-sided.
-/

namespace ArcGraph

variable {α : Type}

namespace Registry

/-- The edge under a key names another one as its partner. -/
def Names (registry : Registry α) (key other : EdgeId) : Prop :=
  ∃ edge, registry.get? key = some edge ∧ edge.partner = some other

/-- The edge under a key names another one that does not name it back. -/
def OneSided (registry : Registry α) (key other : EdgeId) : Prop :=
  registry.Names key other ∧ ¬ registry.Names other key

/-- The edge that a connection takes for its partner has no partner yet. -/
def Free (registry : Registry α) (connection : Connection) : Prop :=
  ∀ {key edge}, connection.partner = some key → registry.get? key = some edge → edge.partner = none

/-- Edges are stored under their own ids, and none names itself. -/
structure Orderly (registry : Registry α) : Prop where
  own : ∀ {key edge}, registry.get? key = some edge → edge.id = key
  apart : ∀ {key edge}, registry.get? key = some edge → edge.partner ≠ some key

theorem orderly_empty (curvature : α) : (empty curvature).Orderly where
  own found := by simp at found
  apart found := by simp at found

variable {registry : Registry α}

theorem Orderly.names_irrefl (orderly : registry.Orderly) (key : EdgeId) :
    ¬ registry.Names key key := by
  rintro ⟨edge, stored, named⟩
  exact orderly.apart stored named

theorem Orderly.linked_iff (orderly : registry.Orderly) :
    registry.Linked ↔ ∀ key other, ¬ registry.OneSided key other := by
  constructor
  · rintro linked key other ⟨⟨edge, stored, named⟩, unanswered⟩
    obtain ⟨-, edge', stored', back⟩ := linked.back stored named
    exact unanswered ⟨edge', stored', back⟩
  · intro answered
    refine ⟨orderly.own, ?_⟩
    intro key other edge stored named
    refine ⟨?_, Classical.not_not.mp fun unanswered =>
      answered key other ⟨⟨edge, stored, named⟩, unanswered⟩⟩
    rintro rfl
    exact orderly.apart stored named

theorem Linked.names_comm (linked : registry.Linked) (key other : EdgeId) :
    registry.Names key other ↔ registry.Names other key := by
  have back {key other : EdgeId} : registry.Names key other → registry.Names other key := by
    rintro ⟨edge, stored, named⟩
    exact (linked.back stored named).2
  exact ⟨back, back⟩

theorem Orderly.thins (orderly : registry.Orderly) {later : Registry α}
    (thins : registry.Thins later) : later.Orderly := by
  constructor
  case own =>
    intro key edge stored
    obtain ⟨old, stored', continues⟩ := thins.edge stored
    rw [continues.id, orderly.own stored']
  case apart =>
    intro key edge stored named
    obtain ⟨old, stored', continues⟩ := thins.edge stored
    exact orderly.apart stored' (continues.partner_eq named)

theorem Orderly.withInserted (orderly : registry.Orderly) {edge : Edge α}
    (fresh : registry.get? edge.id = none) (resolves : registry.Resolves edge) :
    (registry.withInserted edge).Orderly := by
  constructor
  case own =>
    intro key edge' found
    exact own_withInserted orderly.own found
  case apart =>
    intro key edge' found named
    rcases withInserted_cases found with
      ⟨rfl, rfl⟩ | ⟨old, stored, ⟨-, rfl⟩ | ⟨-, rfl⟩ | ⟨-, -, rfl⟩⟩
    · have stored := resolves edge'.id named
      rw [fresh] at stored
      cases stored
    · cases named
    · exact ne_of_get? stored fresh (Option.some.inj named).symm
    · exact orderly.apart stored named

theorem Orderly.edit (orderly : registry.Orderly) {edit : Edit α}
    (resolves : edit.Resolves registry) : (registry.edit edit).Orderly :=
  edit_induction orderly (fun orderly _ => orderly.thins (thins_without _ _ _))
    (fun _ fresh resolves => orderly.withInserted fresh resolves) resolves

/-! ### Links of a connection -/

variable {connection : Connection} {weight : Weight} {directed : Bool}

theorem not_names_of_get?_eq_none {key : EdgeId} (missing : registry.get? key = none)
    (other : EdgeId) : ¬ registry.Names key other := by
  rintro ⟨edge, stored, -⟩
  rw [missing] at stored
  cases stored

/-- The partner of a planned connection is alone between its nodes, so that a partner of its own
joins others. -/
theorem Orderly.connects_former_eq_false (orderly : registry.Orderly) {source target : NodeId}
    (planned : registry.plan source target directed = .ok connection) {key other : EdgeId}
    {former : Edge α} (taken : connection.partner = some key) (named : registry.Names key other)
    (stored : registry.get? other = some former) : former.connects source target = false := by
  rcases registry.plan_cases planned with ⟨-, -, -, free⟩ | ⟨only, -, alone, -, taken', -⟩
  · rw [free] at taken
    cases taken
  · obtain rfl : only.id = key := Option.some.inj (taken'.symm.trans taken)
    rw [Bool.eq_false_iff]
    intro join
    have member := (registry.mem_between_iff former source target).mpr ⟨⟨other, stored⟩, join⟩
    rw [alone, List.mem_singleton] at member
    obtain rfl : other = only.id := by rw [← orderly.own stored, member]
    exact orderly.names_irrefl _ named

theorem Orderly.exists_of_plan (orderly : registry.Orderly) {source target : NodeId}
    (planned : registry.plan source target directed = .ok connection) {key : EdgeId}
    (taken : connection.partner = some key) : ∃ edge, registry.get? key = some edge := by
  obtain ⟨edge, stored, -⟩ := registry.opposed_of_plan orderly.own planned taken
  exact ⟨edge, stored⟩

variable [Scalar α]

/-- What an edit does a run can do. -/
theorem exists_action_of_edit (registry : Registry α) (edit : Edit α) :
    ∃ action, action.HasRoom registry ∧ registry.act action = registry.edit edit := by
  cases edit with
  | takeOut removal =>
      cases removal with
      | remove key =>
          refine ⟨.operate (.remove key), trivial, ?_⟩
          rw [act, perform, Registry.edit, takeOut]
          cases registry.remove key <;> rfl
      | removeSelected => exact ⟨.operate .removeSelected, trivial, rfl⟩
      | removeIncident node => exact ⟨.operate (.removeIncident node), trivial, rfl⟩
  | putIn edge => exact ⟨.insert edge, trivial, rfl⟩

theorem Orderly.establish (orderly : registry.Orderly)
    (fresh : registry.get? registry.nextId = none)
    (stored : ∀ {key}, connection.partner = some key → ∃ edge, registry.get? key = some edge) :
    (registry.establish connection weight directed).Orderly := by
  constructor
  case own =>
    intro key edge found
    exact own_establish orderly.own found
  case apart =>
    intro key edge found named
    rcases establish_cases found with ⟨rfl, rfl⟩ | ⟨old, stored', -, rfl⟩ | ⟨stored', -⟩
    · obtain ⟨edge, stored'⟩ := stored named
      exact ne_of_get? stored' fresh rfl
    · exact ne_of_get? stored' fresh (Option.some.inj named).symm
    · exact orderly.apart stored' named

/-- After a connection the new edge and its partner name each other; all other edges name whom they
named before. -/
theorem names_establish_iff
    (fresh : registry.get? registry.nextId = none)
    (stored : ∀ {key}, connection.partner = some key → ∃ edge, registry.get? key = some edge)
    (key other : EdgeId) :
    (registry.establish connection weight directed).Names key other ↔
      key = registry.nextId ∧ connection.partner = some other ∨
        connection.partner = some key ∧ other = registry.nextId ∨
        connection.partner ≠ some key ∧ registry.Names key other := by
  constructor
  · rintro ⟨edge, found, named⟩
    rcases establish_cases found with ⟨rfl, rfl⟩ | ⟨old, -, taken, rfl⟩ | ⟨stored', spared⟩
    · exact .inl ⟨rfl, named⟩
    · exact .inr (.inl ⟨taken, (Option.some.inj named).symm⟩)
    · exact .inr (.inr ⟨spared, edge, stored', named⟩)
  · rintro (⟨rfl, named⟩ | ⟨taken, rfl⟩ | ⟨spared, edge, stored', named⟩)
    · exact ⟨registry.newEdge connection weight directed, by rw [get?_establish, if_pos rfl], named⟩
    · obtain ⟨edge, stored'⟩ := stored taken
      refine ⟨(edge.withPartner (some registry.nextId)).withDirected directed, ?_, rfl⟩
      rw [get?_establish, if_neg (ne_of_get? stored' fresh), stored', Option.map_some, if_pos taken]
    · refine ⟨edge, ?_, named⟩
      rw [get?_establish, if_neg (ne_of_get? stored' fresh), stored', Option.map_some,
        if_neg spared]

/-- The links that are one-sided after a connection are those that were so before, but for one of
the partner, and the link by which a former partner names it. -/
theorem oneSided_establish_iff (fresh : registry.get? registry.nextId = none)
    (stored : ∀ {key}, connection.partner = some key → ∃ edge, registry.get? key = some edge)
    (key other : EdgeId) :
    (registry.establish connection weight directed).OneSided key other ↔
      connection.partner ≠ some key ∧
        (registry.OneSided key other ∨
          registry.Names key other ∧ connection.partner = some other) := by
  have nameless := not_names_of_get?_eq_none fresh
  simp only [OneSided, names_establish_iff fresh stored]
  constructor
  · rintro ⟨⟨rfl, named⟩ | ⟨taken, rfl⟩ | ⟨spared, named⟩, unanswered⟩
    · exact absurd (.inr (.inl ⟨named, rfl⟩)) unanswered
    · exact absurd (.inl ⟨rfl, taken⟩) unanswered
    · refine ⟨spared, ?_⟩
      by_cases taken : connection.partner = some other
      · exact .inr ⟨named, taken⟩
      · exact .inl ⟨named, fun back => unanswered (.inr (.inr ⟨taken, back⟩))⟩
  · rintro ⟨spared, oneSided⟩
    have named : registry.Names key other := oneSided.elim And.left And.left
    refine ⟨.inr (.inr ⟨spared, named⟩), ?_⟩
    rintro (⟨-, taken⟩ | ⟨-, rfl⟩ | ⟨spared', back⟩)
    · exact spared taken
    · exact nameless other named
    · rcases oneSided with ⟨-, unanswered⟩ | ⟨-, taken⟩
      · exact unanswered back
      · exact spared' taken

/-- Mutual links stay mutual in just those connections that take a free partner. -/
theorem Linked.establish_iff (linked : registry.Linked) (orderly : registry.Orderly)
    (fresh : registry.get? registry.nextId = none)
    (stored : ∀ {key}, connection.partner = some key → ∃ edge, registry.get? key = some edge) :
    (registry.establish connection weight directed).Linked ↔ registry.Free connection := by
  have answered := orderly.linked_iff.mp linked
  rw [(orderly.establish fresh stored).linked_iff]
  simp only [oneSided_establish_iff fresh stored, answered, false_or]
  constructor
  · intro spared key edge taken stored'
    cases named : edge.partner with
    | none => rfl
    | some former =>
        have back := (linked.names_comm key former).mp ⟨edge, stored', named⟩
        refine absurd ⟨?_, back, taken⟩ (spared former key)
        rw [taken, ne_eq, Option.some.injEq]
        rintro rfl
        exact orderly.apart stored' named
  · rintro free former key ⟨-, named, taken⟩
    obtain ⟨edge, stored', back⟩ := (linked.names_comm former key).mp named
    rw [free taken stored'] at back
    cases back

end Registry

/-- The registries that connections and edits lead to, of which the connections are made only where
they are admitted. -/
inductive Assembled [Scalar α] (admits : Registry α → Connection → Prop) : Registry α → Prop where
  | empty (curvature : α) : Assembled admits (.empty curvature)
  | connect {registry next : Registry α} {connection : Connection} {id : EdgeId}
      (source target : NodeId) (weight : Weight) (directed : Bool) :
      Assembled admits registry → registry.nextId < lastId →
        registry.plan source target directed = .ok connection →
        registry.connect source target weight directed = .ok (id, next) →
        admits registry connection → Assembled admits next
  | edit {registry : Registry α} (edit : Edit α) :
      Assembled admits registry → edit.Resolves registry → Assembled admits (registry.edit edit)

namespace Assembled

variable [Scalar α] {admits : Registry α → Connection → Prop} {registry : Registry α}

theorem run (assembled : Assembled admits registry) :
    ∃ curvature ids, Run (.empty curvature) ids registry := by
  induction assembled with
  | empty curvature => exact ⟨curvature, [], .refl⟩
  | connect source target weight directed _ room _ connected _ inductionHypothesis =>
      obtain ⟨curvature, ids, ran⟩ := inductionHypothesis
      have last := ran.step (.operate (.connect source target weight directed)) room
      simp only [Registry.act, Registry.perform, connected] at last
      exact ⟨curvature, _, last⟩
  | edit edit _ _ inductionHypothesis =>
      obtain ⟨curvature, ids, ran⟩ := inductionHypothesis
      obtain ⟨action, room, same⟩ := Registry.exists_action_of_edit _ edit
      rw [← same]
      exact ⟨curvature, _, ran.step action room⟩

theorem get?_nextId (assembled : Assembled admits registry) (room : registry.nextId < lastId) :
    registry.get? registry.nextId = none := by
  obtain ⟨curvature, ids, ran⟩ := assembled.run
  obtain ⟨-, counts⟩ := ran.counts (Registry.counts_empty curvature)
  exact (registry.get?_eq_none_iff _).mpr (counts.nextId_notMem room)

theorem orderly (assembled : Assembled admits registry) : registry.Orderly := by
  induction assembled with
  | empty curvature => exact Registry.orderly_empty curvature
  | connect _ _ _ _ assembled room _ connected _ orderly =>
      obtain ⟨-, _, planned, rfl⟩ := (Registry.connect_eq_ok_iff _).mp connected
      exact orderly.establish (assembled.get?_nextId room) (orderly.exists_of_plan planned)
  | edit edit _ resolves orderly => exact orderly.edit resolves

theorem linked (assembled : Assembled admits registry)
    (free : ∀ {registry connection}, admits registry connection → registry.Free connection) :
    registry.Linked := by
  induction assembled with
  | empty curvature => exact Registry.linked_empty curvature
  | connect _ _ _ _ assembled room planned connected admitted linked =>
      obtain ⟨-, _, planned', rfl⟩ := (Registry.connect_eq_ok_iff _).mp connected
      cases planned.symm.trans planned'
      exact (linked.establish_iff assembled.orderly (assembled.get?_nextId room)
        (assembled.orderly.exists_of_plan planned)).mpr (free admitted)
  | edit edit _ resolves linked => exact linked.edit resolves

end Assembled

/-- Links are mutual as long as connections find their partners free. Whatever happened before, a
connection makes at most one link one-sided: that of a former partner of its partner, which joins
other nodes. -/
theorem links_of_assembled [Scalar α] {admits : Registry α → Connection → Prop}
    {registry : Registry α} (assembled : Assembled admits registry) :
    ((∀ {registry connection}, admits registry connection → registry.Free connection) →
        registry.Linked) ∧
      ∀ source target weight directed id next, registry.nextId < lastId →
        registry.connect source target weight directed = .ok (id, next) →
          ∃ connection, registry.plan source target directed = .ok connection ∧
            (next.get? id).map Edge.partner = some connection.partner ∧
            (registry.Linked → (next.Linked ↔ registry.Free connection)) ∧
            (∀ key other, next.OneSided key other ↔ connection.partner ≠ some key ∧
              (registry.OneSided key other ∨
                registry.Names key other ∧ connection.partner = some other)) ∧
            ∀ key other former, connection.partner = some key → registry.Names key other →
              registry.get? other = some former → former.connects source target = false := by
  refine ⟨assembled.linked, ?_⟩
  intro source target weight directed id next room connected
  obtain ⟨rfl, connection, planned, rfl⟩ := (Registry.connect_eq_ok_iff _).mp connected
  have fresh := assembled.get?_nextId room
  have orderly := assembled.orderly
  have stored {key : EdgeId} (taken : connection.partner = some key) :=
    orderly.exists_of_plan planned taken
  have new : ((registry.establish connection weight directed).get? registry.nextId).map
      Edge.partner = some connection.partner := by
    rw [registry.get?_establish, if_pos rfl]
    rfl
  refine ⟨connection, planned, new, fun linked => linked.establish_iff orderly fresh stored,
    Registry.oneSided_establish_iff fresh stored, ?_⟩
  intro key other former taken named stored'
  exact orderly.connects_former_eq_false planned taken named stored'

/-- The first edge between two nodes, paired across nodes with one that comes in, is paired anew by
the second one. -/
theorem links_of_assembled_across_nodes :
    ∃ registry next : Registry Float32,
      Assembled Registry.Free registry ∧ registry.Linked ∧ registry.nextId < lastId ∧
        registry.connect 2 1 default true = .ok (10, next) ∧
        (next.get? 10).map Edge.partner = some (some 1) ∧ registry.Names 1 9 ∧
        next.OneSided 9 1 ∧ ¬ next.Linked := by
  have start : Assembled Registry.Free (Registry.empty (60 : Float32)) := .empty 60
  have connected := start.connect 1 2 default true (by decide) rfl rfl
    (by rintro key edge - stored; cases stored)
  have assembled := connected.edit
    (.putIn ((Edge.plain 9 5 6 default (by decide)).withPartner (some 1)))
    (by rintro - key named; cases named; rfl)
  obtain ⟨links, connecting⟩ := links_of_assembled assembled
  have linked := links id
  obtain ⟨connection, planned, new, iff, oneSided, -⟩ :=
    connecting 2 1 default true 10 _ (by decide) rfl
  obtain rfl := Except.ok.inj planned
  refine ⟨_, _, assembled, linked, by decide, rfl, new, ⟨_, rfl, rfl⟩, ?_, ?_⟩
  · exact (oneSided 9 1).mpr ⟨by decide, .inr ⟨⟨_, rfl, rfl⟩, rfl⟩⟩
  · rw [iff linked]
    intro free
    exact absurd (free rfl rfl) (Option.some_ne_none 9)

/-- The edge that came in goes on naming the first one, which names the new one. -/
theorem connect_leaves_former_partner :
    ∃ registry next : Registry Float32,
      Assembled (fun _ _ => True) registry ∧ registry.nextId < lastId ∧
        registry.connect 2 1 default true = .ok (10, next) ∧
        (next.get? 9).map Edge.partner = some (some 1) ∧
        (next.get? 1).map Edge.partner = some (some 10) := by
  have start : Assembled (fun _ _ => True) (Registry.empty (60 : Float32)) := .empty 60
  have connected := start.connect 1 2 default true (by decide) rfl rfl trivial
  have assembled := connected.edit
    (.putIn ((Edge.plain 9 5 6 default (by decide)).withPartner (some 1)))
    (by rintro - key named; cases named; rfl)
  exact ⟨_, _, assembled, by decide, rfl, rfl, rfl⟩

end ArcGraph
