import ArcGraph.Proofs.Registry.Ids
import ArcGraph.Proofs.Registry.Restoring

/-!
Putting edges back in the opposite order to that in which they were taken out.

Each insertion undoes one removal: the partner that the edge left behind is
there again, without a partner of its own, and is named by the edge. So nothing
is lost, whichever edges were taken out and in whichever batches. Only the order
of drawing changes, as edges that come back come in on top.
-/

namespace ArcGraph

variable {α : Type}

namespace Registry

/-- Links are mutual, and the counter has passed every key or has come with it to the last id. -/
structure WellLinked (registry : Registry α) : Prop extends registry.Linked where
  passed : ∀ {key edge}, registry.get? key = some edge →
    key < registry.nextId ∨ key = lastId ∧ registry.nextId = lastId

theorem Counts.wellLinked {registry : Registry α} {ids : List EdgeId}
    (counts : registry.Counts ids) (linked : registry.Linked) : registry.WellLinked where
  toLinked := linked
  passed := by
    intro key edge stored
    have member : key ∈ registry.edges.keys := (registry.mem_keys_iff key).mpr ⟨edge, stored⟩
    exact (idAfter_le_iff key registry.nextId).mp (counts.keys key member)

/-- The edges that removals take out one after the other, in this order, and the registry without
them. -/
def takeOutAll : Registry α → List Removal → List (Edge α) × Registry α
  | registry, [] => ([], registry)
  | registry, removal :: rest =>
    let (edges, next) := registry.takeOut removal
    let (more, last) := next.takeOutAll rest
    (edges ++ more, last)

variable {registry : Registry α}

theorem removeAll_append (registry : Registry α) (keys keys' : List EdgeId) :
    registry.removeAll (keys ++ keys') =
      ((registry.removeAll keys).1 ++ ((registry.removeAll keys).2.removeAll keys').1,
        ((registry.removeAll keys).2.removeAll keys').2) := by
  induction keys generalizing registry with
  | nil => rfl
  | cons key keys inductionHypothesis =>
      rw [List.cons_append, removeAll, removeAll]
      cases registry.remove key with
      | error refusal => exact inductionHypothesis registry
      | ok removed => simp only [inductionHypothesis, List.cons_append]

theorem takeOutAll_eq_removeAll (registry : Registry α) (removals : List Removal) :
    ∃ keys, registry.takeOutAll removals = registry.removeAll keys := by
  induction removals generalizing registry with
  | nil => exact ⟨[], rfl⟩
  | cons removal rest inductionHypothesis =>
      obtain ⟨keys, first⟩ := registry.takeOut_eq_removeAll removal
      obtain ⟨keys', others⟩ := inductionHypothesis (registry.takeOut removal).2
      refine ⟨keys ++ keys', ?_⟩
      rw [removeAll_append, ← first, ← others]
      rfl

theorem insertAll_append {middle : Registry α} {edges : List (Edge α)}
    (inserted : registry.insertAll edges = .ok middle) (more : List (Edge α)) :
    registry.insertAll (edges ++ more) = middle.insertAll more := by
  induction edges generalizing registry with
  | nil =>
      cases inserted
      rfl
  | cons edge edges inductionHypothesis =>
      rw [insertAll] at inserted
      rw [List.cons_append, insertAll]
      cases outcome : registry.insert edge with
      | error refusal =>
          rw [outcome] at inserted
          cases inserted
      | ok next =>
          rw [outcome] at inserted
          exact inductionHypothesis inserted

theorem WellLinked.without (linked : registry.WellLinked) {key : EdgeId} {edge : Edge α}
    (found : registry.get? key = some edge) :
    (registry.without key edge.partner).WellLinked where
  toLinked := linked.toLinked.without found
  passed := by
    intro other edge' stored
    obtain ⟨old, stored, -⟩ := (registry.thins_without key edge.partner).edge stored
    exact linked.passed stored

/-- The two registries differ in nothing but the order of drawing. -/
structure Agrees (registry other : Registry α) : Prop where
  get? : ∀ key, registry.get? key = other.get? key
  nextId : registry.nextId = other.nextId
  curvature : registry.curvature = other.curvature

/-- Putting an edge back undoes taking it out. -/
theorem WellLinked.agrees_withInserted (linked : registry.WellLinked) {key : EdgeId}
    {edge : Edge α} (found : registry.get? key = some edge) {rest : Registry α}
    (agrees : rest.Agrees (registry.without key edge.partner)) :
    rest.get? edge.id = none ∧ (rest.withInserted edge).Agrees registry := by
  obtain rfl := linked.own found
  have view (other : EdgeId) : rest.get? other =
      if other = edge.id then none
      else (registry.get? other).map fun edge' => edge'.forget edge.id := by
    rw [agrees.get?, linked.get?_without found]
  -- The partner has been without a partner since the edge left it.
  have takesNobody : rest.dispossessed? edge = none := by
    rw [Option.eq_none_iff_forall_ne_some]
    intro former dispossessed
    obtain ⟨other, partner, named, stored, former, -⟩ :=
      (rest.dispossessed?_eq_some_iff edge former).mp dispossessed
    obtain ⟨apart, old, stored', back⟩ := linked.back found named
    rw [view, if_neg apart, stored', Option.map_some, Option.some.injEq] at stored
    rw [← stored, Edge.forget_partner_eq_some_iff, back, Option.some.injEq] at former
    exact former.2 former.1.symm
  refine ⟨by rw [view, if_pos rfl], ?_, ?_, agrees.curvature⟩
  · intro other
    rw [get?_withInserted, takesNobody, view]
    by_cases own : other = edge.id
    · rw [if_pos own, own, found]
    · rw [if_neg own, if_neg own]
      cases stored : registry.get? other with
      | none => rfl
      | some edge' =>
          simp only [Option.map_some, reduceCtorEq, if_false, Option.some.injEq]
          by_cases named : edge.partner = some other
          · rw [if_pos named]
            exact Edge.withPartner_forget ((linked.partner_comm found stored).mp named)
          · rw [if_neg named]
            exact Edge.forget_of_ne fun back => named ((linked.partner_comm found stored).mpr back)
  · rw [nextId_withInserted, agrees.nextId, nextId_without]
    exact max_idAfter_of_le ((idAfter_le_iff _ _).mpr (linked.passed found))

theorem WellLinked.insertAll_reverse (linked : registry.WellLinked) (keys : List EdgeId) :
    ∃ restored,
      (registry.removeAll keys).2.insertAll (registry.removeAll keys).1.reverse = .ok restored ∧
        restored.Agrees registry ∧
        (registry.removeAll keys).2.edges.keys = registry.edges.keys.filter
          (fun key => decide (key ∉ (registry.removeAll keys).1.map Edge.id)) ∧
        restored.edges.keys = (registry.removeAll keys).2.edges.keys ++
          ((registry.removeAll keys).1.map Edge.id).reverse := by
  induction keys generalizing registry with
  | nil =>
      refine ⟨registry, rfl, ⟨fun _ => rfl, rfl, rfl⟩, ?_, by simp [removeAll]⟩
      exact (List.filter_eq_self.mpr (by simp [removeAll])).symm
  | cons key keys inductionHypothesis =>
      rw [removeAll]
      cases found : registry.get? key with
      | none =>
          rw [registry.remove_of_get?_eq_none found]
          exact inductionHypothesis linked
      | some edge =>
          rw [registry.remove_of_get? found]
          -- The first edge to leave is the last to come back: all others are back by then.
          obtain ⟨middle, inserted, agrees, left, order⟩ :=
            inductionHypothesis (linked.without found)
          obtain ⟨free, agrees'⟩ := linked.agrees_withInserted found agrees
          refine ⟨middle.withInserted edge, ?_, agrees', ?_, ?_⟩
          · rw [List.reverse_cons, insertAll_append inserted, insertAll,
              middle.insert_of_get?_eq_none free]
            rfl
          · rw [left, registry.keys_without, List.filter_filter]
            apply List.filter_congr
            intro other _
            by_cases own : other = key <;> simp [own, linked.own found]
          · rw [middle.keys_withInserted free, order]
            simp

end Registry

/-- Edges taken out of a well linked registry by any removals go back in, the last one first, and
then the counter and every edge are as they were before. The edges that stayed are drawn in their
old order, and those that came back on top of them. -/
theorem insertAll_reverse_takeOutAll {registry : Registry α} (linked : registry.WellLinked)
    (removals : List Removal) {edges : List (Edge α)} {rest : Registry α}
    (taken : registry.takeOutAll removals = (edges, rest)) :
    ∃ restored, rest.insertAll edges.reverse = .ok restored ∧
      restored.nextId = registry.nextId ∧ (∀ key, restored.get? key = registry.get? key) ∧
      rest.edges.keys =
        registry.edges.keys.filter (fun key => decide (key ∉ edges.map Edge.id)) ∧
      restored.edges.keys = rest.edges.keys ++ (edges.map Edge.id).reverse := by
  obtain ⟨keys, same⟩ := registry.takeOutAll_eq_removeAll removals
  obtain ⟨restored, inserted, agrees, left, order⟩ := linked.insertAll_reverse keys
  rw [← same, taken] at inserted left order
  exact ⟨restored, inserted, agrees.nextId, agrees.get?, left, order⟩

/-- Two pairs of partners across nodes, one of them with the last id of all. The one pair is taken
out whole, and of the other the edge with the smaller id. -/
theorem insertAll_reverse_takeOutAll_two_pairs :
    ∃ (registry : Registry Float32) (edges : List (Edge Float32))
      (rest restored : Registry Float32),
      registry.WellLinked ∧ registry.edges.keys = [1, 2, lastId, 3] ∧ registry.nextId = lastId ∧
      registry.takeOutAll [.remove 1, .removeIncident 2, .remove 7, .removeSelected] =
        (edges, rest) ∧
      edges.map Edge.id = [1, 2, 3] ∧
      edges.map Edge.partner = [some lastId, some 3, none] ∧
      rest.insertAll edges.reverse = .ok restored ∧ restored.nextId = lastId ∧
      (∀ key, restored.get? key = registry.get? key) ∧
      restored.edges.keys = [lastId, 3, 2, 1] := by
  have start : Run (Registry.empty (60 : Float32)) _ _ := .refl
  have start' : EditedFrom (Registry.empty (60 : Float32)) _ := .refl
  have ran := (((start.step (.insert (.plain 1 1 2 default (by decide))) trivial).step
    (.insert (.plain 2 2 1 default (by decide))) trivial).step
    (.insert ((Edge.plain lastId 5 6 default (by decide)).withPartner (some 1))) trivial).step
    (.insert ((Edge.plain 3 2 3 default (by decide)).withPartner (some 2))) trivial
  have edited := (((start'.step (.putIn (.plain 1 1 2 default (by decide)))
    (by rintro - key named; cases named)).step (.putIn (.plain 2 2 1 default (by decide)))
    (by rintro - key named; cases named)).step
    (.putIn ((Edge.plain lastId 5 6 default (by decide)).withPartner (some 1)))
    (by rintro - key named; cases named; rfl)).step
    (.putIn ((Edge.plain 3 2 3 default (by decide)).withPartner (some 2)))
    (by rintro - key named; cases named; rfl)
  have linked := (ran.counts (Registry.counts_empty 60)).2.wellLinked
    (edited.linked (Registry.linked_empty 60))
  obtain ⟨restored, inserted, nextId, view, -, order⟩ := insertAll_reverse_takeOutAll linked
    [.remove 1, .removeIncident 2, .remove 7, .removeSelected] rfl
  exact ⟨_, _, _, restored, linked, rfl, rfl, rfl, rfl, rfl, inserted, nextId, view, order⟩

end ArcGraph
