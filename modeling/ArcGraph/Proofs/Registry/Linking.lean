import ArcGraph.Proofs.Registry.View

/-!
Links between edges, whatever nodes they run between.

Edges that come back with ids and partners of their own may be linked across
nodes, so that pairs of opposite edges are too much to ask. What taking out and
putting in preserve is that links are mutual, and each of the two touches no
edge but those whose link it has to change.
-/

namespace ArcGraph

variable {α : Type}

inductive Removal where
  | remove (key : EdgeId)
  | removeSelected
  | removeIncident (node : NodeId)

inductive Edit (α : Type) where
  | takeOut (removal : Removal)
  | putIn (edge : Edge α)

namespace Registry

/-- The edges that a removal takes out, and the registry without them. -/
def takeOut (registry : Registry α) : Removal → List (Edge α) × Registry α
  | .remove key =>
      match registry.remove key with
      | .ok (edge, rest) => ([edge], rest)
      | .error _ => ([], registry)
  | .removeSelected => registry.removeSelected
  | .removeIncident node => registry.removeIncident node

/-- The registry after an edit. An edge that is refused is left out. -/
def edit (registry : Registry α) : Edit α → Registry α
  | .takeOut removal => (registry.takeOut removal).2
  | .putIn edge =>
      match registry.insert edge with
      | .ok next => next
      | .error _ => registry

/-- The partner that an edge names, if it names one, is stored. -/
def Resolves (registry : Registry α) (edge : Edge α) : Prop :=
  ∀ key, edge.partner = some key → (registry.get? key).isSome

/-- Edges are stored under their own ids. A partner is stored, is another edge and names the edge
back. -/
structure Linked (registry : Registry α) : Prop where
  own : ∀ {key edge}, registry.get? key = some edge → edge.id = key
  back : ∀ {key other edge}, registry.get? key = some edge → edge.partner = some other →
    other ≠ key ∧ ∃ edge', registry.get? other = some edge' ∧ edge'.partner = some key

/-- The registry `next` has the new edge on top of the edges of `registry`. The partner that it
names now names it, the former partner of that one names nobody, and all else is as it was. -/
structure Adopts (registry : Registry α) (edge : Edge α) (next : Registry α) : Prop where
  last : next.edges.keys = registry.edges.keys ++ [edge.id]
  new : next.get? edge.id = some edge
  partner : ∀ {key partner}, edge.partner = some key → registry.get? key = some partner →
    next.get? key = some (partner.withPartner (some edge.id))
  former : ∀ {key partner old former}, edge.partner = some key →
    registry.get? key = some partner → partner.partner = some old →
    registry.get? old = some former → next.get? old = some (former.withPartner none)
  others : ∀ {key other}, registry.get? key = some other → edge.partner ≠ some key →
    (∀ named partner, edge.partner = some named → registry.get? named = some partner →
      partner.partner ≠ some key) → next.get? key = some other
  nextId : next.nextId = max registry.nextId (idAfter edge.id)
  curvature : next.curvature = registry.curvature

end Registry

/-- An edge that comes in names no partner or one that is stored. -/
def Edit.Resolves (registry : Registry α) : Edit α → Prop
  | .takeOut _ => True
  | .putIn edge => registry.get? edge.id = none → registry.Resolves edge

/-- The registries that edits lead to from a first one. -/
inductive EditedFrom (first : Registry α) : Registry α → Prop where
  | refl : EditedFrom first first
  | step {registry : Registry α} (edit : Edit α) :
      EditedFrom first registry → edit.Resolves registry → EditedFrom first (registry.edit edit)

namespace Registry

theorem linked_empty (curvature : α) : (empty curvature).Linked where
  own found := by simp at found
  back found := by simp at found

variable {registry : Registry α}

theorem Linked.partner_comm (linked : registry.Linked) {key other : EdgeId} {edge edge' : Edge α}
    (stored : registry.get? key = some edge) (stored' : registry.get? other = some edge') :
    edge.partner = some other ↔ edge'.partner = some key := by
  constructor
  · intro named
    obtain ⟨-, same, found, back⟩ := linked.back stored named
    rwa [Option.some.inj (stored'.symm.trans found)]
  · intro named
    obtain ⟨-, same, found, back⟩ := linked.back stored' named
    rwa [Option.some.inj (stored.symm.trans found)]

/-! ### Taking out -/

theorem takeOut_eq_removeAll (registry : Registry α) (removal : Removal) :
    ∃ keys, registry.takeOut removal = registry.removeAll keys := by
  cases removal with
  | remove key =>
      refine ⟨[key], ?_⟩
      rw [takeOut, removeAll]
      cases registry.remove key <;> rfl
  | removeSelected => exact ⟨_, rfl⟩
  | removeIncident node => exact ⟨_, rfl⟩

theorem Linked.get?_without (linked : registry.Linked) {key : EdgeId} {edge : Edge α}
    (found : registry.get? key = some edge) (other : EdgeId) :
    (registry.without key edge.partner).get? other =
      if other = key then none else (registry.get? other).map fun edge' => edge'.forget key := by
  rw [Registry.get?_without]
  cases stored : registry.get? other with
  | none => rfl
  | some edge' =>
      by_cases named : edge.partner = some other
      · simp [named]
      · have free : edge'.partner ≠ some key := fun back =>
          named ((linked.partner_comm found stored).mpr back)
        simp [named, Edge.forget_of_ne free]

theorem Linked.of_get?_without (linked : registry.Linked) {key other : EdgeId}
    {edge edge' : Edge α} (found : registry.get? key = some edge)
    (stays : (registry.without key edge.partner).get? other = some edge') :
    other ≠ key ∧ ∃ old, registry.get? other = some old ∧ old.forget key = edge' := by
  rw [linked.get?_without found] at stays
  by_cases taken : other = key
  · simp [taken] at stays
  · rw [if_neg taken, Option.map_eq_some_iff] at stays
    exact ⟨taken, stays⟩

theorem Linked.without (linked : registry.Linked) {key : EdgeId} {edge : Edge α}
    (found : registry.get? key = some edge) : (registry.without key edge.partner).Linked := by
  constructor
  case own =>
    intro other edge' found'
    obtain ⟨-, old, stored, rfl⟩ := linked.of_get?_without found found'
    rw [Edge.forget_id, linked.own stored]
  case back =>
    intro other far edge' found' named
    obtain ⟨kept, old, stored, rfl⟩ := linked.of_get?_without found found'
    obtain ⟨named, farKept⟩ := (old.forget_partner_eq_some_iff key far).mp named
    obtain ⟨apart, old', stored', back⟩ := linked.back stored named
    refine ⟨apart, old'.forget key, ?_, ?_⟩
    · rw [linked.get?_without found, if_neg farKept, stored', Option.map_some]
    · exact (old'.forget_partner_eq_some_iff key other).mpr ⟨back, kept⟩

theorem Linked.removeAll (linked : registry.Linked) (keys : List EdgeId) :
    (registry.removeAll keys).2.Linked :=
  removeAll_induction linked (fun linked found => linked.without found) keys

theorem Linked.takeOut (linked : registry.Linked) (removal : Removal) :
    (registry.takeOut removal).2.Linked := by
  obtain ⟨keys, same⟩ := registry.takeOut_eq_removeAll removal
  rw [same]
  exact linked.removeAll keys

/-! ### Putting in -/

/-- An edge of a registry with a new edge is the new one, or an old one that lost its partner to
it, became its partner, or stayed as it was. -/
theorem withInserted_cases {edge : Edge α} {key : EdgeId} {edge' : Edge α}
    (found : (registry.withInserted edge).get? key = some edge') :
    (key = edge.id ∧ edge' = edge) ∨ ∃ old, registry.get? key = some old ∧
      (registry.dispossessed? edge = some key ∧ edge' = old.withPartner none ∨
        edge.partner = some key ∧ edge' = old.withPartner (some edge.id) ∨
        registry.dispossessed? edge ≠ some key ∧ edge.partner ≠ some key ∧ edge' = old) := by
  rw [get?_withInserted] at found
  by_cases own : key = edge.id
  · rw [if_pos own, Option.some.injEq] at found
    exact .inl ⟨own, found.symm⟩
  · rw [if_neg own, Option.map_eq_some_iff] at found
    obtain ⟨old, stored, rfl⟩ := found
    refine .inr ⟨old, stored, ?_⟩
    by_cases former : registry.dispossessed? edge = some key
    · exact .inl ⟨former, if_pos former⟩
    · by_cases named : edge.partner = some key
      · exact .inr (.inl ⟨named, by rw [if_neg former, if_pos named]⟩)
      · exact .inr (.inr ⟨former, named, by rw [if_neg former, if_neg named]⟩)

theorem own_withInserted (own : ∀ {key edge}, registry.get? key = some edge → edge.id = key)
    {edge : Edge α} {key : EdgeId} {edge' : Edge α}
    (found : (registry.withInserted edge).get? key = some edge') : edge'.id = key := by
  rcases withInserted_cases found with
    ⟨rfl, rfl⟩ | ⟨old, stored, ⟨-, rfl⟩ | ⟨-, rfl⟩ | ⟨-, -, rfl⟩⟩
  · rfl
  · exact (own stored : old.id = key)
  · exact (own stored : old.id = key)
  · exact own stored

/-- The partner that a new edge names is not the one that it takes that partner from. -/
theorem Linked.dispossessed?_ne_partner (linked : registry.Linked) {edge : Edge α} {key : EdgeId}
    (named : edge.partner = some key) : registry.dispossessed? edge ≠ some key := by
  intro former
  obtain ⟨other, partner, named', stored, former, -⟩ :=
    (registry.dispossessed?_eq_some_iff edge key).mp former
  obtain rfl : key = other := Option.some.inj (named.symm.trans named')
  exact (linked.back stored former).1 rfl

theorem Linked.adopts (linked : registry.Linked) {edge : Edge α}
    (fresh : registry.get? edge.id = none) : registry.Adopts edge (registry.withInserted edge) := by
  have stays {key : EdgeId} {other : Edge α} (stored : registry.get? key = some other) :
      (registry.withInserted edge).get? key = some
        (if registry.dispossessed? edge = some key then other.withPartner none
        else if edge.partner = some key then other.withPartner (some edge.id)
        else other) := by
    rw [get?_withInserted, if_neg (ne_of_get? stored fresh), stored, Option.map_some]
  constructor
  case last => exact registry.keys_withInserted fresh
  case new => rw [get?_withInserted, if_pos rfl]
  case partner =>
    intro key partner named stored
    rw [stays stored, if_neg (linked.dispossessed?_ne_partner named), if_pos named]
  case former =>
    intro key partner old former named stored taken stored'
    rw [stays stored', if_pos]
    exact (registry.dispossessed?_eq_some_iff edge old).mpr
      ⟨key, partner, named, stored, taken, ne_of_get? stored' fresh⟩
  case others =>
    intro key other stored spared spared'
    rw [stays stored, if_neg, if_neg spared]
    intro former
    obtain ⟨named, partner, named', stored', taken, -⟩ :=
      (registry.dispossessed?_eq_some_iff edge key).mp former
    exact spared' named partner named' stored' taken
  case nextId => rfl
  case curvature => rfl

theorem Linked.withInserted (linked : registry.Linked) {edge : Edge α}
    (fresh : registry.get? edge.id = none) (resolves : registry.Resolves edge) :
    (registry.withInserted edge).Linked := by
  have adopts := linked.adopts fresh
  constructor
  case own =>
    intro key edge' found
    exact own_withInserted linked.own found
  case back =>
    intro key far edge' found named
    rcases withInserted_cases found with
      ⟨rfl, rfl⟩ | ⟨old, stored, ⟨-, rfl⟩ | ⟨named', rfl⟩ | ⟨spared, spared', rfl⟩⟩
    · -- The new edge and the partner that it names.
      obtain ⟨partner, stored⟩ := Option.isSome_iff_exists.mp (resolves far named)
      exact ⟨ne_of_get? stored fresh, partner.withPartner (some edge'.id),
        adopts.partner named stored, rfl⟩
    · cases named
    · -- The partner that the new edge names, and the new edge.
      obtain rfl : edge.id = far := Option.some.inj named
      exact ⟨(ne_of_get? stored fresh).symm, edge, adopts.new, named'⟩
    · -- Two old partners: were one of them touched, the other would be too.
      obtain ⟨apart, edge'', stored', back⟩ := linked.back stored named
      refine ⟨apart, edge'', adopts.others stored' ?_ ?_, back⟩
      · intro named'
        apply spared
        apply (registry.dispossessed?_eq_some_iff edge key).mpr
        exact ⟨far, edge'', named', stored', back, ne_of_get? stored fresh⟩
      · intro taken partner named' stored'' former
        obtain ⟨-, same, found', back'⟩ := linked.back stored'' former
        obtain rfl : edge'' = same := Option.some.inj (stored'.symm.trans found')
        obtain rfl : key = taken := Option.some.inj (back.symm.trans back')
        exact spared' named'

/-! ### Runs -/

theorem edit_induction {property : Registry α → Prop} (start : property registry)
    (taken : ∀ {registry key edge}, property registry → registry.get? key = some edge →
      property (registry.without key edge.partner))
    (put : ∀ edge, registry.get? edge.id = none → registry.Resolves edge →
      property (registry.withInserted edge))
    {edit : Edit α} (resolves : edit.Resolves registry) : property (registry.edit edit) := by
  cases edit with
  | takeOut removal =>
      obtain ⟨keys, same⟩ := registry.takeOut_eq_removeAll removal
      rw [Registry.edit, same]
      exact removeAll_induction start taken keys
  | putIn edge =>
      cases stored : registry.get? edge.id with
      | none =>
          simp only [Registry.edit, registry.insert_of_get?_eq_none stored]
          exact put edge stored (resolves stored)
      | some old =>
          simp only [Registry.edit, registry.insert_of_get?_eq_some stored]
          exact start

theorem Linked.edit (linked : registry.Linked) {edit : Edit α} (resolves : edit.Resolves registry) :
    (registry.edit edit).Linked :=
  edit_induction linked (fun linked found => linked.without found)
    (fun _ fresh resolves => linked.withInserted fresh resolves) resolves

end Registry

theorem EditedFrom.linked {first registry : Registry α} (edited : EditedFrom first registry)
    (linked : first.Linked) : registry.Linked := by
  induction edited with
  | refl => exact linked
  | step edit _ resolves inductionHypothesis => exact inductionHypothesis.edit resolves

/-- After any edits of a registry with mutual links its links are mutual, and they stay so through
every removal and every insertion of an edge with a new id that names no partner or a stored one.
Such an edge goes in on top and changes at most the partner that it names and the former partner
of that one. -/
theorem linked_of_edited {first registry : Registry α} (linked : first.Linked)
    (edited : EditedFrom first registry) :
    registry.Linked ∧
      (∀ removal, (registry.takeOut removal).2.Linked) ∧
      ∀ edge, registry.get? edge.id = none → registry.Resolves edge →
        ∃ next, registry.insert edge = .ok next ∧ next.Linked ∧ registry.Adopts edge next := by
  have now := edited.linked linked
  refine ⟨now, now.takeOut, ?_⟩
  intro edge fresh resolves
  exact ⟨registry.withInserted edge, registry.insert_of_get?_eq_none fresh,
    now.withInserted fresh resolves, now.adopts fresh⟩

/-- An edge between other nodes takes one of two partners over. -/
theorem linked_of_edited_across_nodes :
    ∃ first registry next : Registry Float32, first.Linked ∧ EditedFrom first registry ∧
      (registry.get? 1).map Edge.partner = some (some 2) ∧
      (registry.get? 2).map Edge.partner = some (some 1) ∧
      registry.insert ((Edge.plain 9 5 6 default (by decide)).withPartner (some 1)) = .ok next ∧
      next.Linked ∧ next.edges.keys = [1, 2, 9] ∧
      (next.get? 1).map Edge.partner = some (some 9) ∧
      (next.get? 2).map Edge.partner = some none := by
  have start : EditedFrom (Registry.empty (60 : Float32)) _ := .refl
  have edited := (start.step (.putIn (.plain 1 1 2 default (by decide)))
    (by rintro - key named; cases named)).step
    (.putIn ((Edge.plain 2 2 1 default (by decide)).withPartner (some 1)))
    (by rintro - key named; cases named; rfl)
  obtain ⟨-, -, adopting⟩ := linked_of_edited (Registry.linked_empty 60) edited
  obtain ⟨next, inserted, linked, adopts⟩ := adopting
    ((Edge.plain 9 5 6 default (by decide)).withPartner (some 1)) rfl
    (by intro key named; cases named; rfl)
  have taken : next.get? 1 = some _ := adopts.partner rfl rfl
  have freed : next.get? 2 = some _ := adopts.former rfl rfl rfl rfl
  refine ⟨_, _, next, Registry.linked_empty 60, edited, rfl, rfl, inserted, linked, adopts.last,
    ?_, ?_⟩
  · rw [taken]
    rfl
  · rw [freed]
    rfl

end ArcGraph
