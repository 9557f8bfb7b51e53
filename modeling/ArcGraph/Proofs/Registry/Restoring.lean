import ArcGraph.Proofs.Registry.Pairing

/-!
Putting a batch of edges back in the order in which they were taken out.

An edge that leaves after its partner has lost its partner by then, and comes
back without it. Every other edge comes back, or stays, with the ties that it
had: the partner of an edge that leaves first is named by that edge and finds
it again.
-/

namespace ArcGraph

variable {α : Type}

namespace Registry

/-- Put edges back, one after the other. -/
def insertAll : Registry α → List (Edge α) → Except Refusal (Registry α)
  | registry, [] => .ok registry
  | registry, edge :: rest =>
    match registry.insert edge with
    | .error refusal => .error refusal
    | .ok next => next.insertAll rest

/-- Of the edges that left the whole under `done` and then `left`, those under `done` are back. -/
structure Regains (whole : Registry α) (done left : List EdgeId) (rest : Registry α) : Prop where
  nextId : rest.nextId = whole.nextId
  get? : ∀ key, rest.get? key =
    if key ∈ done then whole.leaving (done ++ left) key
    else if key ∈ left then none
    else (whole.get? key).map (whole.released left)

variable {whole rest : Registry α}

/-! ### Mutual links -/

section Linked

variable (linked : whole.Linked) {key other : EdgeId} {edge : Edge α}
  (stored : whole.get? key = some edge) (gone : List EdgeId)

include linked stored

/-- Where links are mutual, an edge loses its partner with whichever edge it names. -/
theorem Linked.losesPartner_iff :
    whole.LosesPartner gone edge ↔ ∃ other ∈ gone, edge.partner = some other := by
  constructor
  · rintro ⟨other, member, named, -⟩
    exact ⟨other, member, named⟩
  · rintro ⟨other, member, named⟩
    obtain ⟨-, edge', stored', back⟩ := linked.back stored named
    refine ⟨other, member, named, ?_⟩
    rw [stored', Option.bind_some, back, linked.own stored]

theorem Linked.released_of_partner_mem {gone : List EdgeId} (named : edge.partner = some other)
    (member : other ∈ gone) : whole.released gone edge = edge.withPartner none :=
  if_pos ((linked.losesPartner_iff stored gone).mpr ⟨other, member, named⟩)

theorem Linked.partner_released_eq_some_iff :
    (whole.released gone edge).partner = some other ↔
      edge.partner = some other ∧ other ∉ gone := by
  by_cases member : other ∈ gone
  · refine iff_of_false (fun held => ?_) fun both => both.2 member
    by_cases named : edge.partner = some other
    · rw [linked.released_of_partner_mem stored named member] at held
      cases held
    · unfold released at held
      split at held
      · cases held
      · exact named held
  · rw [released_partner_eq_some_iff member, and_iff_left member]

end Linked

/-! ### Putting back in order -/

/-- The edge that comes back next takes its partner back from nobody. -/
theorem Regains.dispossessed?_eq_none (paired : whole.Paired) {done left : List EdgeId}
    {key : EdgeId} (regains : whole.Regains done (key :: left) rest) {edge : Edge α}
    (stored : whole.get? key = some edge) :
    rest.dispossessed? (whole.released done edge) = none := by
  have linked := paired.toLinked
  rw [dispossessed?]
  cases named : (whole.released done edge).partner with
  | none => rfl
  | some other =>
      obtain ⟨named, kept⟩ := (linked.partner_released_eq_some_iff stored done).mp named
      obtain ⟨edge', stored', back, -⟩ := paired.linked stored named
      have view := regains.get? other
      rw [if_neg kept, stored', Option.map_some,
        linked.released_of_partner_mem stored' back List.mem_cons_self] at view
      rw [Option.bind_some, view]
      split <;> simp [Edge.withPartner]

theorem Regains.withInserted (paired : whole.Paired) {done left : List EdgeId} {key : EdgeId}
    (regains : whole.Regains done (key :: left) rest) (nodup : (done ++ key :: left).Nodup)
    {edge : Edge α} (stored : whole.get? key = some edge) :
    whole.Regains (done ++ [key]) left (rest.withInserted (whole.released done edge)) := by
  have own : edge.id = key := paired.own stored
  have new : key ∉ done := notMem_of_nodup_append_cons nodup
  have later : key ∉ left := (List.nodup_cons.mp (List.nodup_append.mp nodup).2.1).1
  constructor
  · rw [nextId_withInserted, regains.nextId, released_id, own]
    exact max_idAfter_of_le ((idAfter_le_iff key _).mpr (.inl (paired.passed stored)))
  · intro other
    rw [get?_withInserted, regains.dispossessed?_eq_none paired stored, released_id, own,
      regains.get?, List.append_assoc, List.singleton_append]
    have named (edge' : Edge α) (stored' : whole.get? other = some edge') (kept : other ∉ done) :
        (whole.released done edge).partner = some other ↔ edge'.partner = some key := by
      rw [released_partner_eq_some_iff kept]
      exact paired.toLinked.partner_comm stored stored'
    by_cases same : other = key
    · subst same
      simp [leaving_eq stored new]
    by_cases back : other ∈ done
    · have spared : (whole.released done edge).partner ≠ some other := by
        intro held
        exact ((paired.toLinked.partner_released_eq_some_iff stored done).mp held).2 back
      simp [same, back, spared]
    by_cases out : other ∈ left
    · simp [same, back, out]
    cases stored' : whole.get? other with
    | none => simp [same, back, out]
    | some edge' =>
        simp only [same, back, out, List.mem_append, List.mem_cons, List.not_mem_nil, or_false,
          if_false, Option.map_some, reduceCtorEq, named edge' stored' back]
        by_cases held : edge'.partner = some key
        · have others : ∀ key' ∈ left, edge'.partner ≠ some key' := by
            intro key' member held'
            obtain rfl : key = key' := Option.some.inj (held.symm.trans held')
            exact later member
          rw [if_pos held, withPartner_released held, released_of_partner_notMem others]
        · rw [if_neg held, released_cons_of_ne held]

theorem Regains.insertAll (paired : whole.Paired) {done left : List EdgeId}
    (regains : whole.Regains done left rest) (nodup : (done ++ left).Nodup)
    (stored : ∀ key ∈ left, ∃ edge, whole.get? key = some edge) :
    ∃ restored, rest.insertAll (left.filterMap (whole.leaving (done ++ left))) = .ok restored ∧
      whole.Regains (done ++ left) [] restored := by
  induction left generalizing done rest with
  | nil => exact ⟨rest, rfl, by simpa using regains⟩
  | cons key left inductionHypothesis =>
      obtain ⟨edge, found⟩ := stored key List.mem_cons_self
      have new : key ∉ done := notMem_of_nodup_append_cons nodup
      have free : rest.get? (whole.released done edge).id = none := by
        rw [released_id, paired.own found, regains.get?, if_neg new,
          if_pos List.mem_cons_self]
      have split : done ++ key :: left = (done ++ [key]) ++ left := by simp
      obtain ⟨restored, inserted, regained⟩ :=
        inductionHypothesis (regains.withInserted paired nodup found) (split ▸ nodup)
          fun other member => stored other (List.mem_cons_of_mem key member)
      refine ⟨restored, ?_, split ▸ regained⟩
      rw [List.filterMap_cons, leaving_eq found new, split]
      simp only [Registry.insertAll, insert_of_get?_eq_none rest free]
      exact inserted

/-! ### Batches -/

theorem Paired.get?_of_mem_ids_filter (paired : whole.Paired) {property : Edge α → Bool}
    {key : EdgeId} (member : key ∈ (whole.edges.values.filter property).map Edge.id) :
    ∃ edge, whole.get? key = some edge := by
  obtain ⟨edge, chosen, rfl⟩ := List.mem_map.mp member
  obtain ⟨key, stored⟩ := (whole.edges.mem_values_iff edge).mp (List.mem_filter.mp chosen).1
  exact ⟨edge, (paired.own stored).symm ▸ stored⟩

theorem mem_takeWhile_ne_total {keys : List EdgeId} {key other : EdgeId} (member : key ∈ keys)
    (member' : other ∈ keys) (apart : key ≠ other) (after : other ∉ keys.takeWhile (· ≠ key)) :
    key ∈ keys.takeWhile (· ≠ other) := by
  induction keys with
  | nil => simp at member
  | cons head keys inductionHypothesis =>
      by_cases first : head = key
      · simp [first, apart]
      · by_cases first' : head = other
        · simp [first', Ne.symm apart] at after
        · rw [List.takeWhile_cons_of_pos (by simpa using first')]
          refine List.mem_cons_of_mem head (inductionHypothesis ?_ ?_ fun inside => after ?_)
          · exact (List.mem_cons.mp member).resolve_left (Ne.symm first)
          · exact (List.mem_cons.mp member').resolve_left (Ne.symm first')
          · rw [List.takeWhile_cons_of_pos (by simpa using first)]
            exact List.mem_cons_of_mem head inside

/-- What taking out the edges under some keys and putting them back in that order comes to. -/
theorem Paired.insertAll_removeAll (paired : whole.Paired) {keys : List EdgeId}
    (nodup : keys.Nodup) (stored : ∀ key ∈ keys, ∃ edge, whole.get? key = some edge) :
    ∃ restored, (whole.removeAll keys).2.insertAll (whole.removeAll keys).1 = .ok restored ∧
      restored.nextId = whole.nextId ∧
      ∀ key, restored.get? key =
        if key ∈ keys then whole.leaving keys key else whole.get? key := by
  rw [removeAll_eq paired.own nodup stored]
  have start : whole.Regains [] keys (whole.cleared keys) :=
    ⟨rfl, fun key => by simpa using get?_cleared keys key⟩
  obtain ⟨restored, inserted, regains⟩ := start.insertAll paired nodup stored
  have none : whole.released [] = id := funext fun edge => released_nil
  refine ⟨restored, inserted, regains.nextId, fun key => ?_⟩
  simpa [none] using regains.get? key

/-- An edge leaves as it was unless its partner left before it. -/
theorem Linked.leaving_eq_get?_iff (linked : whole.Linked) {keys : List EdgeId} {key : EdgeId}
    {edge : Edge α} (stored : whole.get? key = some edge) :
    whole.leaving keys key = whole.get? key ↔
      ∀ other, edge.partner = some other → other ∉ keys.takeWhile (· ≠ key) := by
  rw [leaving, stored, Option.map_some, Option.some.injEq]
  constructor
  · intro same other named before
    rw [linked.released_of_partner_mem stored named before] at same
    rw [← same] at named
    cases named
  · intro kept
    exact released_of_partner_notMem fun other before named => kept other named before

/-- All edges leave as they were just if no two of them are partners: of two partners that leave,
the later one has lost the earlier. -/
theorem Linked.leaving_eq_get?_all_iff (linked : whole.Linked) {keys : List EdgeId}
    (stored : ∀ key ∈ keys, ∃ edge, whole.get? key = some edge) :
    (∀ key ∈ keys, whole.leaving keys key = whole.get? key) ↔
      ∀ key ∈ keys, ∀ edge other, whole.get? key = some edge → edge.partner = some other →
        other ∉ keys := by
  constructor
  · intro unchanged key member edge other found named member'
    obtain ⟨apart, edge', found', back⟩ := linked.back found named
    have after := (linked.leaving_eq_get?_iff found).mp (unchanged key member) other named
    have before := (linked.leaving_eq_get?_iff found').mp (unchanged other member') key back
    exact before (mem_takeWhile_ne_total member member' apart.symm after)
  · intro free key member
    obtain ⟨edge, found⟩ := stored key member
    refine (linked.leaving_eq_get?_iff found).mpr fun other named before => ?_
    exact free key member edge other found named (List.takeWhile_sublist _ |>.mem before)

theorem Paired.insertAll_removeWhere (paired : whole.Paired) (property : Edge α → Bool) :
    ∃ restored,
      (whole.removeWhere property).2.insertAll (whole.removeWhere property).1 = .ok restored ∧
        restored.nextId = whole.nextId ∧
        (∀ key, restored.get? key = (whole.get? key).map fun edge =>
          if key ∈ (whole.removeWhere property).1.map Edge.id ∧
              ∃ other ∈ ((whole.removeWhere property).1.map Edge.id).takeWhile (· ≠ key),
                edge.partner = some other then
            edge.withPartner none
          else edge) ∧
        ((∀ key, restored.get? key = whole.get? key) ↔
          ∀ key ∈ (whole.removeWhere property).1.map Edge.id, ∀ edge other,
            whole.get? key = some edge → edge.partner = some other →
              other ∉ (whole.removeWhere property).1.map Edge.id) := by
  have stored : ∀ key ∈ (whole.edges.values.filter property).map Edge.id,
      ∃ edge, whole.get? key = some edge := fun key => paired.get?_of_mem_ids_filter
  have nodup := nodup_ids_filter paired.own property
  obtain ⟨restored, inserted, nextId, view⟩ := paired.insertAll_removeAll nodup stored
  have ids : (whole.removeWhere property).1.map Edge.id =
      (whole.edges.values.filter property).map Edge.id := by
    rw [removeWhere, removeAll_eq paired.own nodup stored, map_id_leaving paired.own stored]
  refine ⟨restored, inserted, nextId, fun key => ?_, ?_⟩
  · rw [view, ids, leaving]
    cases found : whole.get? key with
    | none => simp
    | some edge =>
        simp only [Option.map_some, released, paired.toLinked.losesPartner_iff found]
        by_cases member : key ∈ (whole.edges.values.filter property).map Edge.id
        · simp only [member, if_true, true_and]
        · simp only [member, if_false, false_and]
  · rw [ids, ← paired.toLinked.leaving_eq_get?_all_iff stored]
    constructor
    · intro same key member
      rw [← same, view, if_pos member]
    · intro same key
      rw [view]
      split
      case isTrue member => exact same key member
      case isFalse => rfl

end Registry

/-- A batch that was taken out of a reachable registry goes back in, in the order in which it came
out, and leaves the counter and every edge as they were, except for an edge whose partner came out
before it: that one comes back without partner. So all is as before just if no two edges of the
batch are partners. -/
theorem insertAll_batch [Scalar α] {registry : Registry α} (reached : Reachable registry)
    {batch : List (Edge α)} {rest : Registry α}
    (taken : registry.removeSelected = (batch, rest) ∨
      ∃ node, registry.removeIncident node = (batch, rest)) :
    ∃ restored, rest.insertAll batch = .ok restored ∧ restored.nextId = registry.nextId ∧
      (∀ key, restored.get? key = (registry.get? key).map fun edge =>
        if key ∈ batch.map Edge.id ∧
            ∃ other ∈ (batch.map Edge.id).takeWhile (· ≠ key), edge.partner = some other then
          edge.withPartner none
        else edge) ∧
      ((∀ key, restored.get? key = registry.get? key) ↔
        ∀ key ∈ batch.map Edge.id, ∀ edge other,
          registry.get? key = some edge → edge.partner = some other →
            other ∉ batch.map Edge.id) := by
  have chosen : ∃ property, registry.removeWhere property = (batch, rest) := by
    rcases taken with taken | ⟨node, taken⟩
    · exact ⟨_, taken⟩
    · exact ⟨_, taken⟩
  obtain ⟨property, removed⟩ := chosen
  have restoring := reached.paired.insertAll_removeWhere property
  rw [removed] at restoring
  exact restoring

/-- A node with one edge goes and comes back beside two partners. -/
theorem insertAll_batch_single_edge :
    ∃ registry : Registry Float32, Reachable registry ∧
      (registry.removeIncident 3).1.map Edge.id = [3] ∧
      ∃ restored,
        (registry.removeIncident 3).2.insertAll (registry.removeIncident 3).1 = .ok restored ∧
          ∀ key, restored.get? key = registry.get? key := by
  have reached : Reachable (α := Float32) _ :=
    (((Reachable.empty 60).step (.connect 1 2 default true) (by decide)).step
      (.connect 2 1 default true) (by decide)).step (.connect 3 1 default false) (by decide)
  refine ⟨_, reached, rfl, ?_⟩
  obtain ⟨restored, inserted, -, -, exactly⟩ := insertAll_batch reached (.inr ⟨3, rfl⟩)
  refine ⟨restored, inserted, exactly.mpr ?_⟩
  intro key member edge other found named
  obtain rfl : key = 3 := List.mem_singleton.mp member
  cases found
  cases named

/-- Two partners go with a node: the first comes back naming the second, which names nobody. -/
theorem insertAll_batch_parts_partners :
    ∃ registry : Registry Float32, Reachable registry ∧
      (registry.get? 2).map Edge.partner = some (some 1) ∧
      ∃ restored,
        (registry.removeIncident 1).2.insertAll (registry.removeIncident 1).1 = .ok restored ∧
          (restored.get? 1).map Edge.partner = some (some 2) ∧
          (restored.get? 2).map Edge.partner = some none := by
  have reached : Reachable (α := Float32) _ :=
    ((Reachable.empty 60).step (.connect 1 2 default true) (by decide)).step
      (.connect 2 1 default true) (by decide)
  exact ⟨_, reached, rfl, _, rfl, rfl, rfl⟩

end ArcGraph
