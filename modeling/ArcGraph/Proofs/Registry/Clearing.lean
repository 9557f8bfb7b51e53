import ArcGraph.Proofs.Registry.View

/-!
Taking out many edges.

The edges leave one after the other, and each of them may free the partner that
it names. What is left depends on which edges are gone and not on their order,
even where links are not mutual or lead nowhere: an edge that stays loses its
partner if that one is gone and named it back.
-/

namespace ArcGraph

variable {α : Type}

namespace Table

variable {Key Value : Type} [DecidableEq Key] (table : Table Key Value) (keep : Key → Bool)

/-- The values under the keys that pass a test, in their order. -/
def filterKeys : Table Key Value where
  entries := table.entries.filter fun entry => keep entry.1
  nodup := List.Nodup.sublist (List.filter_sublist.map _) table.nodup

omit [DecidableEq Key] in
theorem keys_filterKeys : (table.filterKeys keep).keys = table.keys.filter keep := by
  simp [keys, filterKeys, List.filter_map, Function.comp_def]

theorem get?_filterKeys (key : Key) :
    (table.filterKeys keep).get? key = if keep key then table.get? key else none := by
  simp only [get?, filterKeys, List.find?_filter]
  cases kept : keep key with
  | false =>
      have missing : table.entries.find? (fun entry => keep entry.1 && decide (entry.1 = key)) =
          none := by
        rw [List.find?_eq_none]
        rintro entry - passes
        rw [Bool.and_eq_true, decide_eq_true_eq] at passes
        obtain ⟨passes, rfl⟩ := passes
        rw [kept] at passes
        cases passes
      simpa using missing
  | true =>
      congr 2
      funext entry
      by_cases same : entry.1 = key <;> simp [same, kept]

end Table

namespace Registry

variable (registry : Registry α)

/-- The keys in their order, the view, the counter and the curvature determine a registry. -/
theorem ext_get? {registry other : Registry α} (keys : registry.edges.keys = other.edges.keys)
    (view : ∀ key, registry.get? key = other.get? key) (nextId : registry.nextId = other.nextId)
    (curvature : registry.curvature = other.curvature) : registry = other := by
  obtain ⟨edges, next, curve⟩ := registry
  obtain ⟨edges', next', curve'⟩ := other
  obtain rfl : edges = edges' := Table.ext_get? keys view
  cases nextId
  cases curvature
  rfl

/-- The edge names one of those under the given keys, and that one names it back. -/
def LosesPartner (gone : List EdgeId) (edge : Edge α) : Prop :=
  ∃ key ∈ gone, edge.partner = some key ∧ (registry.get? key).bind Edge.partner = some edge.id

instance (gone : List EdgeId) (edge : Edge α) : Decidable (registry.LosesPartner gone edge) :=
  inferInstanceAs (Decidable (∃ key ∈ gone, edge.partner = some key ∧
    (registry.get? key).bind Edge.partner = some edge.id))

/-- The edge as it is when those under the given keys are gone. -/
def released (gone : List EdgeId) (edge : Edge α) : Edge α :=
  if registry.LosesPartner gone edge then edge.withPartner none else edge

/-- The registry when the edges under the given keys are gone. -/
def cleared (gone : List EdgeId) : Registry α :=
  { registry with
    edges := (registry.edges.filterKeys fun key => decide (key ∉ gone)).mapValues
      (registry.released gone) }

/-- The edge under a key as it is when it leaves, if the edges under the given keys leave one
after the other. -/
def leaving (keys : List EdgeId) (key : EdgeId) : Option (Edge α) :=
  (registry.get? key).map (registry.released (keys.takeWhile (· ≠ key)))

/-- Take out the edges under several keys, one after the other, unless one of them is missing. -/
def removeEach : Registry α → List EdgeId → Except Refusal (List (Edge α) × Registry α)
  | registry, [] => .ok ([], registry)
  | registry, key :: rest =>
    match registry.remove key with
    | .error refusal => .error refusal
    | .ok (edge, next) =>
      match next.removeEach rest with
      | .error refusal => .error refusal
      | .ok (edges, last) => .ok (edge :: edges, last)

/-- A removal takes out the edges with a property. They leave in order of drawing, without a
partner that left before them and named them back. The others stay in their order, and the same
edges taken out one by one in any order leave the same registry. -/
structure IsBatch (property : Edge α → Bool) (edges : List (Edge α)) (left : Registry α) :
    Prop where
  ids : edges.map Edge.id = (registry.edges.values.filter property).map Edge.id
  nodup : (edges.map Edge.id).Nodup
  taken : edges = (registry.edges.values.filter property).map fun edge =>
    registry.released ((edges.map Edge.id).takeWhile (· ≠ edge.id)) edge
  rest : left.edges.entries =
    (registry.edges.entries.filter fun entry => !property entry.2).map fun entry =>
      (entry.1, registry.released (edges.map Edge.id) entry.2)
  nextId : left.nextId = registry.nextId
  curvature : left.curvature = registry.curvature
  anyOrder : ∀ keys, keys.Perm (edges.map Edge.id) →
    ∃ edges', registry.removeEach keys = .ok (edges', left)

variable {registry} {gone keys : List EdgeId} {key other : EdgeId} {edge edge' : Edge α}

@[simp] theorem released_id : (registry.released gone edge).id = edge.id := by
  unfold released
  split <;> rfl

@[simp] theorem released_nil : registry.released [] edge = edge := by
  simp [released, LosesPartner]

theorem losesPartner_append_singleton (found : registry.get? key = some edge) :
    registry.LosesPartner (gone ++ [key]) edge' ↔
      registry.LosesPartner gone edge' ∨
        edge'.partner = some key ∧ edge.partner = some edge'.id := by
  simp only [LosesPartner, List.mem_append, List.mem_singleton, or_and_right, exists_or,
    exists_eq_left, found, Option.bind_some]

theorem released_eq_of_iff
    (lost : registry.LosesPartner gone edge ↔ registry.LosesPartner keys edge) :
    registry.released gone edge = registry.released keys edge := by
  by_cases loses : registry.LosesPartner gone edge
  · rw [released, if_pos loses, released, if_pos (lost.mp loses)]
  · rw [released, if_neg loses, released, if_neg (mt lost.mpr loses)]

theorem released_congr (same : ∀ key, key ∈ gone ↔ key ∈ keys) :
    registry.released gone edge = registry.released keys edge :=
  released_eq_of_iff (by simp only [LosesPartner, same])

theorem released_cons_of_ne (other : edge.partner ≠ some key) (keys : List EdgeId) :
    registry.released (key :: keys) edge = registry.released keys edge := by
  refine released_eq_of_iff ?_
  simp only [LosesPartner, List.mem_cons, or_and_right, exists_or, exists_eq_left, other,
    false_and, false_or]

theorem released_of_partner_notMem (kept : ∀ key ∈ gone, edge.partner ≠ some key) :
    registry.released gone edge = edge :=
  if_neg fun ⟨key, member, named, _⟩ => kept key member named

theorem withPartner_released (named : edge.partner = some key) :
    (registry.released gone edge).withPartner (some key) = edge := by
  unfold released
  split <;> simp [Edge.withPartner, ← named]

/-- An edge that is not gone keeps everyone who names it. -/
theorem released_partner_eq_some_iff (kept : other ∉ gone) :
    (registry.released gone edge).partner = some other ↔ edge.partner = some other := by
  unfold released
  split
  case isTrue lost =>
    obtain ⟨key, member, named, -⟩ := lost
    constructor
    · intro cleared
      cases cleared
    · intro named'
      obtain rfl : key = other := Option.some.inj (named.symm.trans named')
      exact absurd member kept
  case isFalse => exact Iff.rfl

/-- One more edge that leaves frees its partner, and only that. -/
theorem released_append_singleton (found : registry.get? key = some edge) (kept : edge'.id ∉ gone) :
    registry.released (gone ++ [key]) edge' =
      if (registry.released gone edge).partner = some edge'.id then
        (registry.released gone edge').forget key
      else registry.released gone edge' := by
  simp only [released_partner_eq_some_iff kept]
  simp only [released, losesPartner_append_singleton found]
  by_cases lost : registry.LosesPartner gone edge'
  · have free : (edge'.withPartner none).forget key = edge'.withPartner none :=
      Edge.forget_of_ne nofun
    simp only [lost, true_or, if_true, free, ite_self]
  · by_cases named : edge.partner = some edge'.id
    · simp only [lost, named, and_true, false_or, if_true, if_false, Edge.forget]
    · simp only [lost, named, and_false, or_self, if_false]

theorem keys_cleared (gone : List EdgeId) :
    (registry.cleared gone).edges.keys =
      registry.edges.keys.filter fun key => decide (key ∉ gone) := by
  rw [cleared, Table.keys_mapValues, Table.keys_filterKeys]

theorem get?_cleared (gone : List EdgeId) (key : EdgeId) :
    (registry.cleared gone).get? key =
      if key ∈ gone then none else (registry.get? key).map (registry.released gone) := by
  rw [get?, cleared, Table.get?_mapValues, Table.get?_filterKeys]
  by_cases member : key ∈ gone
  · simp [member]
  · simp [member, get?]

theorem cleared_nil : registry.cleared [] = registry := by
  apply ext_get?
  case keys => simp [keys_cleared]
  case view =>
    intro key
    rw [get?_cleared]
    cases registry.get? key <;> simp
  case nextId => rfl
  case curvature => rfl

/-- What is left depends on which edges are gone only. -/
theorem cleared_congr (same : ∀ key, key ∈ gone ↔ key ∈ keys) :
    registry.cleared gone = registry.cleared keys := by
  have release : registry.released gone = registry.released keys :=
    funext fun edge => released_congr same
  simp only [cleared, same, release]

theorem notMem_of_nodup_append_cons (nodup : (gone ++ key :: keys).Nodup) : key ∉ gone := by
  intro member
  exact (List.nodup_append.mp nodup).2.2 key member key List.mem_cons_self rfl

theorem takeWhile_ne_eq (new : key ∉ gone) :
    (gone ++ key :: keys).takeWhile (· ≠ key) = gone := by
  have others : ∀ other ∈ gone, decide (other ≠ key) = true := fun other member =>
    decide_eq_true fun same => new (same ▸ member)
  rw [List.takeWhile_append_of_pos others]
  simp

theorem leaving_eq (found : registry.get? key = some edge) (new : key ∉ gone) :
    registry.leaving (gone ++ key :: keys) key = some (registry.released gone edge) := by
  rw [leaving, found, takeWhile_ne_eq new, Option.map_some]

theorem filterMap_leaving {edges : List (Edge α)}
    (held : ∀ edge ∈ edges, registry.get? edge.id = some edge) (keys : List EdgeId) :
    (edges.map Edge.id).filterMap (registry.leaving keys) =
      edges.map fun edge => registry.released (keys.takeWhile (· ≠ edge.id)) edge := by
  induction edges with
  | nil => rfl
  | cons edge rest inductionHypothesis =>
      obtain ⟨found, others⟩ := List.forall_mem_cons.mp held
      rw [List.map_cons, List.filterMap_cons, leaving, found, Option.map_some,
        inductionHypothesis others, List.map_cons]

theorem removeAll_of_removeEach {outcome : List (Edge α) × Registry α}
    (each : registry.removeEach keys = .ok outcome) : registry.removeAll keys = outcome := by
  induction keys generalizing registry outcome with
  | nil =>
      cases each
      rfl
  | cons key rest inductionHypothesis =>
      rw [removeEach] at each
      rw [removeAll]
      cases removed : registry.remove key with
      | error refusal =>
          rw [removed] at each
          cases each
      | ok first =>
          simp only [removed] at each
          cases others : first.2.removeEach rest with
          | error refusal =>
              rw [others] at each
              cases each
          | ok last =>
              rw [others] at each
              cases each
              simp only [inductionHypothesis others]

section Own

variable (own : ∀ {key edge}, registry.get? key = some edge → edge.id = key)
include own

theorem without_cleared (found : registry.get? key = some edge) :
    (registry.cleared gone).without key (registry.released gone edge).partner =
      registry.cleared (gone ++ [key]) := by
  apply ext_get?
  case keys =>
    rw [keys_without, keys_cleared, keys_cleared, List.filter_filter]
    apply List.filter_congr
    intro other _
    by_cases same : other = key <;> simp [same]
  case view =>
    intro other
    rw [get?_without, get?_cleared, get?_cleared]
    by_cases same : other = key
    · simp [same]
    by_cases left : other ∈ gone
    · simp [left]
    cases stored : registry.get? other with
    | none => simp [same, left]
    | some edge' =>
        obtain rfl := own stored
        simp [same, left, released_append_singleton found left]
  case nextId => rfl
  case curvature => rfl

theorem removeEach_cleared (nodup : (gone ++ keys).Nodup)
    (stored : ∀ key ∈ keys, ∃ edge, registry.get? key = some edge) :
    (registry.cleared gone).removeEach keys =
      .ok (keys.filterMap (registry.leaving (gone ++ keys)), registry.cleared (gone ++ keys)) := by
  -- The head moves from the keys to those that are gone, so that the whole list of both, which
  -- decides how an edge leaves, stays the same.
  induction keys generalizing gone with
  | nil => simp [removeEach]
  | cons key keys inductionHypothesis =>
      obtain ⟨edge, found⟩ := stored key List.mem_cons_self
      have new : key ∉ gone := notMem_of_nodup_append_cons nodup
      have held : (registry.cleared gone).get? key = some (registry.released gone edge) := by
        rw [get?_cleared, if_neg new, found, Option.map_some]
      have split : gone ++ key :: keys = (gone ++ [key]) ++ keys := by simp
      have others := inductionHypothesis (split ▸ nodup)
        fun other member => stored other (List.mem_cons_of_mem key member)
      rw [removeEach, remove_of_get? _ held]
      simp only [without_cleared own found, others]
      rw [List.filterMap_cons, leaving_eq found new, split]

theorem removeEach_eq (nodup : keys.Nodup)
    (stored : ∀ key ∈ keys, ∃ edge, registry.get? key = some edge) :
    registry.removeEach keys =
      .ok (keys.filterMap (registry.leaving keys), registry.cleared keys) := by
  have each := removeEach_cleared own (List.nil_append keys ▸ nodup) stored
  rwa [cleared_nil, List.nil_append] at each

theorem removeAll_eq (nodup : keys.Nodup)
    (stored : ∀ key ∈ keys, ∃ edge, registry.get? key = some edge) :
    registry.removeAll keys =
      (keys.filterMap (registry.leaving keys), registry.cleared keys) :=
  removeAll_of_removeEach (removeEach_eq own nodup stored)

theorem map_id_leaving {left : List EdgeId}
    (stored : ∀ key ∈ left, ∃ edge, registry.get? key = some edge) :
    (left.filterMap (registry.leaving keys)).map Edge.id = left := by
  induction left with
  | nil => rfl
  | cons key left inductionHypothesis =>
      obtain ⟨edge, found⟩ := stored key List.mem_cons_self
      have others := inductionHypothesis
        fun other member => stored other (List.mem_cons_of_mem key member)
      rw [List.filterMap_cons, leaving, found, Option.map_some, List.map_cons, released_id,
        own found, others]

theorem map_id_values : registry.edges.values.map Edge.id = registry.edges.keys := by
  simp only [Table.values, Table.keys, List.map_map]
  refine List.map_congr_left fun entry member => ?_
  exact own ((registry.edges.mem_entries_iff entry.1 entry.2).mp member)

theorem nodup_ids_filter (property : Edge α → Bool) :
    ((registry.edges.values.filter property).map Edge.id).Nodup := by
  have sublist : (registry.edges.values.filter property).Sublist registry.edges.values :=
    List.filter_sublist
  refine (sublist.map Edge.id).nodup ?_
  rw [map_id_values own]
  exact registry.edges.nodup

theorem get?_of_mem_values (member : edge ∈ registry.edges.values) :
    registry.get? edge.id = some edge := by
  obtain ⟨key, stored⟩ := (registry.edges.mem_values_iff edge).mp member
  rw [own stored]
  exact stored

theorem mem_ids_filter_iff {property : Edge α → Bool} (stored : registry.get? key = some edge) :
    key ∈ (registry.edges.values.filter property).map Edge.id ↔ property edge = true := by
  simp only [List.mem_map, List.mem_filter]
  constructor
  · rintro ⟨edge', ⟨member, chosen⟩, rfl⟩
    have stored' := get?_of_mem_values own member
    obtain rfl : edge = edge' := Option.some.inj (stored.symm.trans stored')
    exact chosen
  · intro chosen
    exact ⟨edge, ⟨(registry.edges.mem_values_iff edge).mpr ⟨key, stored⟩, chosen⟩, own stored⟩

theorem isBatch_removeWhere (property : Edge α → Bool) :
    registry.IsBatch property (registry.removeWhere property).1
      (registry.removeWhere property).2 := by
  have nodup := nodup_ids_filter own property
  have held : ∀ edge ∈ registry.edges.values.filter property,
      registry.get? edge.id = some edge := fun edge member =>
    get?_of_mem_values own (List.mem_filter.mp member).1
  have stored : ∀ key ∈ (registry.edges.values.filter property).map Edge.id,
      ∃ edge, registry.get? key = some edge := by
    intro key member
    obtain ⟨edge, chosen, rfl⟩ := List.mem_map.mp member
    exact ⟨edge, held edge chosen⟩
  rw [removeWhere, removeAll_eq own nodup stored, filterMap_leaving held]
  have ids (all : List EdgeId) : ((registry.edges.values.filter property).map fun edge =>
      registry.released (all.takeWhile (· ≠ edge.id)) edge).map Edge.id =
        (registry.edges.values.filter property).map Edge.id := by
    simp only [List.map_map, Function.comp_def, released_id]
  constructor
  case ids => exact ids _
  case nodup => rwa [ids]
  case taken => rw [ids]
  case rest =>
    have kept : (registry.edges.entries.filter fun entry => decide
        (entry.1 ∉ (registry.edges.values.filter property).map Edge.id)) =
          registry.edges.entries.filter fun entry => !property entry.2 := by
      apply List.filter_congr
      intro entry member
      have found := (registry.edges.mem_entries_iff entry.1 entry.2).mp member
      simp only [mem_ids_filter_iff own found, Bool.not_eq_true, Bool.decide_eq_false]
    rw [ids, ← kept]
    rfl
  case nextId => rfl
  case curvature => rfl
  case anyOrder =>
    intro keys perm
    rw [ids] at perm
    have each' := removeEach_eq own (perm.nodup_iff.mpr nodup)
      fun key member => stored key (perm.mem_iff.mp member)
    rw [cleared_congr fun key => perm.mem_iff] at each'
    exact ⟨_, each'⟩

end Own

end Registry

/-- Where edges are stored under their own ids, and whatever partners they name, the edges at a
node and the selected edges are each taken out as one batch. -/
theorem batches_of_own {registry : Registry α}
    (own : ∀ {key edge}, registry.get? key = some edge → edge.id = key) :
    (∀ node, registry.IsBatch (fun edge => edge.touches node) (registry.removeIncident node).1
      (registry.removeIncident node).2) ∧
      registry.IsBatch (fun edge => edge.flags.selected) registry.removeSelected.1
        registry.removeSelected.2 :=
  ⟨fun _ => Registry.isBatch_removeWhere own _, Registry.isBatch_removeWhere own _⟩

/-- Two pairs of partners, and two edges whose partners do not name them or are not there. -/
def tangled : Registry Float32 where
  edges := {
    entries := [
      (1, (Edge.plain 1 1 2 default (by decide)).withPartner (some 2)),
      (2, (Edge.plain 2 2 1 default (by decide)).withPartner (some 1)),
      (3, (Edge.plain 3 2 3 default (by decide)).withPartner (some 1)),
      (5, (Edge.plain 5 3 2 default (by decide)).withPartner (some 99)),
      (6, (Edge.plain 6 5 6 default (by decide)).withPartner (some 7)),
      (7, (Edge.plain 7 1 9 default (by decide)).withPartner (some 6))]
    nodup := by decide }
  nextId := 8
  curvature := 60

/-- A node goes with one pair of partners and with one edge of the other pair. -/
theorem batches_of_own_tangled :
    (∀ key edge, tangled.get? key = some edge → edge.id = key) ∧
      (tangled.removeIncident 1).1.map (fun edge => (edge.id, edge.partner)) =
        [(1, some 2), (2, none), (7, some 6)] ∧
      (tangled.removeIncident 1).2.edges.entries.map (fun entry => (entry.1, entry.2.partner)) =
        [(3, some 1), (5, some 99), (6, none)] ∧
      ∃ edges, tangled.removeEach [7, 2, 1] = .ok (edges, (tangled.removeIncident 1).2) := by
  have own {key : EdgeId} {edge : Edge Float32} (found : tangled.get? key = some edge) :
      edge.id = key := by
    have all : ∀ entry ∈ tangled.edges.entries, entry.2.id = entry.1 := by decide
    exact all (key, edge) ((tangled.edges.mem_entries_iff key edge).mpr found)
  have batch := (batches_of_own own).1 1
  have anyOrder := batch.anyOrder [7, 2, 1] (by rw [batch.ids]; decide)
  exact ⟨fun _ _ => own, rfl, rfl, anyOrder⟩

end ArcGraph
