import ArcGraph.Proofs.Registry.View

/-!
Runs of a registry.

A run starts from the empty registry and performs operations in any order. An
operation that is refused leaves the registry as it is.
-/

namespace ArcGraph

variable {α : Type}

/-- The largest id. A connection under it would overflow the counter of ids. -/
def lastId : EdgeId :=
  UInt64.ofNat (UInt64.size - 1)

theorem lt_succ_of_lt_lastId {id : EdgeId} (room : id < lastId) : id < id + 1 := by
  rw [UInt64.lt_iff_toNat_lt] at room ⊢
  have last : lastId.toNat = 2 ^ 64 - 1 := rfl
  have succ : (id + 1).toNat = (id.toNat + 1) % 2 ^ 64 := UInt64.toNat_add id 1
  omega

theorem toNat_le_lastId (id : EdgeId) : id.toNat ≤ lastId.toNat :=
  Nat.le_pred_of_lt id.toNat_lt

theorem toNat_max (a b : EdgeId) : (max a b).toNat = max a.toNat b.toNat := by
  change (if a ≤ b then b else a).toNat = max a.toNat b.toNat
  split
  case isTrue le =>
    rw [UInt64.le_iff_toNat_le] at le
    omega
  case isFalse gt =>
    rw [UInt64.le_iff_toNat_le] at gt
    omega

namespace Registry

theorem idAfter_lastId : idAfter lastId = lastId :=
  if_pos rfl

theorem idAfter_of_ne {id : EdgeId} (other : id ≠ lastId) : idAfter id = id + 1 :=
  if_neg other

theorem toNat_idAfter (id : EdgeId) : (idAfter id).toNat = min (id.toNat + 1) lastId.toNat := by
  by_cases last : id = lastId
  · rw [last, idAfter_lastId]
    omega
  · have below : id.toNat < lastId.toNat := by
      have apart : id.toNat ≠ lastId.toNat := fun same => last (UInt64.toNat_inj.mp same)
      have := toNat_le_lastId id
      omega
    have last' : lastId.toNat = 2 ^ 64 - 1 := rfl
    have succ : (id + 1).toNat = (id.toNat + 1) % 2 ^ 64 := UInt64.toNat_add id 1
    rw [idAfter_of_ne last]
    omega

/-- The counter has passed an id, or both have come to the last one. -/
theorem idAfter_le_iff (id next : EdgeId) :
    idAfter id ≤ next ↔ id < next ∨ id = lastId ∧ next = lastId := by
  have := toNat_le_lastId id
  have := toNat_le_lastId next
  rw [UInt64.le_iff_toNat_le, toNat_idAfter, UInt64.lt_iff_toNat_lt, ← UInt64.toNat_inj,
    ← UInt64.toNat_inj]
  omega

theorem max_idAfter_of_le {id next : EdgeId} (passed : idAfter id ≤ next) :
    max next (idAfter id) = next := by
  rw [UInt64.le_iff_toNat_le] at passed
  rw [← UInt64.toNat_inj, toNat_max]
  omega

end Registry

/-- An operation that leaves it to the registry which edges there are. -/
inductive Operation (α : Type) where
  | connect (source target : NodeId) (weight : Weight) (directed : Bool)
  | connectNodes (nodes : Nodes α) (source target : NodeId) (weight : Weight) (directed : Bool)
  | remove (key : EdgeId)
  | removeSelected
  | removeIncident (node : NodeId)
  | setDirectedAll (directed : Bool)
  | setWeightedAll (weighted : Bool)
  | updateAll (nodes : Nodes α)
  | selectAt (p : Vec α) (tolerance : α)
  | deselectAt (p : Vec α) (tolerance : α)
  | toggleAt (p : Vec α) (tolerance : α)
  | selectInBox (a b : Vec α)
  | deselectAll

namespace Registry

variable [Scalar α]

/-- The registry after an operation. -/
def perform (registry : Registry α) : Operation α → Registry α
  | .connect source target weight directed =>
      match registry.connect source target weight directed with
      | .ok (_, next) => next
      | .error _ => registry
  | .connectNodes nodes source target weight directed =>
      match registry.connectNodes nodes source target weight directed with
      | .ok (_, next) => next
      | .error _ => registry
  | .remove key =>
      match registry.remove key with
      | .ok (_, rest) => rest
      | .error _ => registry
  | .removeSelected => registry.removeSelected.2
  | .removeIncident node => (registry.removeIncident node).2
  | .setDirectedAll directed => registry.setDirectedAll directed
  | .setWeightedAll weighted => registry.setWeightedAll weighted
  | .updateAll nodes => (registry.updateAll nodes).2
  | .selectAt p tolerance => (registry.selectAt p tolerance).2
  | .deselectAt p tolerance => (registry.deselectAt p tolerance).2
  | .toggleAt p tolerance => (registry.toggleAt p tolerance).2
  | .selectInBox a b => (registry.selectInBox a b).2
  | .deselectAll => registry.deselectAll

end Registry

/-- There is an id left for the edge that the operation may add. -/
def Operation.HasRoom (registry : Registry α) : Operation α → Prop
  | .connect .. | .connectNodes .. => registry.nextId < lastId
  | _ => True

instance (registry : Registry α) (operation : Operation α) :
    Decidable (operation.HasRoom registry) := by
  unfold Operation.HasRoom
  split <;> infer_instance

/-- The registries that runs lead to. -/
inductive Reachable [Scalar α] : Registry α → Prop where
  | empty (curvature : α) : Reachable (.empty curvature)
  | step {registry : Registry α} (operation : Operation α) :
      Reachable registry → operation.HasRoom registry → Reachable (registry.perform operation)

end ArcGraph
