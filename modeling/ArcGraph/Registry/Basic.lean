import ArcGraph.Edge
import ArcGraph.Table

/-!
The edges of a graph.

A registry keeps its edges in order of insertion, which is also the order of
drawing. Two edges between the same nodes are partners: they run in opposite
directions and name each other.

The key that an edge is stored under and the id that it carries are set by
different hands and may differ.
-/

namespace ArcGraph

open Scalar

structure Registry (α : Type) where
  edges : Table EdgeId (Edge α)
  /-- The id of the next edge that is connected. -/
  nextId : EdgeId
  /-- The curvature of edges that are connected. -/
  curvature : α

/-- The outcome of planning a connection that is not made. -/
inductive ConnectFailure where
  | refused (cause : Refusal)
  /-- The one edge between the nodes carries an id that no edge is stored under. -/
  | stray (id : EdgeId)
  deriving DecidableEq, Repr

/-- An edge that is about to be connected. -/
structure Connection where
  source : NodeId
  target : NodeId
  partner : Option EdgeId
  distinct : source ≠ target

namespace Registry

variable {α : Type}

def empty (curvature : α) : Registry α :=
  ⟨.empty, 1, curvature⟩

variable (registry : Registry α)

/-- The edges between two nodes, in both directions. -/
def between (a b : NodeId) : List (Edge α) :=
  registry.edges.values.filter fun edge => edge.connects a b

def get? (key : EdgeId) : Option (Edge α) :=
  registry.edges.get? key

/-- The edge that the edge under a key names as its partner. -/
def sibling? (key : EdgeId) : Option (Edge α) :=
  ((registry.get? key).bind Edge.partner).bind registry.get?

def selectedCount : Nat :=
  registry.edges.values.countP fun edge => edge.flags.selected

/-- Change the edge under a key. -/
def modify (key : EdgeId) (change : Edge α → Edge α) : Registry α :=
  { registry with edges := registry.edges.modify key change }

/-- Change every edge. -/
def mapEdges (change : Edge α → Edge α) : Registry α :=
  { registry with edges := registry.edges.mapValues change }

/-- The edge that a request for one between two nodes leads to. A second edge becomes the partner
of the first: without a direction it runs against it, with a direction it has to. -/
def plan (source target : NodeId) (directed : Bool) : Except ConnectFailure Connection :=
  if same : source = target then .error (.refused (.selfLoop source))
  else match (registry.between source target).map Edge.id with
    | [] => .ok ⟨source, target, none, same⟩
    | [id] =>
      match registry.get? id with
      | none => .error (.stray id)
      | some other =>
        if directed then
          if other.source = target then .ok ⟨source, target, some id, same⟩
          else .error (.refused (.duplicateEdge source target))
        else .ok ⟨other.target, other.source, some id, other.distinct.symm⟩
    | _ => .error (.refused (.duplicateEdge source target))

/-- Store the edge of a connection under the next id and pair it with its partner. -/
def establish [Scalar α] (connection : Connection) (weight : Weight) (directed : Bool) :
    Registry α :=
  let id := registry.nextId
  let edge : Edge α :=
    { Edge.plain id connection.source connection.target weight connection.distinct with
      partner := connection.partner
      flags := { directed }
      curvature := registry.curvature }
  let paired := match connection.partner with
    | none => registry.edges
    | some other =>
      registry.edges.modify other fun edge => (edge.withPartner (some id)).withDirected directed
  { registry with edges := paired.insert id edge, nextId := id + 1 }

/-- Connect two nodes by a new edge, which is found under the id that is given back. -/
def connect [Scalar α] (source target : NodeId) (weight : Weight) (directed : Bool) :
    Except ConnectFailure (EdgeId × Registry α) :=
  match registry.plan source target directed with
  | .error failure => .error failure
  | .ok connection => .ok (registry.nextId, registry.establish connection weight directed)

/-- The first of two nodes that is missing. -/
def missingNode? (nodes : Nodes α) (source target : NodeId) : Option NodeId :=
  [source, target].find? fun id => (nodes id).isNone

/-- Connect two nodes by a new edge if both are there. -/
def connectNodes [Scalar α] (nodes : Nodes α) (source target : NodeId) (weight : Weight)
    (directed : Bool) : Except ConnectFailure (EdgeId × Registry α) :=
  match missingNode? nodes source target with
  | some id => .error (.refused (.unknownNode id))
  | none => registry.connect source target weight directed

/-- The smallest id above the given one; the largest of all has none above it. -/
def idAfter (id : EdgeId) : EdgeId :=
  if id = UInt64.ofNat (UInt64.size - 1) then id else id + 1

/-- The key of an edge that loses its partner when the given edge is inserted. -/
def dispossessed? (edge : Edge α) : Option EdgeId :=
  ((edge.partner.bind registry.get?).bind Edge.partner).filter (· ≠ edge.id)

/-- Store an edge under the id that it carries. The partner that it names now names it back, and
a former partner of that one is left alone. -/
def insert (edge : Edge α) : Except Refusal (Registry α) :=
  if registry.edges.contains edge.id then .error (.duplicateId edge.id)
  else
    let paired := match edge.partner with
      | none => registry.edges
      | some other => registry.edges.modify other fun edge' => edge'.withPartner (some edge.id)
    let parted := match registry.dispossessed? edge with
      | none => paired
      | some old => paired.modify old fun edge' => edge'.withPartner none
    .ok { registry with
      edges := parted.insert edge.id edge
      nextId := max registry.nextId (idAfter edge.id) }

/-- Take out the edge under a key. The partner that it names is left alone if it names it back. -/
def remove (key : EdgeId) : Except Refusal (Edge α × Registry α) :=
  match registry.get? key with
  | none => .error (.unknownEdge key)
  | some edge =>
    let rest := registry.edges.erase key
    let parted := match edge.partner with
      | none => rest
      | some other => rest.modify other fun edge' =>
          if edge'.partner = some key then edge'.withPartner none else edge'
    .ok (edge, { registry with edges := parted })

/-- Take out the edges under several keys, one after the other; unknown keys are passed over. -/
def removeAll : Registry α → List EdgeId → List (Edge α) × Registry α
  | registry, [] => ([], registry)
  | registry, key :: rest =>
    match registry.remove key with
    | .error _ => registry.removeAll rest
    | .ok (edge, next) =>
      let (edges, last) := next.removeAll rest
      (edge :: edges, last)

/-- Take out the edges with a property, by the ids that they carry. -/
def removeWhere (property : Edge α → Bool) : List (Edge α) × Registry α :=
  registry.removeAll ((registry.edges.values.filter property).map Edge.id)

def removeSelected : List (Edge α) × Registry α :=
  registry.removeWhere fun edge => edge.flags.selected

/-- Take out the edges at a node. -/
def removeIncident (node : NodeId) : List (Edge α) × Registry α :=
  registry.removeWhere fun edge => edge.touches node

def setDirectedAll (directed : Bool) : Registry α :=
  registry.mapEdges fun edge => edge.withDirected directed

def setWeightedAll (weighted : Bool) : Registry α :=
  registry.mapEdges fun edge => edge.withWeighted weighted

/-- Compute the arcs of all edges anew, and count them. -/
def updateAll [Scalar α] (nodes : Nodes α) : Nat × Registry α :=
  let updated := registry.mapEdges fun edge => edge.updated nodes
  (updated.edges.values.countP fun edge => edge.arc.isSome, updated)

end Registry

end ArcGraph
