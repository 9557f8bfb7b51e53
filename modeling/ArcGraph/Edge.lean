import ArcGraph.Arc.Hit
import ArcGraph.Canvas.Color
import ArcGraph.Style
import ArcGraph.Weight

/-!
Edges of the graph.

An edge names its nodes and, possibly, a partner that runs between the same two
nodes. Its arc is a cache: `updated` computes it from the nodes of the moment,
and without an arc the edge is neither drawn nor hit.
-/

namespace ArcGraph

open Scalar

abbrev NodeId := UInt64

abbrev EdgeId := UInt64

/-- The nodes of the moment. -/
abbrev Nodes (α : Type) := NodeId → Option (Disk α)

/-- Whether an edge has an arrowhead, shows its weight and is highlighted. -/
structure Flags where
  directed : Bool := false
  weighted : Bool := false
  selected : Bool := false
  deriving DecidableEq, Repr

/-- Why an operation on edges is refused. -/
inductive Refusal where
  | selfLoop (node : NodeId)
  | duplicateEdge (source target : NodeId)
  | duplicateId (id : EdgeId)
  | unknownEdge (id : EdgeId)
  | unknownNode (id : NodeId)
  deriving DecidableEq, Repr

/-- An edge between two different nodes. -/
structure Edge (α : Type) where
  id : EdgeId
  partner : Option EdgeId
  source : NodeId
  target : NodeId
  weight : Weight
  flags : Flags
  color : Color
  curvature : α
  arc : Option (Arc α)
  distinct : source ≠ target

namespace Edge

variable {α : Type}

/-- An edge without partner, flags and arc. -/
def plain [Scalar α] (id : EdgeId) (source target : NodeId) (weight : Weight)
    (distinct : source ≠ target) : Edge α where
  id := id
  partner := none
  source := source
  target := target
  weight := weight
  flags := {}
  color := .black
  curvature := Style.standard.curvature
  arc := none
  distinct := distinct

/-- An edge between two nodes, unless they are the same. -/
def between [Scalar α] (id : EdgeId) (source target : NodeId) (weight : Weight) :
    Except Refusal (Edge α) :=
  if same : source = target then .error (.selfLoop source)
  else .ok (plain id source target weight same)

def withPartner (edge : Edge α) (partner : Option EdgeId) : Edge α :=
  { edge with partner }

def withDirected (edge : Edge α) (directed : Bool) : Edge α :=
  { edge with flags := { edge.flags with directed } }

def withWeighted (edge : Edge α) (weighted : Bool) : Edge α :=
  { edge with flags := { edge.flags with weighted } }

def withSelected (edge : Edge α) (selected : Bool) : Edge α :=
  { edge with flags := { edge.flags with selected } }

/-- The edge runs between the two nodes, in either direction. -/
def connects (edge : Edge α) (a b : NodeId) : Bool :=
  (edge.source = a && edge.target = b) || (edge.source = b && edge.target = a)

theorem connects_comm (edge : Edge α) (a b : NodeId) : edge.connects a b = edge.connects b a :=
  Bool.or_comm _ _

/-- The edge starts or ends at the node. -/
def touches (edge : Edge α) (node : NodeId) : Bool :=
  edge.source = node || edge.target = node

variable [Scalar α]

/-- The edge with the arc between two given disks. -/
def updatedFrom (edge : Edge α) (start finish : Disk α) : Edge α :=
  { edge with arc := (Arc.between start finish edge.curvature).toOption }

/-- The edge with the arc between its nodes, or without one if a node is missing. -/
def updated (edge : Edge α) (nodes : Nodes α) : Edge α :=
  match nodes edge.source, nodes edge.target with
  | some start, some finish => edge.updatedFrom start finish
  | _, _ => { edge with arc := none }

def isHit (edge : Edge α) (p : Vec α) (distance : α) : Bool :=
  edge.arc.any fun arc => arc.isHit p distance

end Edge

end ArcGraph
