import ArcGraph.Drawing
import ArcGraph.Registry.Selection
import ArcGraph.Style.File

/-!
Events that are worth a line in a log, and the texts of refusals.
-/

namespace ArcGraph

inductive Level where
  | trace
  | debug
  | info
  | warn
  deriving DecidableEq, Repr

inductive Event (α : Type) where
  | radiusIgnored (radius : α)
  | nodesMissing (edge : EdgeId) (source target : NodeId)
  | degenerate (edge : EdgeId) (cause : Degeneracy)
  | noParabola
  | connected (edge : EdgeId) (connection : Connection)
  | nodeMissing (source target node : NodeId)
  | partnerLost (edge partner : EdgeId)
  | degreeRaised
  | arrowSkipped (edge : EdgeId)
  | styleLoaded (place : String)
  | styleFaulty
  | styleMissing
  | styleSaved (place : String)

namespace Degeneracy

def detail : Degeneracy → String
  | notFinite => "nicht-endliche Koordinaten"
  | coincident => "Start und Ende fallen zusammen"
  | apexAtStart => "Kontrollpunkt liegt im Start-Node"
  | apexAtFinish => "Kontrollpunkt liegt im End-Node"

def message (cause : Degeneracy) : String :=
  s!"degenerierte Kantengeometrie: {cause.detail}"

end Degeneracy

namespace InvalidRadius

def message (invalid : InvalidRadius Float32) : String :=
  s!"ungueltiger Node-Radius: {NumberStyle.plain.writeSingle invalid.radius}"

end InvalidRadius

namespace MissingCapability

def message : MissingCapability → String
  | curves => "Zeichenflaeche unterstuetzt keine Bezier-Kurven"
  | text => "Zeichenflaeche unterstuetzt keine Text-Ausgabe"

end MissingCapability

namespace Refusal

def message : Refusal → String
  | selfLoop node => s!"Schleifen-Kanten werden nicht unterstuetzt (Node {node})"
  | duplicateEdge source target => s!"Kante {source} -> {target} existiert bereits"
  | duplicateId id => s!"Kanten-ID {id} ist bereits vergeben"
  | unknownEdge id => s!"unbekannte Kante {id}"
  | unknownNode id => s!"unbekannter Node {id}"

end Refusal

namespace Connection

def partnerText (connection : Connection) : String :=
  match connection.partner with
  | none => "None"
  | some id => s!"Some({id})"

end Connection

namespace Event

variable {α : Type}

def level : Event α → Level
  | noParabola | arrowSkipped _ => .trace
  | styleLoaded _ | styleMissing | styleSaved _ => .info
  | nodeMissing _ _ _ | styleFaulty => .warn
  | _ => .debug

def message : Event Float32 → String
  | radiusIgnored radius =>
      s!"Ungueltiger Node-Radius {NumberStyle.plain.writeSingle radius} wird auf 0 geklemmt"
  | nodesMissing edge source target =>
      s!"Kante {edge}: Node {source} oder {target} nicht gefunden"
  | degenerate edge cause => s!"Kante {edge}: {cause.message}"
  | noParabola => "Hit-Test: Parabel-Anpassung degeneriert, kein Treffer"
  | connected edge connection =>
      s!"Kante {edge} angelegt: {connection.source} -> {connection.target} " ++
        s!"(Gegenkante {connection.partnerText})"
  | nodeMissing source target node =>
      s!"Kante {source} -> {target} abgelehnt: Node {node} fehlt"
  | partnerLost edge partner => s!"Kante {edge} verliert Gegenkante an {partner}"
  | degreeRaised => "Zeichenflaeche ohne quadraticCurveTo, nutze kubische Kurven"
  | arrowSkipped edge => s!"Kante {edge}: Pfeil ohne Richtung, uebersprungen"
  | styleLoaded place => s!"Kanten-Stil geladen aus: {place}"
  | styleFaulty => "Stil-Datei fehlerhaft, verwende Standardwerte"
  | styleMissing => "Keine Stil-Datei gefunden, verwende Standardwerte"
  | styleSaved place => s!"Kanten-Stil gespeichert nach: {place}"

variable [Scalar α]

/-- The events of finding the arc between two disks. -/
def ofRadii (start finish : Disk α) (curvature : α) : List (Event α) :=
  (Arc.improperRadii start finish curvature).map radiusIgnored

/-- The events of giving an edge the arc between two disks. -/
def ofUpdateFrom (edge : Edge α) (start finish : Disk α) : List (Event α) :=
  ofRadii start finish edge.curvature ++
    match Arc.between start finish edge.curvature with
    | .ok _ => []
    | .error cause => [degenerate edge.id cause]

/-- The events of giving an edge the arc between its nodes. -/
def ofUpdate (edge : Edge α) (nodes : Nodes α) : List (Event α) :=
  match nodes edge.source, nodes edge.target with
  | some start, some finish => ofUpdateFrom edge start finish
  | _, _ => [nodesMissing edge.id edge.source edge.target]

def ofUpdateAll (registry : Registry α) (nodes : Nodes α) : List (Event α) :=
  registry.edges.values.flatMap fun edge => ofUpdate edge nodes

/-- The events of judging a point against an arc. -/
def ofJudgement : Judgement → List (Event α)
  | .noParabola => [noParabola]
  | _ => []

def ofHit (edge : Edge α) (p : Vec α) (distance : α) : List (Event α) :=
  match edge.arc with
  | none => []
  | some arc => ofJudgement (arc.judge p distance)

/-- The events of picking: edges are judged from the topmost down to the first that is hit. -/
def ofPick (registry : Registry α) (p : Vec α) (tolerance : α) : List (Event α) :=
  (registry.edges.values.reverse.takeWhile fun edge => !edge.isHit p tolerance).flatMap
    fun edge => ofHit edge p tolerance

omit [Scalar α] in
/-- The events of connecting two nodes. -/
def ofConnect (registry : Registry α) (source target : NodeId) (directed : Bool) :
    List (Event α) :=
  match registry.plan source target directed with
  | .error _ => []
  | .ok connection => [connected registry.nextId connection]

omit [Scalar α] in
/-- The events of connecting two nodes if both are there. -/
def ofConnectNodes (registry : Registry α) (nodes : Nodes α) (source target : NodeId)
    (directed : Bool) : List (Event α) :=
  match Registry.missingNode? nodes source target with
  | some node => [nodeMissing source target node]
  | none => ofConnect registry source target directed

omit [Scalar α] in
/-- The events of inserting an edge into a registry that takes it. -/
def ofInsert (registry : Registry α) (edge : Edge α) : List (Event α) :=
  match (registry.dispossessed? edge).bind registry.get? with
  | none => []
  | some old => [partnerLost old.id edge.id]

omit [Scalar α] in
def ofLoaded (place : String) : Style.Loaded → Event α
  | .missing => styleMissing
  | .faulty => styleFaulty
  | .found _ => styleLoaded place

omit [Scalar α] in
/-- The events of choosing a pen for a surface. -/
def ofPen (capabilities : Capabilities) : List (Event α) :=
  if Pen.raisesDegree capabilities then [degreeRaised] else []

def ofDrawing (pen : Pen α) (edge : Edge α) : List (Event α) :=
  if pen.skipsArrow edge then [arrowSkipped edge.id] else []

def ofDrawingAll (pen : Pen α) (registry : Registry α) : List (Event α) :=
  registry.edges.values.flatMap (ofDrawing pen)

end Event

end ArcGraph
