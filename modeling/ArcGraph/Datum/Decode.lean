import ArcGraph.Canvas.Command
import ArcGraph.Datum.Basic
import ArcGraph.Edge

/-!
Reading the types of the library from plain data.

A reader gives nothing if a part is missing or of the wrong kind. It checks
kinds only: a disk is read with any radius.
-/

namespace ArcGraph

open Datum

def Vec.ofDatum? : Datum → Option (Vec Float32)
  | .list [x, y] => do some ⟨← x.single?, ← y.single?⟩
  | _ => none

/-- A color is a list of four numbers; more of them may be allowed and are then passed over. -/
def Color.ofDatum? (allowsMore : Bool) : Datum → Option Color
  | .list (red :: green :: blue :: alpha :: more) =>
      if allowsMore || more.isEmpty then do
        some ⟨← red.single?, ← green.single?, ← blue.single?, ← alpha.single?⟩
      else none
  | _ => none

def Weight.ofDatum? : Datum → Option Weight
  | .text text => some (.label text)
  | datum => datum.double?.map .number

def Flags.ofDatum? (datum : Datum) : Option Flags := do
  let parts ← datum.parts? ["directed", "weighted", "selected"]
  some {
    directed := ← required? boolean? (parts.lookup "directed")
    weighted := ← required? boolean? (parts.lookup "weighted")
    selected := ← required? boolean? (parts.lookup "selected") }

def Disk.ofDatum? (datum : Datum) : Option (Disk Float32) := do
  let parts ← datum.parts? ["position", "radius"]
  some {
    center := ← required? Vec.ofDatum? (parts.lookup "position")
    radius := ← required? single? (parts.lookup "radius") }

namespace TextAlign

def all : List TextAlign := [left, center, right]

def name : TextAlign → String
  | left => "Left"
  | center => "Center"
  | right => "Right"

theorem mem_all (align : TextAlign) : align ∈ all := by
  cases align <;> simp [all]

def ofName? (name : String) : Option TextAlign :=
  all.find? fun align => align.name = name

theorem ofName?_name (align : TextAlign) : ofName? align.name = some align := by
  cases align <;> decide

def ofDatum? (datum : Datum) : Option TextAlign :=
  datum.name?.bind ofName?

end TextAlign

namespace TextBaseline

def all : List TextBaseline := [top, middle, bottom, alphabetic]

def name : TextBaseline → String
  | top => "Top"
  | middle => "Middle"
  | bottom => "Bottom"
  | alphabetic => "Alphabetic"

theorem mem_all (baseline : TextBaseline) : baseline ∈ all := by
  cases baseline <;> simp [all]

def ofName? (name : String) : Option TextBaseline :=
  all.find? fun baseline => baseline.name = name

theorem ofName?_name (baseline : TextBaseline) : ofName? baseline.name = some baseline := by
  cases baseline <;> decide

def ofDatum? (datum : Datum) : Option TextBaseline :=
  datum.name?.bind ofName?

end TextBaseline

end ArcGraph
