import ArcGraph.Plane.Vec

/-!
Nodes as disks.

A disk may come from elsewhere with any radius at all. `checked` and `resized`
accept proper radii only; `properRadius` is what a curve takes a radius for.
The owner of a disk may resize and move it again and again.
-/

namespace ArcGraph

open Scalar

/-- A disk in the plane. -/
structure Disk (α : Type) where
  center : Vec α
  radius : α
  deriving DecidableEq

/-- The refusal of a radius that is negative or not finite. -/
structure InvalidRadius (α : Type) where
  radius : α
  deriving DecidableEq

namespace Disk

variable {α : Type} [Scalar α]

/-- A proper radius is finite and not negative. -/
def isProperRadius (radius : α) : Bool :=
  isFinite radius && decide (ofNat 0 ≤ radius)

/-- The radius itself if it is proper, and zero otherwise. -/
def properRadius (radius : α) : α :=
  if isProperRadius radius then radius else ofNat 0

def checked (center : Vec α) (radius : α) : Except (InvalidRadius α) (Disk α) :=
  if isProperRadius radius then .ok ⟨center, radius⟩ else .error ⟨radius⟩

def resized (disk : Disk α) (radius : α) : Except (InvalidRadius α) (Disk α) :=
  checked disk.center radius

def movedTo (disk : Disk α) (center : Vec α) : Disk α :=
  { disk with center }

/-- What the owner of a disk may do to it. -/
inductive Change (α : Type) where
  | resize (radius : α)
  | move (center : Vec α)

def change (disk : Disk α) : Change α → Except (InvalidRadius α) (Disk α)
  | .resize radius => disk.resized radius
  | .move center => .ok (disk.movedTo center)

/-- The disk after a change. A refusal has no effect. -/
def afterChange (disk : Disk α) (change : Change α) : Disk α :=
  match disk.change change with
  | .ok changed => changed
  | .error _ => disk

def after (disk : Disk α) (changes : List (Change α)) : Disk α :=
  changes.foldl afterChange disk

end Disk

end ArcGraph
