import ArcGraph.Scalar

/-!
Vectors of the plane.

`unit?` and `withLength?` answer `none` for a vector that is too short to have
a direction, so no caller divides by a length of zero.
-/

namespace ArcGraph

open Scalar

/-- A point or a displacement in the plane. -/
@[ext]
structure Vec (α : Type) where
  x : α
  y : α
  deriving DecidableEq

namespace Vec

variable {α : Type} [Scalar α]

instance : Add (Vec α) := ⟨fun a b => ⟨a.x + b.x, a.y + b.y⟩⟩
instance : Sub (Vec α) := ⟨fun a b => ⟨a.x - b.x, a.y - b.y⟩⟩
instance : Neg (Vec α) := ⟨fun a => ⟨-a.x, -a.y⟩⟩
instance : SMul α (Vec α) := ⟨fun k a => ⟨k * a.x, k * a.y⟩⟩
instance : HDiv (Vec α) α (Vec α) := ⟨fun a k => ⟨a.x / k, a.y / k⟩⟩

@[simp] theorem add_x (a b : Vec α) : (a + b).x = a.x + b.x := rfl
@[simp] theorem add_y (a b : Vec α) : (a + b).y = a.y + b.y := rfl
@[simp] theorem sub_x (a b : Vec α) : (a - b).x = a.x - b.x := rfl
@[simp] theorem sub_y (a b : Vec α) : (a - b).y = a.y - b.y := rfl
@[simp] theorem neg_x (a : Vec α) : (-a).x = -a.x := rfl
@[simp] theorem neg_y (a : Vec α) : (-a).y = -a.y := rfl
@[simp] theorem smul_x (k : α) (a : Vec α) : (k • a).x = k * a.x := rfl
@[simp] theorem smul_y (k : α) (a : Vec α) : (k • a).y = k * a.y := rfl
@[simp] theorem div_x (a : Vec α) (k : α) : (a / k).x = a.x / k := rfl
@[simp] theorem div_y (a : Vec α) (k : α) : (a / k).y = a.y / k := rfl

/-- The origin. -/
def zero : Vec α :=
  ⟨ofNat 0, ofNat 0⟩

def isFinite (a : Vec α) : Bool :=
  Scalar.isFinite a.x && Scalar.isFinite a.y

def dot (a b : Vec α) : α :=
  a.x * b.x + a.y * b.y

/-- The vector turned by a quarter, from the first axis towards the second. -/
def perp (a : Vec α) : Vec α :=
  ⟨-a.y, a.x⟩

/-- The signed area that two vectors span. -/
def perpDot (a b : Vec α) : α :=
  a.x * b.y - a.y * b.x

def length (a : Vec α) : α :=
  sqrt (a.dot a)

def distance (a b : Vec α) : α :=
  (a - b).length

/-- Vectors shorter than this have no direction. -/
def degenerateLength : α :=
  ofNat 1 / ofNat 1000000

/-- The vector of length one in the same direction. -/
def unit? (a : Vec α) : Option (Vec α) :=
  if a.isFinite then
    if a.length < degenerateLength then none else some (a / a.length)
  else none

/-- The vector of the given length in the same direction. -/
def withLength? (a : Vec α) (length : α) : Option (Vec α) :=
  a.unit?.map (length • ·)

/-- The larger of the sizes of the two components. -/
def greatestSize (a : Vec α) : α :=
  if abs a.y < abs a.x then abs a.x else abs a.y

/-- The corner with the smaller components of the box between two points. -/
def lowerCorner (a b : Vec α) : Vec α :=
  ⟨if a.x < b.x then a.x else b.x, if a.y < b.y then a.y else b.y⟩

/-- The corner with the larger components of the box between two points. -/
def upperCorner (a b : Vec α) : Vec α :=
  ⟨if b.x < a.x then a.x else b.x, if b.y < a.y then a.y else b.y⟩

/-- The point lies inside the box with the given corners and not on its border. -/
def strictlyBetween (p lower upper : Vec α) : Bool :=
  decide (lower.x < p.x) && decide (p.x < upper.x) &&
    decide (lower.y < p.y) && decide (p.y < upper.y)

end Vec

end ArcGraph
