/-!
The operations that the geometry of an edge needs of a coordinate.

All geometry is written once over `Scalar`. It runs at `Float32`, where every
operation rounds, and is reasoned about at any other instance, an exact field
in particular.
-/

namespace ArcGraph

/-- Numbers with arithmetic, a square root, an order test and a finiteness test. -/
class Scalar (α : Type) extends Add α, Sub α, Mul α, Div α, Neg α, LT α, LE α where
  ofNat : Nat → α
  sqrt : α → α
  abs : α → α
  isFinite : α → Bool
  decidableLT : ∀ a b : α, Decidable (a < b)
  decidableLE : ∀ a b : α, Decidable (a ≤ b)

namespace Scalar

variable {α : Type} [Scalar α]

instance (a b : α) : Decidable (a < b) :=
  decidableLT a b

instance (a b : α) : Decidable (a ≤ b) :=
  decidableLE a b

/-- A value that is not even comparable with itself is no number. -/
def isNaN (a : α) : Bool :=
  !decide (a ≤ a)

/-- The smaller of two values; a value that is no number gives way to the other. -/
def minNumber (a b : α) : α :=
  if isNaN a then b else if b < a then b else a

/-- The larger of two values; a value that is no number gives way to the other. -/
def maxNumber (a b : α) : α :=
  if isNaN a then b else if a < b then b else a

/-- The least and the greatest of the values that are numbers. -/
def extent : List α → Option (α × α)
  | [] => none
  | value :: rest =>
      if isNaN value then extent rest
      else match extent rest with
        | none => some (value, value)
        | some (least, greatest) => some (minNumber value least, maxNumber value greatest)

end Scalar

/-- Binary32 numbers, each operation rounded to the nearest one. -/
instance : Scalar Float32 where
  ofNat := Float32.ofNat
  sqrt := Float32.sqrt
  abs := Float32.abs
  isFinite := Float32.isFinite
  decidableLT := Float32.decLt
  decidableLE := Float32.decLe

end ArcGraph
