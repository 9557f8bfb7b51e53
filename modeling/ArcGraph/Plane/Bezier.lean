import ArcGraph.Plane.Vec

/-!
Bézier curves of degree two and three, as weighted sums of their control points.
-/

namespace ArcGraph.Bezier

open Scalar

variable {α : Type} [Scalar α]

/-- The point at parameter `t` of the curve with end points `p₀` and `p₂`. -/
def quadratic (p₀ p₁ p₂ : Vec α) (t : α) : Vec α :=
  let s := ofNat 1 - t
  (s * s) • p₀ + (ofNat 2 * s * t) • p₁ + (t * t) • p₂

/-- The point at parameter `t` of the curve with end points `p₀` and `p₃`. -/
def cubic (p₀ p₁ p₂ p₃ : Vec α) (t : α) : Vec α :=
  let s := ofNat 1 - t
  let s2 := s * s
  let t2 := t * t
  (s2 * s) • p₀ + (ofNat 3 * s2 * t) • p₁ + (ofNat 3 * s * t2) • p₂ + (t2 * t) • p₃

end ArcGraph.Bezier
