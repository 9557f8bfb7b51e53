import ArcGraph.Proofs.Arc.Curve
import ArcGraph.Proofs.Plane.Single

/-!
The directions that an arc is made of, in 32 bits.

Its normal and the directions from its centers to its apex are zero where the
squares of the components are too large to be added up, and nowhere else. An end
with such a direction is left at the center.
-/

namespace ArcGraph

open Scalar

theorem Disk.properRadius_isFinite (radius : Float32) : (properRadius radius).isFinite = true := by
  unfold properRadius
  split
  case isTrue proper => exact (Bool.and_eq_true_iff.mp proper).1
  case isFalse => rfl

theorem Vec.alike_add_smul_of_isZero {direction : Vec Float32} {radius : Float32}
    (center : Vec Float32) (zero : direction.IsZero) (finite : radius.isFinite = true) :
    (center + radius • direction).Alike center :=
  ⟨.add_zero center.x (zero.1.mul_left finite), .add_zero center.y (zero.2.mul_left finite)⟩

namespace Arc

/-- The point is off the center by the radius, in the direction of the apex, unless there is none.
It is then left at the center. -/
structure Departs (arc : Arc Float32) (point center : Vec Float32) (radius : Float32) : Prop where
  directed : ∃ direction, (arc.apex - center).unit? = some direction ∧
    point = center + radius • direction ∧ (direction.IsZero ↔ (arc.apex - center).Overflows)
  stays : (arc.apex - center).Overflows → point.Alike center

theorem departs_of_unit? {arc : Arc Float32} {center direction : Vec Float32} {radius : Float32}
    (toApex : (arc.apex - center).unit? = some direction) (finite : radius.isFinite = true) :
    arc.Departs (center + radius • direction) center radius where
  directed := ⟨direction, toApex, rfl, Vec.isZero_unit?_iff toApex⟩
  stays overflows :=
    Vec.alike_add_smul_of_isZero center ((Vec.isZero_unit?_iff toApex).mpr overflows) finite

section Between

variable {start finish : Disk Float32} {curvature : Float32} {arc : Arc Float32}
  (found : between start finish curvature = .ok arc)
include found

theorem normal_isZero_iff : arc.normal.IsZero ↔ (finish.center - start.center).Overflows := by
  obtain ⟨-, along, _, _, direction, -, -, rfl⟩ := between_cases found
  exact Vec.perp_isZero_iff.trans (Vec.isZero_unit?_iff direction)

theorem departs_of_between :
    arc.Departs arc.tail start.center arc.startRadius ∧
      arc.Departs arc.head finish.center arc.finishRadius := by
  obtain ⟨-, along, fromStart, fromFinish, -, start?, finish?, shape⟩ := between_cases found
  have tail : arc.tail = start.center + arc.startRadius • fromStart := by rw [shape]
  have head : arc.head = finish.center + arc.finishRadius • fromFinish := by rw [shape]
  obtain ⟨-, -, first, second⟩ := disks_of_between found
  rw [tail, head]
  constructor
  · exact departs_of_unit? start? (first ▸ Disk.properRadius_isFinite _)
  · exact departs_of_unit? finish? (second ▸ Disk.properRadius_isFinite _)

end Between

/-- A direction is zero where the squares of the components cannot be added up, and nowhere else. So
are the normal of an arc and the directions in which its ends leave their centers. -/
theorem isZero_direction_iff (v : Vec Float32) (start finish : Disk Float32)
    (curvature : Float32) :
    (∀ direction, v.unit? = some direction →
      (direction.IsZero ↔ v.Overflows) ∧
        (v.x.abs ≤ Float32.ofNat (2 ^ 63) → v.y.abs ≤ Float32.ofNat (2 ^ 63) → ¬v.Overflows)) ∧
      ∀ arc, between start finish curvature = .ok arc →
        (arc.normal.IsZero ↔ (finish.center - start.center).Overflows) ∧
          arc.Departs arc.tail start.center arc.startRadius ∧
          arc.Departs arc.head finish.center arc.finishRadius := by
  constructor
  · intro direction found
    exact ⟨Vec.isZero_unit?_iff found, Vec.not_overflows_of_le (Vec.cases_of_unit? found).1⟩
  · intro arc found
    exact ⟨normal_isZero_iff found, departs_of_between found⟩

/-- A disk of radius 10 with its center on the first axis. -/
def axial (distance : ℕ) : Disk Float32 :=
  ⟨⟨ofNat distance, ofNat 0⟩, ofNat 10⟩

theorem isZero_direction_iff_near :
    (∃ direction, (⟨ofNat 3, ofNat 4⟩ : Vec Float32).unit? = some direction ∧
      ¬direction.IsZero) ∧
      ∃ arc, between (axial 0) (axial 160) (ofNat 60) = .ok arc ∧ ¬arc.normal.IsZero := by
  obtain ⟨ofVector, ofArc⟩ := isZero_direction_iff ⟨ofNat 3, ofNat 4⟩ (axial 0) (axial 160)
    (ofNat 60)
  constructor
  · have some : (⟨ofNat 3, ofNat 4⟩ : Vec Float32).unit?.isSome = true := by decide +kernel
    obtain ⟨direction, found⟩ := Option.isSome_iff_exists.mp some
    obtain ⟨zero, bounded⟩ := ofVector direction found
    exact ⟨direction, found, mt zero.mp (bounded (by decide +kernel) (by decide +kernel))⟩
  · have accepted : (between (axial 0) (axial 160) (ofNat 60)).isOk = true := by decide +kernel
    cases found : between (axial 0) (axial 160) (ofNat 60) with
    | error reason =>
        rw [found] at accepted
        cases accepted
    | ok arc => exact ⟨arc, rfl, mt (ofArc arc found).1.mp (by decide +kernel)⟩

/-- Between centers that are far apart there is an arc without a normal, from the one center to the
other, although both disks have a radius. -/
theorem exists_isZero_direction_far :
    (⟨ofNat (10 ^ 30), ofNat 0⟩ : Vec Float32).unit? = some ⟨ofNat 0, ofNat 0⟩ ∧
      ∃ arc, between (axial 0) (axial (10 ^ 30)) (ofNat 60) = .ok arc ∧ arc.normal.IsZero ∧
        arc.tail = arc.start ∧ arc.head = arc.finish := by
  refine ⟨by decide +kernel, ?_⟩
  have left : (match between (axial 0) (axial (10 ^ 30)) (ofNat 60) with
    | .error _ => false
    | .ok arc => decide (arc.normal.IsZero ∧ arc.tail = arc.start ∧ arc.head = arc.finish)) =
      true := by decide +kernel
  cases found : between (axial 0) (axial (10 ^ 30)) (ofNat 60) with
  | error reason =>
      rw [found] at left
      cases left
  | ok arc =>
      rw [found] at left
      exact ⟨arc, rfl, of_decide_eq_true left⟩

end Arc

end ArcGraph
