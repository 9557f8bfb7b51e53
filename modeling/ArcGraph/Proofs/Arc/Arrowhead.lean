import ArcGraph.Arc.Arrowhead
import ArcGraph.Proofs.Arc.Shape

/-!
What arrowheads look like and where they point, in exact arithmetic.

Whatever the fields of an arc hold, its arrowhead is an isosceles triangle with
its tip at the head. If the arc joins two disks, the tangent at the head lies on
the line through the apex and the center of the disk there, so the arrowhead
does too. It points to the center from an apex outside the disk, and away from
it from an apex inside, which there may be next to a large disk even if the two
disks are apart.
-/

namespace ArcGraph

open Scalar

theorem Arrowhead.ofArc?_eq_map {α : Type} [Scalar α] (arc : Arc α) (halfWidth : α) :
    ofArc? arc halfWidth = (arc.head - arc.apex).unit?.map fun along => {
      tip := arc.head
      left := arc.head - arc.finishRadius • along + halfWidth • along.perp
      right := arc.head - arc.finishRadius • along - halfWidth • along.perp
      direction := arc.finishRadius • along } := by
  unfold ofArc? Vec.withLength?
  dsimp only
  cases (arc.head - arc.apex).unit? <;> rfl

/-! ### The triangle -/

/-- A corner at right angles to a unit vector that leads back from the tip. -/
theorem Vec.distance_corner {along : Vec ℝ} (unit : along.dot along = 1) (tip : Vec ℝ)
    (height aside : ℝ) :
    (tip - height • along + aside • along.perp).distance tip = √(height ^ 2 + aside ^ 2) := by
  rw [distance, length, sqrt_real]
  congr 1
  simp only [dot, perp, add_x, add_y, sub_x, sub_y, smul_x, smul_y] at unit ⊢
  linear_combination (height ^ 2 + aside ^ 2) * unit

namespace Arrowhead

/-- The triangle is isosceles: its height runs along the tangent at the head of the arc and is as
long as the radius there, and half of its base is as long as the half width. -/
structure IsTriangle (arrow : Arrowhead ℝ) (arc : Arc ℝ) (halfWidth : ℝ) : Prop where
  tip : arrow.tip = arc.head
  along : arrow.direction =
    arc.finishRadius • ((arc.head - arc.apex) / (arc.head - arc.apex).length)
  height : arrow.direction.length = |arc.finishRadius|
  middle : (1 / 2 : ℝ) • (arrow.left + arrow.right) = arrow.tip - arrow.direction
  across : (arrow.left - arrow.right).dot arrow.direction = 0
  base : (arrow.left - arrow.right).length = 2 * |halfWidth|
  left : arrow.left.distance arrow.tip = √(arc.finishRadius ^ 2 + halfWidth ^ 2)
  right : arrow.right.distance arrow.tip = √(arc.finishRadius ^ 2 + halfWidth ^ 2)

theorem isTriangle_of_ofArc? {arc : Arc ℝ} {arrow : Arrowhead ℝ} {halfWidth : ℝ}
    (drawn : ofArc? arc halfWidth = some arrow) : arrow.IsTriangle arc halfWidth := by
  rw [ofArc?_eq_map, Option.map_eq_some_iff] at drawn
  obtain ⟨along, along?, rfl⟩ := drawn
  have unit := Vec.dot_self_of_unit? along?
  have unit' : along.perp.dot along.perp = 1 := by rw [Vec.perp_dot_perp, unit]
  obtain ⟨-, tangent⟩ := (Vec.unit?_eq_some_iff _ along).mp along?
  have base : arc.head - arc.finishRadius • along + halfWidth • along.perp -
      (arc.head - arc.finishRadius • along - halfWidth • along.perp) =
        (2 * halfWidth) • along.perp := by
    ext
    · simp only [Vec.add_x, Vec.sub_x, Vec.smul_x]
      ring
    · simp only [Vec.add_y, Vec.sub_y, Vec.smul_y]
      ring
  have opposite : arc.head - arc.finishRadius • along - halfWidth • along.perp =
      arc.head - arc.finishRadius • along + -halfWidth • along.perp := by
    ext
    · simp only [Vec.add_x, Vec.sub_x, Vec.smul_x]
      ring
    · simp only [Vec.add_y, Vec.sub_y, Vec.smul_y]
      ring
  constructor
  case tip => rfl
  case along => rw [← tangent]
  case height => exact Vec.length_smul_of_unit unit arc.finishRadius
  case middle =>
    ext
    · simp only [Vec.add_x, Vec.sub_x, Vec.smul_x]
      ring
    · simp only [Vec.add_y, Vec.sub_y, Vec.smul_y]
      ring
  case across =>
    rw [base]
    simp only [Vec.dot, Vec.perp, Vec.smul_x, Vec.smul_y]
    ring
  case base => rw [base, Vec.length_smul_of_unit unit', abs_mul, abs_two]
  case left => exact Vec.distance_corner unit arc.head arc.finishRadius halfWidth
  case right =>
    rw [opposite, Vec.distance_corner unit, neg_sq]

/-- Of whatever points an arc is made, it has an arrowhead unless its apex is as good as at the
head, and the arrowhead is an isosceles triangle. -/
theorem triangle_of_arc (arc : Arc ℝ) (halfWidth : ℝ) :
    (ofArc? arc halfWidth = none ↔ (arc.head - arc.apex).length < Vec.degenerateLength) ∧
      ∀ arrow, ofArc? arc halfWidth = some arrow → arrow.IsTriangle arc halfWidth := by
  refine ⟨?_, fun arrow drawn => isTriangle_of_ofArc? drawn⟩
  rw [ofArc?_eq_map, Option.map_eq_none_iff, Vec.unit?_eq_none_iff]

/-- With a radius below zero the triangle is on the other side of its tip. -/
theorem triangle_of_arc_turned :
    ∃ arrow, ofArc? { Arc.arch 0 50 with finishRadius := -50 } (-4) = some arrow ∧
      arrow.direction = ⟨-40, 30⟩ ∧ arrow.direction.length = 50 ∧
      arrow.left.distance arrow.tip = √2516 ∧ arrow.right.distance arrow.tip = √2516 := by
  have tangent : ((Arc.arch 0 50).head - (Arc.arch 0 50).apex).length = 50 := by
    apply Vec.length_eq
    · norm_num
    · norm_num [Arc.arch, Vec.dot]
  obtain ⟨missing, triangle⟩ := triangle_of_arc { Arc.arch 0 50 with finishRadius := -50 } (-4)
  rw [tangent] at missing
  have drawn : ofArc? { Arc.arch 0 50 with finishRadius := -50 } (-4) ≠ none := by
    rw [ne_eq, missing]
    norm_num [Vec.degenerateLength]
  obtain ⟨arrow, drawn⟩ := Option.ne_none_iff_exists'.mp drawn
  have shape := triangle arrow drawn
  refine ⟨arrow, drawn, ?_, ?_, ?_, ?_⟩
  · rw [shape.along, tangent]
    norm_num [Arc.arch, Vec.ext_iff]
  · rw [shape.height]
    norm_num
  · rw [shape.left]
    norm_num
  · rw [shape.right]
    norm_num

end Arrowhead

namespace Arc

variable {start finish : Disk ℝ} {curvature : ℝ} {arc : Arc ℝ}
  (found : between start finish curvature = .ok arc)
include found

/-- Apex, head and the center of the disk there are on one line. -/
theorem line_to_head :
    ∃ outward : Vec ℝ, outward.dot outward = 1 ∧
      arc.head = arc.finish + arc.finishRadius • outward ∧
      arc.head - arc.apex = (arc.finishRadius - arc.apex.distance arc.finish) • outward := by
  obtain ⟨-, along, fromStart, outward, -, -, finish?, shape⟩ := between_cases found
  have finishes : finish.center = arc.finish := by rw [shape]
  have head : arc.head = arc.finish + arc.finishRadius • outward := by rw [shape]
  have expand := Vec.eq_smul_of_unit? finish?
  rw [finishes] at expand
  refine ⟨outward, Vec.dot_self_of_unit? finish?, head, ?_⟩
  rw [head, Vec.distance]
  simp only [Vec.ext_iff, Vec.add_x, Vec.add_y, Vec.sub_x, Vec.sub_y, Vec.smul_x, Vec.smul_y]
    at expand ⊢
  constructor
  · linear_combination -expand.1
  · linear_combination -expand.2

theorem apex_sub_finish :
    arc.apex - arc.finish =
      (-1 / 2 : ℝ) • (finish.center - start.center) + curvature • arc.normal := by
  obtain ⟨-, along, fromStart, fromFinish, -, -, -, shape⟩ := between_cases found
  rw [shape]
  ext
  · simp only [Vec.add_x, Vec.sub_x, Vec.smul_x, ofNat_real]
    push_cast
    ring
  · simp only [Vec.add_y, Vec.sub_y, Vec.smul_y, ofNat_real]
    push_cast
    ring

theorem sq_distance_apex :
    arc.apex.distance arc.finish ^ 2 =
      (finish.center.distance start.center / 2) ^ 2 + curvature ^ 2 := by
  have unit := normal_dot_self found
  have across := normal_dot_chord found
  rw [div_pow, sq, sq (Vec.distance _ _), Vec.distance, Vec.distance, Vec.length_mul_length,
    Vec.length_mul_length, apex_sub_finish found]
  simp only [Vec.dot, Vec.add_x, Vec.add_y, Vec.sub_x, Vec.sub_y, Vec.smul_x, Vec.smul_y]
    at unit across ⊢
  linear_combination -curvature * across + curvature ^ 2 * unit

theorem distance_head : arc.head.distance arc.finish = arc.finishRadius := by
  have joins := joins_of_between found
  rw [joins.finishes]
  exact joins.head.1

end Arc

namespace Arrowhead

variable {start finish : Disk ℝ} {curvature : ℝ} {arc : Arc ℝ} {arrow : Arrowhead ℝ}
  {halfWidth : ℝ}

section Found

variable (found : Arc.between start finish curvature = .ok arc)
include found

theorem distance_tip (drawn : ofArc? arc halfWidth = some arrow) :
    arrow.tip.distance arc.finish = arc.finishRadius := by
  rw [ofArc?_eq_map, Option.map_eq_some_iff] at drawn
  obtain ⟨along, -, rfl⟩ := drawn
  exact Arc.distance_head found

theorem ofArc?_eq_none_iff (halfWidth : ℝ) :
    ofArc? arc halfWidth = none ↔
      |arc.apex.distance arc.finish - arc.finishRadius| < Vec.degenerateLength := by
  obtain ⟨outward, unit, -, tangent⟩ := Arc.line_to_head found
  rw [ofArc?_eq_map, Option.map_eq_none_iff, Vec.unit?_eq_none_iff, tangent,
    Vec.length_smul_of_unit unit, abs_sub_comm]

theorem degenerateLength_le (drawn : ofArc? arc halfWidth = some arrow) :
    Vec.degenerateLength ≤ |arc.apex.distance arc.finish - arc.finishRadius| := by
  rw [← not_lt, ← ofArc?_eq_none_iff found halfWidth, drawn]
  exact Option.some_ne_none arrow

/-- From an apex outside the disk the arrowhead points to its center. -/
theorem direction_of_outside (drawn : ofArc? arc halfWidth = some arrow)
    (outside : arc.finishRadius < arc.apex.distance arc.finish) :
    arrow.tip + arrow.direction = arc.finish ∧
      ∀ share : ℝ, arc.finishRadius ≤
        ((1 - share) • arrow.left + share • arrow.right).distance arc.finish := by
  obtain ⟨outward, unit, head, tangent⟩ := Arc.line_to_head found
  have long := degenerateLength_le found drawn
  rw [abs_of_pos (sub_pos.mpr outside)] at long
  have turned : (-outward).dot (-outward) = 1 := by
    simpa [Vec.dot] using unit
  have back : arc.head - arc.apex =
      (arc.apex.distance arc.finish - arc.finishRadius) • -outward := by
    rw [tangent]
    ext
    · simp only [Vec.smul_x, Vec.neg_x]
      ring
    · simp only [Vec.smul_y, Vec.neg_y]
      ring
  rw [ofArc?_eq_map, back, Vec.unit?_smul_of_unit turned long, Option.map_some,
    Option.some.injEq] at drawn
  subst drawn
  constructor
  · rw [head]
    simp [Vec.ext_iff]
  · -- The base is across the line to the center, twice the radius away from it.
    intro share
    rw [Vec.distance, Vec.length]
    apply Real.le_sqrt_of_sq_le
    simp only [head, Vec.dot, Vec.perp, Vec.add_x, Vec.add_y, Vec.sub_x, Vec.sub_y, Vec.smul_x,
      Vec.smul_y, Vec.neg_x, Vec.neg_y] at unit ⊢
    have square : arc.finishRadius ^ 2 ≤
        (2 * arc.finishRadius) ^ 2 + (halfWidth * (1 - 2 * share)) ^ 2 := by
      nlinarith [sq_nonneg arc.finishRadius, sq_nonneg (halfWidth * (1 - 2 * share))]
    refine square.trans_eq ?_
    linear_combination
      -((2 * arc.finishRadius) ^ 2 + (halfWidth * (1 - 2 * share)) ^ 2) * unit

/-- From an apex inside the disk it points away from the center. -/
theorem direction_of_inside (drawn : ofArc? arc halfWidth = some arrow)
    (inside : arc.apex.distance arc.finish < arc.finishRadius) :
    arrow.tip - arrow.direction = arc.finish := by
  obtain ⟨outward, unit, head, tangent⟩ := Arc.line_to_head found
  have long := degenerateLength_le found drawn
  rw [abs_of_neg (sub_neg.mpr inside), neg_sub] at long
  rw [ofArc?_eq_map, tangent, Vec.unit?_smul_of_unit unit long, Option.map_some,
    Option.some.injEq] at drawn
  subst drawn
  rw [head]
  simp [Vec.ext_iff]

end Found

/-- An arrowhead has its tip on the boundary of the disk at the finish. Whether it points to the
center or away from it is up to the apex, and there is none where the apex is as good as on the
boundary. -/
theorem points_of_between (found : Arc.between start finish curvature = .ok arc) (halfWidth : ℝ) :
    (ofArc? arc halfWidth = none ↔
        |arc.apex.distance arc.finish - arc.finishRadius| < Vec.degenerateLength) ∧
      (∀ arrow, ofArc? arc halfWidth = some arrow →
        arrow.tip.distance arc.finish = arc.finishRadius ∧
          (arc.finishRadius < arc.apex.distance arc.finish →
            arrow.tip + arrow.direction = arc.finish ∧
              ∀ share : ℝ, arc.finishRadius ≤
                ((1 - share) • arrow.left + share • arrow.right).distance arc.finish) ∧
          (arc.apex.distance arc.finish < arc.finishRadius →
            arrow.tip - arrow.direction = arc.finish)) ∧
      arc.apex.distance arc.finish ^ 2 =
        (finish.center.distance start.center / 2) ^ 2 + curvature ^ 2 := by
  refine ⟨ofArc?_eq_none_iff found halfWidth, ?_, Arc.sq_distance_apex found⟩
  intro arrow drawn
  exact ⟨distance_tip found drawn, direction_of_outside found drawn,
    direction_of_inside found drawn⟩

theorem apex_distance_arch (r s : ℝ) :
    (Arc.arch r s).apex.distance (Arc.arch r s).finish = 100 := by
  apply Vec.length_eq
  · norm_num
  · norm_num [Arc.arch, Vec.dot]

theorem points_of_between_arch :
    Arc.between ⟨⟨0, 0⟩, 10⟩ ⟨⟨160, 0⟩, 50⟩ 60 = .ok (Arc.arch 10 50) ∧
      ∃ arrow, ofArc? (Arc.arch 10 50) 4 = some arrow ∧
        arrow.tip + arrow.direction = (Arc.arch 10 50).finish := by
  have found : Arc.between ⟨⟨0, 0⟩, 10⟩ ⟨⟨160, 0⟩, 50⟩ 60 = .ok (Arc.arch 10 50) :=
    Arc.between_arch (by norm_num) (by norm_num)
  obtain ⟨missing, points, -⟩ := points_of_between found 4
  have radius : (Arc.arch 10 50).finishRadius = 50 := rfl
  have drawn : ofArc? (Arc.arch 10 50) 4 ≠ none := by
    rw [ne_eq, missing, apex_distance_arch, radius]
    norm_num [Vec.degenerateLength]
  obtain ⟨arrow, drawn⟩ := Option.ne_none_iff_exists'.mp drawn
  obtain ⟨-, inward, -⟩ := points arrow drawn
  refine ⟨found, arrow, drawn, (inward ?_).1⟩
  rw [apex_distance_arch, radius]
  norm_num

/-- Next to a large disk, which its own disk does not reach, an arc has its arrowhead point away
from the center. -/
theorem arrow_away_from_large_disk :
    Arc.between ⟨⟨0, 0⟩, 0⟩ ⟨⟨160, 0⟩, 150⟩ 60 = .ok (Arc.arch 0 150) ∧
      (Arc.arch 0 150).startRadius + (Arc.arch 0 150).finishRadius <
        (Arc.arch 0 150).finish.distance (Arc.arch 0 150).start ∧
      ∃ arrow, ofArc? (Arc.arch 0 150) 4 = some arrow ∧
        arrow.tip + arrow.direction ≠ (Arc.arch 0 150).finish := by
  have tangent : ((Arc.arch 0 150).head - (Arc.arch 0 150).apex).unit? = some ⟨-4 / 5, 3 / 5⟩ := by
    rw [Vec.unit?_of_dot_self 50]
    · norm_num [Arc.arch, Vec.ext_iff]
    · norm_num [Vec.degenerateLength]
    · norm_num [Arc.arch, Vec.dot]
  have apart : (Arc.arch 0 150).finish.distance (Arc.arch 0 150).start = 160 := by
    apply Vec.length_eq
    · norm_num
    · norm_num [Arc.arch, Vec.dot]
  rw [ofArc?_eq_map, tangent, Option.map_some, apart]
  refine ⟨Arc.between_arch le_rfl (by norm_num), ?_, _, rfl, ?_⟩
  · norm_num [Arc.arch]
  · norm_num [Arc.arch, Vec.ext_iff]

end Arrowhead

end ArcGraph
