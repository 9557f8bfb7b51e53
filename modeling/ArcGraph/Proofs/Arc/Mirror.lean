import ArcGraph.Proofs.Arc.Curve

/-!
The arc of the way back.

Exchanging the disks turns the normal of the chord round and keeps the apex at
its distance from the chord. All that is computed from these is mirrored in the
line through the centers: the ends of the curve, its handle and its points.
-/

namespace ArcGraph

open Scalar

namespace Vec

/-- The mirror image of a vector in the line that has the given unit normal. -/
noncomputable def flip (normal v : Vec ℝ) : Vec ℝ :=
  v - (ofNat 2 * normal.dot v) • normal

/-- The mirror image of a point in the line through two others. -/
noncomputable def mirror (p a b : Vec ℝ) : Vec ℝ :=
  a + ((ofNat 2 * ((p - a).dot (b - a) / (b - a).dot (b - a))) • (b - a) - (p - a))

variable {v u normal : Vec ℝ}

theorem unit?_of_length_eq {w : Vec ℝ} (direction : v.unit? = some u)
    (length : w.length = v.length) : w.unit? = some (w / v.length) := by
  rw [unit?_eq_some_iff, length]
  exact ⟨((v.unit?_eq_some_iff u).mp direction).1, rfl⟩

theorem unit?_neg (direction : v.unit? = some u) : (-v).unit? = some (-u) := by
  have length : (-v).length = v.length := by
    rw [Vec.length, Vec.length]
    congr 1
    simp [dot]
  obtain ⟨-, rfl⟩ := (v.unit?_eq_some_iff u).mp direction
  rw [unit?_of_length_eq direction length]
  simp [Vec.ext_iff, neg_div]

theorem flip_x (normal v : Vec ℝ) :
    (flip normal v).x = v.x - 2 * (normal.x * v.x + normal.y * v.y) * normal.x := by
  simp [flip, dot]

theorem flip_y (normal v : Vec ℝ) :
    (flip normal v).y = v.y - 2 * (normal.x * v.x + normal.y * v.y) * normal.y := by
  simp [flip, dot]

theorem dot_flip_self (unit : normal.dot normal = 1) :
    (flip normal v).dot (flip normal v) = v.dot v := by
  simp only [dot, flip_x, flip_y] at unit ⊢
  linear_combination 4 * (normal.x * v.x + normal.y * v.y) ^ 2 * unit

theorem flip_smul (normal v : Vec ℝ) (k : ℝ) : flip normal (k • v) = k • flip normal v := by
  ext
  · simp only [flip_x, smul_x, smul_y]
    ring
  · simp only [flip_y, smul_x, smul_y]
    ring

theorem unit?_flip (unit : normal.dot normal = 1) (direction : v.unit? = some u) :
    (flip normal v).unit? = some (flip normal u) := by
  have length : (flip normal v).length = v.length := by
    rw [Vec.length, dot_flip_self unit, Vec.length]
  obtain ⟨-, rfl⟩ := (v.unit?_eq_some_iff u).mp direction
  rw [unit?_of_length_eq direction length, Option.some.injEq]
  ext
  · simp only [flip_x, div_x, div_y]
    ring
  · simp only [flip_y, div_x, div_y]
    ring

end Vec

namespace Arc

variable (arc : Arc ℝ)

noncomputable def mirror (p : Vec ℝ) : Vec ℝ :=
  p - (ofNat 2 * arc.side p) • arc.normal

noncomputable def backward : Arc ℝ where
  start := arc.finish
  finish := arc.start
  startRadius := arc.finishRadius
  finishRadius := arc.startRadius
  curvature := arc.curvature
  normal := -arc.normal
  offset := -arc.offset
  reach := -arc.reach
  midpoint := arc.midpoint
  apex := arc.mirror arc.apex
  tail := arc.mirror arc.head
  head := arc.mirror arc.tail

theorem mirror_x (p : Vec ℝ) : (arc.mirror p).x = p.x - 2 * arc.side p * arc.normal.x := by
  simp [mirror]

theorem mirror_y (p : Vec ℝ) : (arc.mirror p).y = p.y - 2 * arc.side p * arc.normal.y := by
  simp [mirror]

/-- The curve of the way back is the mirror image of the curve, run through backwards. -/
theorem pointAt_backward (t : ℝ) : arc.backward.pointAt t = arc.mirror (arc.pointAt (1 - t)) := by
  ext
  · simp only [mirror_x, pointAt, Bezier.quadratic, handle, backward, side, Vec.dot, Vec.add_x,
      Vec.add_y, Vec.sub_x, Vec.sub_y, Vec.smul_x, Vec.smul_y, ofNat_real]
    push_cast
    ring
  · simp only [mirror_y, pointAt, Bezier.quadratic, handle, backward, side, Vec.dot, Vec.add_x,
      Vec.add_y, Vec.sub_x, Vec.sub_y, Vec.smul_x, Vec.smul_y, ofNat_real]
    push_cast
    ring

theorem mirror_add {p : Vec ℝ} (on : arc.side p = 0) (v : Vec ℝ) :
    arc.mirror (p + v) = p + Vec.flip arc.normal v := by
  simp only [side, Vec.dot] at on
  ext
  · simp only [mirror_x, Vec.flip_x, side, Vec.dot, Vec.add_x, Vec.add_y]
    linear_combination -2 * arc.normal.x * on
  · simp only [mirror_y, Vec.flip_y, side, Vec.dot, Vec.add_x, Vec.add_y]
    linear_combination -2 * arc.normal.y * on

theorem mirror_sub {p : Vec ℝ} (on : arc.side p = 0) (q : Vec ℝ) :
    arc.mirror q - p = Vec.flip arc.normal (q - p) := by
  have whole : p + (q - p) = q := by simp [Vec.ext_iff]
  have image := arc.mirror_add on (q - p)
  rw [whole] at image
  rw [image]
  simp [Vec.ext_iff]

section Ends

variable {start finish : Disk ℝ} {curvature : ℝ} {arc : Arc ℝ}
  (found : between start finish curvature = .ok arc)
include found

theorem side_mirror (p : Vec ℝ) : arc.side (arc.mirror p) = -arc.side p := by
  have unit := normal_dot_self found
  simp only [side, Vec.dot, mirror_x, mirror_y] at unit ⊢
  linear_combination
    -2 * (arc.normal.x * p.x + arc.normal.y * p.y - arc.offset) * unit

theorem mirror_apex : arc.mirror arc.apex =
    (ofNat 1 / ofNat 2 : ℝ) • (finish.center + start.center) + curvature • -arc.normal := by
  have height := side_apex found
  obtain ⟨-, along, fromStart, fromFinish, -, -, -, shape⟩ := between_cases found
  ext
  · rw [mirror_x, height]
    simp only [shape, Vec.add_x, Vec.smul_x, Vec.neg_x]
    ring
  · rw [mirror_y, height]
    simp only [shape, Vec.add_y, Vec.smul_y, Vec.neg_y]
    ring

/-- The line of the chord is the line through the centers. -/
theorem mirror_eq (p : Vec ℝ) : arc.mirror p = p.mirror start.center finish.center := by
  obtain ⟨-, along, fromStart, fromFinish, direction, -, -, shape⟩ := between_cases found
  have unit := Vec.dot_self_of_unit? direction
  have positive := Vec.length_pos_of_unit? direction
  have across := Vec.eq_smul_of_unit? direction
  generalize (finish.center - start.center).length = far at positive across
  have share : (p - start.center).dot (far • along) / (far • along).dot (far • along) * far =
      (p - start.center).dot along := by
    rw [Vec.dot_comm, Vec.smul_dot, Vec.smul_dot, Vec.dot_comm along (far • along), Vec.smul_dot,
      unit, Vec.dot_comm along]
    field_simp
  rw [Vec.mirror, across]
  generalize (p - start.center).dot (far • along) / (far • along).dot (far • along) = part
    at share ⊢
  simp only [Vec.dot, Vec.sub_x, Vec.sub_y] at unit share
  ext
  · simp only [shape, mirror, side, Vec.dot, Vec.perp, Vec.add_x, Vec.sub_x, Vec.smul_x,
      ofNat_real]
    push_cast
    linear_combination -2 * (p.x - start.center.x) * unit - 2 * along.x * share
  · simp only [shape, mirror, side, Vec.dot, Vec.perp, Vec.add_y, Vec.sub_y, Vec.smul_y,
      ofNat_real]
    push_cast
    linear_combination -2 * (p.y - start.center.y) * unit - 2 * along.y * share

/-- What the arc of the way back takes over from the arc, whatever its own curvature is. -/
theorem between_back {bend : ℝ} {apex fromStart fromFinish : Vec ℝ}
    (top : apex = (ofNat 1 / ofNat 2 : ℝ) • (finish.center + start.center) + bend • -arc.normal)
    (start? : (apex - start.center).unit? = some fromStart)
    (finish? : (apex - finish.center).unit? = some fromFinish) :
    between finish start bend = .ok {
      start := arc.finish
      finish := arc.start
      startRadius := arc.finishRadius
      finishRadius := arc.startRadius
      curvature := bend
      normal := -arc.normal
      offset := -arc.offset
      reach := -arc.reach
      midpoint := arc.midpoint
      apex
      tail := finish.center + arc.finishRadius • fromFinish
      head := start.center + arc.startRadius • fromStart } := by
  have onFinish := (side_centers found).2
  obtain ⟨-, along, ahead, behind, direction, -, -, shape⟩ := between_cases found
  have turned : (start.center - finish.center).unit? = some (-along) := by
    have back : start.center - finish.center = -(finish.center - start.center) := by
      simp [Vec.ext_iff]
    rw [back]
    exact Vec.unit?_neg direction
  have normal : (-along).perp = -arc.normal := by
    rw [shape]
    simp [Vec.ext_iff, Vec.perp]
  simp only [between, Vec.isFinite_real, isFinite_real, turned, normal, ← top, start?, finish?,
    Bool.and_self, Bool.not_true, Bool.false_eq_true, if_false, Except.ok.injEq, Arc.mk.injEq]
  refine ⟨by rw [shape], by rw [shape], by rw [shape], by rw [shape], trivial, trivial,
    ?offset, ?reach, ?midpoint, trivial, by rw [shape], by rw [shape]⟩
  case offset =>
    simp only [side, Vec.dot, Vec.neg_x, Vec.neg_y] at onFinish ⊢
    linear_combination -onFinish
  case reach =>
    rw [shape]
    simp only [Vec.ext_iff, Vec.neg_x, Vec.neg_y, Vec.sub_x, Vec.sub_y, Vec.smul_x, Vec.smul_y]
    constructor
    · ring
    · ring
  case midpoint =>
    rw [shape]
    simp only [Vec.ext_iff, Vec.add_x, Vec.add_y, Vec.smul_x, Vec.smul_y]
    constructor
    · ring
    · ring

/-- The arc between the disks in the other order is the arc of the way back. -/
theorem between_swap : between finish start curvature = .ok arc.backward := by
  obtain ⟨onStart, onFinish⟩ := side_centers found
  have unit := normal_dot_self found
  obtain ⟨-, along, fromStart, fromFinish, -, start?, finish?, shape⟩ := between_cases found
  have toStart : (arc.mirror arc.apex - start.center).unit? =
      some (Vec.flip arc.normal fromStart) := by
    rw [arc.mirror_sub onStart]
    exact Vec.unit?_flip unit start?
  have toFinish : (arc.mirror arc.apex - finish.center).unit? =
      some (Vec.flip arc.normal fromFinish) := by
    rw [arc.mirror_sub onFinish]
    exact Vec.unit?_flip unit finish?
  have bend : arc.curvature = curvature := by rw [shape]
  have tail : arc.tail = start.center + arc.startRadius • fromStart := by rw [shape]
  have head : arc.head = finish.center + arc.finishRadius • fromFinish := by rw [shape]
  rw [between_back found (mirror_apex found) toStart toFinish, backward, bend, head, tail,
    arc.mirror_add onFinish, arc.mirror_add onStart, Vec.flip_smul, Vec.flip_smul]

end Ends

end Arc

end ArcGraph
