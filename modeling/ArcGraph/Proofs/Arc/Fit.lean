import ArcGraph.Proofs.Arc.Curve

/-!
The fitted parabola in exact arithmetic.

Its frame is orthonormal, so that a point is where its two coordinates say. The
graph passes through the tail, the apex and the head. When the axis is the
direction of the bulge, the apex lies over the middle of the span and the graph
is the curve itself; across the chord of a straight arc, it need not be.
-/

namespace ArcGraph

open Scalar

namespace Parabola

/-! ### Two points determine the coefficients -/

theorem coefficients?_eq_some_iff (pu pv qu qv a b : ℝ) :
    coefficients? pu pv qu qv = some (a, b) ↔
      (unitSpacing : ℝ) ≤ |pu * qu * (pu - qu)| ∧
        a = (pv * qu - qv * pu) / (pu * qu * (pu - qu)) ∧
        b = (pu * pu * qv - qu * qu * pv) / (pu * qu * (pu - qu)) := by
  simp only [coefficients?, isFinite_real, Bool.not_true, Bool.false_or, decide_eq_true_eq,
    abs_real, Bool.false_eq_true, if_false]
  split
  case isTrue close => simp only [reduceCtorEq, not_le.mpr close, false_and]
  case isFalse apart =>
    simp only [Option.some.injEq, Prod.mk.injEq, not_lt.mp apart, true_and]
    exact and_congr eq_comm eq_comm

theorem exists_coefficients? {pu qu : ℝ} (pv qv : ℝ)
    (apart : (unitSpacing : ℝ) ≤ |pu * qu * (pu - qu)|) :
    ∃ a b, coefficients? pu pv qu qv = some (a, b) :=
  ⟨_, _, (coefficients?_eq_some_iff pu pv qu qv _ _).mpr ⟨apart, rfl, rfl⟩⟩

theorem unitSpacing_pos : 0 < (unitSpacing : ℝ) := by
  simp [unitSpacing]

theorem eval_of_coefficients? {pu pv qu qv : ℝ} {parabola : Parabola ℝ}
    (solved : coefficients? pu pv qu qv = some (parabola.a, parabola.b)) :
    parabola.eval pu = pv ∧ parabola.eval qu = qv ∧ pu * qu * (pu - qu) ≠ 0 := by
  rw [coefficients?_eq_some_iff] at solved
  obtain ⟨apart, first, second⟩ := solved
  have distinct : pu * qu * (pu - qu) ≠ 0 :=
    abs_pos.mp (lt_of_lt_of_le unitSpacing_pos apart)
  rw [eq_div_iff distinct] at first second
  refine ⟨?_, ?_, distinct⟩
  · apply mul_right_cancel₀ distinct
    simp only [eval]
    linear_combination pu * pu * first + pu * second
  · apply mul_right_cancel₀ distinct
    simp only [eval]
    linear_combination qu * qu * first + qu * second

/-! ### The frame -/

section Frame

variable {axis : Vec ℝ} (chord : Vec ℝ)

theorem crossAxis_eq_or (axis chord : Vec ℝ) :
    crossAxis axis chord = -axis.perp ∨ crossAxis axis chord = -(-axis.perp) := by
  unfold crossAxis
  split
  case isTrue => exact Or.inr rfl
  case isFalse => exact Or.inl rfl

theorem dot_crossAxis_nonneg (axis : Vec ℝ) : 0 ≤ chord.dot (crossAxis axis chord) := by
  rw [Vec.dot_comm]
  unfold crossAxis
  split
  case isTrue backward =>
    simp only [Vec.dot, Vec.perp, Vec.neg_x, Vec.neg_y, ofNat_real, Nat.cast_zero] at backward ⊢
    linarith
  case isFalse forward =>
    simpa only [ofNat_real, Nat.cast_zero, not_lt] using forward

theorem crossAxis_dot_axis (axis : Vec ℝ) : (crossAxis axis chord).dot axis = 0 := by
  rcases crossAxis_eq_or axis chord with across | across <;>
    simp only [across, Vec.dot, Vec.perp, Vec.neg_x, Vec.neg_y] <;>
    ring

/-- A vector is the sum of its two components. -/
theorem eq_crossAxis_add_axis (unit : axis.dot axis = 1) (a : Vec ℝ) :
    a = a.dot (crossAxis axis chord) • crossAxis axis chord + a.dot axis • axis := by
  rcases crossAxis_eq_or axis chord with across | across <;>
    simp only [across, Vec.dot, Vec.perp] at unit ⊢ <;>
    ext <;>
    simp only [Vec.add_x, Vec.add_y, Vec.smul_x, Vec.smul_y, Vec.neg_x, Vec.neg_y]
  · linear_combination -a.x * unit
  · linear_combination -a.y * unit
  · linear_combination -a.x * unit
  · linear_combination -a.y * unit

end Frame

/-! ### The parabola of an arc -/

/-- Everything that goes into the parabola of an arc. -/
theorem ofArc?_eq_some_iff {α : Type} [Scalar α] (arc : Arc α) (parabola : Parabola α) :
    ofArc? arc = some parabola ↔
      ∃ along, arc.chord.unit? = some along ∧
        axis? arc.bulge along arc.chord.length = some parabola.vAxis ∧
        coefficients? ((arc.apex - arc.tail).dot parabola.uAxis)
          ((arc.apex - arc.tail).dot parabola.vAxis) (arc.chord.dot parabola.uAxis)
          (arc.chord.dot parabola.vAxis) = some (parabola.a, parabola.b) ∧
        parabola.origin = arc.tail ∧ parabola.uAxis = crossAxis parabola.vAxis arc.chord ∧
        parabola.span = arc.chord.dot parabola.uAxis := by
  simp only [ofArc?, Arc.head_sub_tail, Arc.apex_sub_middle]
  constructor
  · intro fitted
    cases along? : arc.chord.unit? with
    | none => simp [along?] at fitted
    | some along =>
        simp only [along?] at fitted
        cases axisFound : axis? arc.bulge along arc.chord.length with
        | none => simp [axisFound] at fitted
        | some vAxis =>
            simp only [axisFound] at fitted
            split at fitted
            case h_1 => cases fitted
            case h_2 a b solved =>
              cases fitted
              exact ⟨along, rfl, axisFound, solved, rfl, rfl, rfl⟩
  · rintro ⟨along, direction, axisFound, solved, origin, across, span⟩
    obtain ⟨start, uAxis, vAxis, a, b, extent⟩ := parabola
    simp only at origin across span axisFound solved
    subst across origin span
    simp [direction, axisFound, solved]

/-- A parabola over an orthonormal frame that starts at the tail of an arc and passes through its
apex and its head. -/
structure Fits (parabola : Parabola ℝ) (arc : Arc ℝ) : Prop where
  origin : parabola.origin = arc.tail
  unit : parabola.vAxis.dot parabola.vAxis = 1
  across : parabola.uAxis = crossAxis parabola.vAxis arc.chord
  extent : parabola.span = arc.chord.dot parabola.uAxis
  apex : parabola.eval ((arc.apex - arc.tail).dot parabola.uAxis) =
    (arc.apex - arc.tail).dot parabola.vAxis
  head : parabola.eval parabola.span = arc.chord.dot parabola.vAxis
  apart : (arc.apex - arc.tail).dot parabola.uAxis * parabola.span *
    ((arc.apex - arc.tail).dot parabola.uAxis - parabola.span) ≠ 0

variable {arc : Arc ℝ} {parabola : Parabola ℝ}

theorem dot_self_of_axis? {bulge along axis : Vec ℝ} {length : ℝ}
    (unit : along.dot along = 1) (found : axis? bulge along length = some axis) :
    axis.dot axis = 1 := by
  unfold axis? at found
  split at found
  case isTrue =>
    cases found
    rw [Vec.perp_dot_perp, unit]
  case isFalse => exact Vec.dot_self_of_unit? found

theorem fits_of_ofArc? (fitted : ofArc? arc = some parabola) : parabola.Fits arc := by
  obtain ⟨along, direction, axisFound, solved, origin, across, extent⟩ :=
    (ofArc?_eq_some_iff arc parabola).mp fitted
  obtain ⟨apex, head, apart⟩ := eval_of_coefficients? solved
  rw [← extent] at head apart
  exact ⟨origin, dot_self_of_axis? (Vec.dot_self_of_unit? direction) axisFound, across, extent,
    apex, head, apart⟩

namespace Fits

theorem span_pos (fits : parabola.Fits arc) : 0 < parabola.span := by
  have forward : 0 ≤ parabola.span := by
    rw [fits.extent, fits.across]
    exact dot_crossAxis_nonneg arc.chord parabola.vAxis
  apply lt_of_le_of_ne forward
  intro zero
  apply fits.apart
  rw [← zero]
  ring

theorem uAxis_dot_vAxis (fits : parabola.Fits arc) : parabola.uAxis.dot parabola.vAxis = 0 := by
  rw [fits.across]
  exact crossAxis_dot_axis arc.chord parabola.vAxis

theorem toLocal_tail_add (fits : parabola.Fits arc) (a : Vec ℝ) :
    parabola.toLocal (arc.tail + a) = (a.dot parabola.uAxis, a.dot parabola.vAxis) := by
  simp only [toLocal, fits.origin, Vec.dot, Vec.add_x, Vec.add_y, Vec.sub_x, Vec.sub_y,
    add_sub_cancel_left]

/-- The coordinates determine the point. -/
theorem toLocal_injective (fits : parabola.Fits arc) :
    Function.Injective parabola.toLocal := by
  intro p q same
  have expand := eq_crossAxis_add_axis arc.chord fits.unit
  rw [← fits.across] at expand
  simp only [toLocal, Prod.mk.injEq] at same
  have relative : p - parabola.origin = q - parabola.origin := by
    rw [expand (p - parabola.origin), same.1, same.2, ← expand (q - parabola.origin)]
  rw [Vec.ext_iff] at relative ⊢
  simpa only [Vec.sub_x, Vec.sub_y, sub_left_inj] using relative

/-! ### An axis along the bulge -/

section Parallel

variable {height : ℝ}

theorem eval_of_parallel (fits : parabola.Fits arc)
    (parallel : arc.bulge = height • parabola.vAxis) (t : ℝ) :
    parabola.eval (t * parabola.span) =
      t * arc.chord.dot parabola.vAxis + 4 * t * (1 - t) * height := by
  have apex := fits.apex
  have head := fits.head
  simp only [arc.apex_sub_tail, Vec.add_dot, Vec.smul_dot, parallel, fits.unit,
    Vec.dot_comm parabola.vAxis parabola.uAxis, fits.uAxis_dot_vAxis, ← fits.extent, eval]
    at apex head ⊢
  -- The apex lies over the middle of the span. Apex and head so determine the coefficients, and
  -- the height over any other part of the span is a combination of theirs.
  linear_combination 4 * t * (1 - t) * apex + (2 * t * t - t) * head

theorem toLocal_pointAt_add (fits : parabola.Fits arc)
    (parallel : arc.bulge = height • parabola.vAxis) (t offset : ℝ) :
    parabola.toLocal (arc.pointAt t + offset • parabola.vAxis) =
      (t * parabola.span, parabola.eval (t * parabola.span) + offset) := by
  have regroup : arc.pointAt t + offset • parabola.vAxis =
      arc.tail + (t • arc.chord + (4 * t * (1 - t)) • arc.bulge + offset • parabola.vAxis) := by
    rw [arc.pointAt_eq]
    ext
    · simp only [Vec.add_x]
      ring
    · simp only [Vec.add_y]
      ring
  rw [regroup, fits.toLocal_tail_add, fits.eval_of_parallel parallel]
  simp only [parallel, Vec.add_dot, Vec.smul_dot, Vec.dot_comm parabola.vAxis parabola.uAxis,
    fits.uAxis_dot_vAxis, fits.unit, ← fits.extent, Prod.mk.injEq]
  constructor
  · ring
  · ring

/-- Every point is some way along the axis from a point of the curve, extended beyond its ends. -/
theorem eq_pointAt_add (fits : parabola.Fits arc)
    (parallel : arc.bulge = height • parabola.vAxis) (p : Vec ℝ) :
    p = arc.pointAt ((parabola.toLocal p).1 / parabola.span) +
      ((parabola.toLocal p).2 - parabola.eval (parabola.toLocal p).1) • parabola.vAxis := by
  apply fits.toLocal_injective
  rw [fits.toLocal_pointAt_add parallel, div_mul_cancel₀ _ fits.span_pos.ne', add_sub_cancel]

end Parallel

end Fits

theorem bulge_eq_of_curved (fitted : ofArc? arc = some parabola) (curved : ¬arc.IsStraight) :
    arc.bulge = arc.bulge.length • parabola.vAxis := by
  obtain ⟨along, direction, axisFound, -⟩ := (ofArc?_eq_some_iff arc parabola).mp fitted
  obtain ⟨-, rfl⟩ := (arc.chord.unit?_eq_some_iff along).mp direction
  have ofBulge : arc.bulge.unit? = some parabola.vAxis := (if_neg curved).symm.trans axisFound
  exact Vec.eq_smul_of_unit? ofBulge

/-! ### An axis across the chord -/

section Across

variable (positive : 0 < arc.chord.length)
include positive

theorem chord_dot_along : arc.chord.dot (arc.chord / arc.chord.length) = arc.chord.length := by
  rw [Vec.dot_div, ← Vec.length_mul_length, mul_div_cancel_right₀ _ positive.ne']

theorem bulge_dot_along :
    arc.bulge.dot (arc.chord / arc.chord.length) = arc.skew * arc.chord.length := by
  rw [Arc.skew, Vec.dot_div, ← Vec.length_mul_length]
  field_simp

theorem crossAxis_perp :
    crossAxis (arc.chord / arc.chord.length).perp arc.chord = arc.chord / arc.chord.length := by
  rw [crossAxis, Vec.neg_perp_perp, Vec.dot_comm, chord_dot_along positive, if_neg]
  simpa only [ofNat_real, Nat.cast_zero, not_lt] using positive.le

end Across

/-- A straight arc has a parabola unless its bulge, as far as it goes along the chord, takes the
apex next to the tail or to the head. -/
theorem exists_ofArc?_of_straight (long : Vec.degenerateLength ≤ arc.chord.length)
    (straight : arc.IsStraight)
    (apart : unitSpacing ≤ |arc.chord.length ^ 3 * (arc.skew ^ 2 - 1 / 4)|) :
    ∃ parabola, ofArc? arc = some parabola := by
  have positive : 0 < arc.chord.length := Vec.degenerateLength_pos.trans_le long
  have direction : arc.chord.unit? = some (arc.chord / arc.chord.length) :=
    (arc.chord.unit?_eq_some_iff _).mpr ⟨long, rfl⟩
  have determinant : (arc.apex - arc.tail).dot (arc.chord / arc.chord.length) * arc.chord.length *
      ((arc.apex - arc.tail).dot (arc.chord / arc.chord.length) - arc.chord.length) =
        arc.chord.length ^ 3 * (arc.skew ^ 2 - 1 / 4) := by
    rw [arc.apex_sub_tail, Vec.add_dot, Vec.smul_dot, chord_dot_along positive,
      bulge_dot_along positive]
    ring
  rw [← determinant] at apart
  obtain ⟨a, b, solved⟩ := exists_coefficients?
    ((arc.apex - arc.tail).dot (arc.chord / arc.chord.length).perp)
    (arc.chord.dot (arc.chord / arc.chord.length).perp) apart
  refine ⟨⟨arc.tail, arc.chord / arc.chord.length, (arc.chord / arc.chord.length).perp, a, b,
    arc.chord.length⟩, ?_⟩
  rw [ofArc?_eq_some_iff]
  refine ⟨_, direction, if_pos straight, ?_, rfl, (crossAxis_perp positive).symm,
    (chord_dot_along positive).symm⟩
  rw [chord_dot_along positive]
  exact solved

section Straight

variable (fitted : ofArc? arc = some parabola) (straight : arc.IsStraight)
include fitted straight

theorem frame_of_straight :
    0 < arc.chord.length ∧ parabola.uAxis = arc.chord / arc.chord.length ∧
      parabola.vAxis = (arc.chord / arc.chord.length).perp ∧
      parabola.span = arc.chord.length := by
  obtain ⟨along, direction, axisFound, -, -, across, extent⟩ :=
    (ofArc?_eq_some_iff arc parabola).mp fitted
  have positive := Vec.length_pos_of_unit? direction
  obtain ⟨-, rfl⟩ := (arc.chord.unit?_eq_some_iff along).mp direction
  have aside : some (arc.chord / arc.chord.length).perp = some parabola.vAxis :=
    (if_pos straight).symm.trans axisFound
  rw [Option.some.injEq] at aside
  rw [← aside, crossAxis_perp positive] at across
  rw [across, chord_dot_along positive] at extent
  exact ⟨positive, across, aside.symm, extent⟩

theorem components_of_straight :
    arc.chord.dot parabola.vAxis = 0 ∧
      arc.bulge.dot parabola.uAxis = arc.skew * parabola.span ∧
      arc.bulge.dot parabola.vAxis = -arc.rise := by
  obtain ⟨positive, along, aside, extent⟩ := frame_of_straight fitted straight
  refine ⟨?_, ?_, ?_⟩
  · rw [aside]
    simp only [Vec.dot, Vec.perp, Vec.div_x, Vec.div_y]
    ring
  · rw [along, extent]
    exact bulge_dot_along positive
  · rw [aside, Arc.rise]
    simp only [Vec.dot, Vec.perpDot, Vec.perp, Vec.div_x, Vec.div_y]
    ring

theorem toLocal_pointAt_of_straight (t : ℝ) :
    parabola.toLocal (arc.pointAt t) =
      (arc.share t * parabola.span, -(4 * t * (1 - t) * arc.rise)) := by
  obtain ⟨level, along, across⟩ := components_of_straight fitted straight
  have fits := fits_of_ofArc? fitted
  rw [arc.pointAt_eq, fits.toLocal_tail_add]
  simp only [Vec.add_dot, Vec.smul_dot, level, along, across, ← fits.extent, Arc.share,
    Prod.mk.injEq]
  constructor
  · ring
  · ring

/-- How far the graph is from the curve, where the curve is at parameter `t`. -/
theorem abs_sub_eval_of_straight (t : ℝ) :
    |-(4 * t * (1 - t) * arc.rise) - parabola.eval (arc.share t * parabola.span)| =
      arc.drift t := by
  obtain ⟨level, along, across⟩ := components_of_straight fitted straight
  have fits := fits_of_ofArc? fitted
  have apex := fits.apex
  have head := fits.head
  have apart := fits.apart
  simp only [arc.apex_sub_tail, Vec.add_dot, Vec.smul_dot, level, along, across, ← fits.extent]
    at apex head apart
  -- At a skew of one half the apex would lie over the tail or over the head.
  have uneven : arc.skew ^ 2 - 1 / 4 ≠ 0 := by
    intro even
    apply apart
    linear_combination parabola.span ^ 3 * even
  have height : parabola.eval (arc.share t * parabola.span) * (arc.skew ^ 2 - 1 / 4) =
      -arc.rise * (arc.share t * (arc.share t - 1)) := by
    simp only [eval] at apex head ⊢
    linear_combination arc.share t * (arc.share t - 1) * apex +
      arc.share t * (arc.skew + 1 / 2) * (arc.skew + 1 / 2 - arc.share t) * head
  rw [Arc.drift, ← abs_neg]
  congr 1
  rw [eq_div_iff uneven]
  simp only [Arc.share] at height ⊢
  linear_combination height

end Straight

end Parabola

end ArcGraph
