import ArcGraph.Proofs.Arc.Hit

/-!
Which points of the curve hit the arc, in exact arithmetic.

Outside the two disks every point of a curve hits, unless the arc counts as
straight. The parabola of a straight arc has its axis across the chord. When the
radii differ, the bulge may all the same go far along the chord, and then the
parabola drifts off the curve, at times by far more than the tolerance. Between
disks of one radius the bulge is across the chord.
-/

namespace ArcGraph.Arc

open Scalar

variable {arc : Arc ℝ} {parabola : Parabola ℝ} {t distance : ℝ}
  {start finish : Disk ℝ} {curvature : ℝ}

theorem isHit_pointAt_eq (found : between start finish curvature = .ok arc)
    (first : 0 ≤ t) (last : t ≤ 1) (proper : 0 ≤ distance) :
    arc.isHit (arc.pointAt t) distance =
      decide (arc.judgeUnscreened (arc.pointAt t) distance = .hit) := by
  have unit := normal_dot_self found
  have near : |(0 : ℝ)| ≤ distance + arc.slack := by
    rw [abs_zero]
    exact arc.tolerance_nonneg proper
  apply isHit_eq_of_screen
  intro _
  rw [← Vec.add_zero_smul (arc.pointAt t) arc.normal]
  exact arc.isBesideHull_pointAt_add unit first last unit near

theorem judgeUnscreened_pointAt_of_curved (fitted : Parabola.ofArc? arc = some parabola)
    (curved : ¬arc.IsStraight) (first : 0 ≤ t) (last : t ≤ 1) (proper : 0 ≤ distance)
    (outside : arc.startRadius ≤ (arc.pointAt t).distance arc.start ∧
      arc.finishRadius ≤ (arc.pointAt t).distance arc.finish) :
    arc.judgeUnscreened (arc.pointAt t) distance = .hit := by
  rw [judgeUnscreened_eq_hit_iff_of_curved fitted curved proper]
  refine ⟨⟨t, 0, first, last, ?_, ?_⟩, outside⟩
  · rw [abs_zero]
    exact arc.tolerance_nonneg proper
  · exact (Vec.add_zero_smul (arc.pointAt t) parabola.vAxis).symm

theorem judgeUnscreened_pointAt_of_straight (fitted : Parabola.ofArc? arc = some parabola)
    (straight : arc.IsStraight) (proper : 0 ≤ distance)
    (outside : arc.startRadius ≤ (arc.pointAt t).distance arc.start ∧
      arc.finishRadius ≤ (arc.pointAt t).distance arc.finish) :
    arc.judgeUnscreened (arc.pointAt t) distance = .hit ↔
      0 ≤ arc.share t ∧ arc.share t ≤ 1 ∧ arc.drift t ≤ distance + arc.slack := by
  have positive := (Parabola.fits_of_ofArc? fitted).span_pos
  rw [judgeUnscreened_eq_hit_iff fitted proper,
    Parabola.toLocal_pointAt_of_straight fitted straight,
    Parabola.abs_sub_eval_of_straight fitted straight,
    mul_div_cancel_right₀ (arc.share t) positive.ne']
  constructor
  · rintro ⟨near, before, after, -⟩
    exact ⟨before, after, near⟩
  · rintro ⟨before, after, near⟩
    exact ⟨near, before, after, outside⟩

/-! ### One radius -/

theorem skew_eq_zero_of_radius_eq (found : between start finish curvature = .ok arc)
    (same : arc.startRadius = arc.finishRadius) : arc.skew = 0 := by
  rw [skew, bulge_dot_chord found, same, sub_self, zero_div, zero_div]

/-- Between disks of one radius every point of the curve outside them hits the arc. -/
theorem isHit_pointAt_of_radius_eq (found : between start finish curvature = .ok arc)
    (same : arc.startRadius = arc.finishRadius) (fitted : Parabola.ofArc? arc = some parabola)
    (first : 0 ≤ t) (last : t ≤ 1) (proper : 0 ≤ distance)
    (outside : arc.startRadius ≤ (arc.pointAt t).distance arc.start)
    (outside' : arc.finishRadius ≤ (arc.pointAt t).distance arc.finish) :
    arc.isHit (arc.pointAt t) distance = true := by
  rw [isHit_pointAt_eq found first last proper, decide_eq_true_eq]
  by_cases straight : arc.IsStraight
  · rw [judgeUnscreened_pointAt_of_straight fitted straight proper ⟨outside, outside'⟩]
    have even := skew_eq_zero_of_radius_eq found same
    have share : arc.share t = t := by
      rw [Arc.share, even]
      ring
    have drift : arc.drift t = 0 := by
      rw [Arc.drift, even]
      norm_num
    rw [share, drift]
    exact ⟨first, last, arc.tolerance_nonneg proper⟩
  · exact judgeUnscreened_pointAt_of_curved fitted straight first last proper ⟨outside, outside'⟩

/-! ### A bulge along the chord -/

/-- The arch from a point to the disk that all but reaches its apex. Its bulge goes along the chord
by half of it. -/
noncomputable def slanted : Arc ℝ :=
  arch 0 (9999 / 100)

theorem between_slanted :
    between ⟨⟨0, 0⟩, 0⟩ ⟨⟨160, 0⟩, 9999 / 100⟩ 60 = .ok slanted :=
  between_arch le_rfl (by norm_num)

theorem length_slanted : 100 ≤ slanted.chord.length ∧ slanted.chord.length ≤ 101 := by
  rw [Vec.length, slanted, chord_arch]
  constructor
  · apply Real.le_sqrt_of_sq_le
    norm_num [Vec.dot]
  · apply Real.sqrt_le_iff.mpr
    norm_num [Vec.dot]

theorem skew_slanted : slanted.skew = 499999995 / 1000056010 := by
  rw [skew, slanted, chord_arch, bulge_arch]
  norm_num [Vec.dot]

theorem rise_slanted : slanted.rise = -(24 / 25) / slanted.chord.length := by
  have cross : slanted.bulge.perpDot slanted.chord = -(24 / 25) := by
    rw [slanted, chord_arch, bulge_arch]
    norm_num [Vec.perpDot]
  rw [rise, ← cross]
  simp only [Vec.perpDot, Vec.div_x, Vec.div_y]
  ring

theorem isStraight_slanted : slanted.IsStraight := by
  obtain ⟨least, -⟩ := length_slanted
  have positive : 0 < slanted.chord.length := by linarith
  rw [IsStraight, abs_real, rise_slanted, abs_div, abs_of_pos positive, div_le_iff₀ positive]
  norm_num [Parabola.straightRatio]
  nlinarith

theorem exists_ofArc?_slanted : ∃ parabola, Parabola.ofArc? slanted = some parabola := by
  obtain ⟨least, -⟩ := length_slanted
  apply Parabola.exists_ofArc?_of_straight _ isStraight_slanted
  · rw [skew_slanted, abs_mul]
    have cube : (1 : ℝ) ≤ |slanted.chord.length ^ 3| := by
      apply le_trans (one_le_pow₀ _) (le_abs_self _)
      linarith
    have part : (Parabola.unitSpacing : ℝ) ≤ |(499999995 / 1000056010) ^ 2 - 1 / 4| := by
      norm_num [Parabola.unitSpacing, abs_of_neg]
    exact part.trans (le_mul_of_one_le_left (abs_nonneg _) cube)
  · norm_num [Vec.degenerateLength]
    linarith

theorem drift_slanted : 70 ≤ slanted.drift (1 / 4) ∧ slanted.drift (1 / 4) ≤ 90 := by
  obtain ⟨least, greatest⟩ := length_slanted
  have positive : 0 < slanted.chord.length := by linarith
  rw [drift, rise_slanted, skew_slanted, mul_assoc, mul_div_assoc, abs_mul, abs_div,
    abs_of_pos positive, div_mul_eq_mul_div, le_div_iff₀ positive, div_le_iff₀ positive]
  norm_num [abs_of_neg]
  constructor
  · linarith
  · linarith

theorem slack_slanted : slanted.slack = 1 / 1000 := by
  norm_num [slack, maxNumber_real, leastSlack, Parabola.unitSpacing, Vec.greatestSize, slanted,
    arch]

theorem outside_slanted :
    slanted.startRadius ≤ (slanted.pointAt (1 / 4)).distance slanted.start ∧
      slanted.finishRadius ≤ (slanted.pointAt (1 / 4)).distance slanted.finish := by
  constructor
  · exact Vec.length_nonneg _
  · rw [Vec.distance, Vec.length]
    apply Real.le_sqrt_of_sq_le
    norm_num [slanted, arch, pointAt, Bezier.quadratic, handle, Vec.dot]

/-! ### Any radii -/

/-- The points of the curve that hit the arc. Of a straight arc they are those that the parabola
does not drift away from. -/
theorem isHit_pointAt_iff (found : between start finish curvature = .ok arc)
    (fitted : Parabola.ofArc? arc = some parabola) (first : 0 ≤ t) (last : t ≤ 1)
    (proper : 0 ≤ distance)
    (outside : arc.startRadius ≤ (arc.pointAt t).distance arc.start)
    (outside' : arc.finishRadius ≤ (arc.pointAt t).distance arc.finish) :
    arc.isHit (arc.pointAt t) distance = true ↔
      (arc.IsStraight →
        0 ≤ arc.share t ∧ arc.share t ≤ 1 ∧ arc.drift t ≤ distance + arc.slack) := by
  rw [isHit_pointAt_eq found first last proper, decide_eq_true_eq]
  by_cases straight : arc.IsStraight
  · rw [judgeUnscreened_pointAt_of_straight fitted straight proper ⟨outside, outside'⟩]
    constructor
    · intro near _
      exact near
    · intro near
      exact near straight
  · constructor
    · intro _ contrary
      exact absurd contrary straight
    · intro _
      exact judgeUnscreened_pointAt_of_curved fitted straight first last proper
        ⟨outside, outside'⟩

theorem isHit_pointAt_iff_slanted :
    between ⟨⟨0, 0⟩, 0⟩ ⟨⟨160, 0⟩, 9999 / 100⟩ 60 = .ok slanted ∧
      (Parabola.ofArc? slanted).isSome ∧ (0 : ℝ) ≤ 1 / 4 ∧ (1 / 4 : ℝ) ≤ 1 ∧ (0 : ℝ) ≤ 100 ∧
      slanted.startRadius ≤ (slanted.pointAt (1 / 4)).distance slanted.start ∧
      slanted.finishRadius ≤ (slanted.pointAt (1 / 4)).distance slanted.finish ∧
      slanted.isHit (slanted.pointAt (1 / 4)) 100 = true := by
  obtain ⟨parabola, fitted⟩ := exists_ofArc?_slanted
  obtain ⟨outside, outside'⟩ := outside_slanted
  have first : (0 : ℝ) ≤ 1 / 4 := by norm_num
  have last : (1 / 4 : ℝ) ≤ 1 := by norm_num
  have proper : (0 : ℝ) ≤ 100 := by norm_num
  refine ⟨between_slanted, by simp [fitted], first, last, proper, outside, outside', ?_⟩
  rw [isHit_pointAt_iff between_slanted fitted first last proper outside outside']
  intro _
  have near := drift_slanted.2
  rw [share, skew_slanted, slack_slanted]
  refine ⟨?_, ?_, ?_⟩
  · norm_num
  · norm_num
  · linarith

/-- A point of the slanted arch that is in neither disk and yet does not hit the arc. -/
theorem slanted_quarter_not_isHit :
    ∃ parabola, between ⟨⟨0, 0⟩, 0⟩ ⟨⟨160, 0⟩, 9999 / 100⟩ 60 = .ok slanted ∧
      Parabola.ofArc? slanted = some parabola ∧
      slanted.startRadius ≤ (slanted.pointAt (1 / 4)).distance slanted.start ∧
      slanted.finishRadius ≤ (slanted.pointAt (1 / 4)).distance slanted.finish ∧
      slanted.isHit (slanted.pointAt (1 / 4)) 0 = false := by
  obtain ⟨parabola, fitted⟩ := exists_ofArc?_slanted
  obtain ⟨outside, outside'⟩ := outside_slanted
  refine ⟨parabola, between_slanted, fitted, outside, outside', ?_⟩
  rw [isHit_pointAt_eq between_slanted (by norm_num) (by norm_num) le_rfl, decide_eq_false_iff_not,
    judgeUnscreened_pointAt_of_straight fitted isStraight_slanted le_rfl outside_slanted,
    slack_slanted]
  rintro ⟨-, -, near⟩
  have far := drift_slanted.1
  linarith

end ArcGraph.Arc
