import ArcGraph.Proofs.Arc.Fit

/-!
What it means to hit an arc, in exact arithmetic.

A point hits an arc that is not straight if and only if, along the axis of the
parabola, it is within the tolerance of a point of the curve and in neither
disk. Such a point is inside the hull, so that the hull test only saves work.
-/

namespace ArcGraph.Arc

open Scalar

section Screen

variable {α : Type} [Scalar α] (arc : Arc α) (p : Vec α) (distance : α)

/-- The judgement of a point without the hull test. -/
def judgeUnscreened : Judgement :=
  if !p.isFinite || isNaN distance || decide (distance < ofNat 0) then .invalid
  else match Parabola.ofArc? arc with
    | none => .noParabola
    | some parabola =>
      let (u, v) := parabola.toLocal p
      if distance + arc.slack < abs (v - parabola.eval u) then .offCurve
      else
        let share := u / parabola.span
        if !(decide (ofNat 0 ≤ share) && decide (share ≤ ofNat 1)) then .beyondEnds
        else if arc.isInsideDisk p then .insideDisk
        else .hit

theorem judge_of_not_beside (screen : arc.isBesideHull p (distance + arc.slack) = false) :
    arc.judge p distance = arc.judgeUnscreened p distance := by
  unfold judge judgeUnscreened
  split
  case isTrue => rfl
  case isFalse =>
    apply if_neg
    rw [screen]
    exact Bool.false_ne_true

theorem judge_eq_hit_iff :
    arc.judge p distance = .hit ↔
      arc.isBesideHull p (distance + arc.slack) = false ∧
        arc.judgeUnscreened p distance = .hit := by
  cases screen : arc.isBesideHull p (distance + arc.slack) with
  | false => simp [judge_of_not_beside arc p distance screen]
  | true =>
      unfold judge
      split
      case isTrue => simp
      case isFalse => simp [screen]

theorem isInsideDisk_eq_false_iff :
    arc.isInsideDisk p = false ↔
      arc.startRadius ≤ p.distance arc.start ∧ arc.finishRadius ≤ p.distance arc.finish := by
  simp only [isInsideDisk, Bool.not_eq_false', Bool.and_eq_true, decide_eq_true_eq]

theorem isHit_eq_false_of_isInsideDisk (inside : arc.isInsideDisk p = true) :
    arc.isHit p distance = false := by
  rw [isHit, decide_eq_false_iff_not, judge_eq_hit_iff]
  rintro ⟨-, hit⟩
  simp only [judgeUnscreened, inside, if_true] at hit
  split at hit
  case isTrue => cases hit
  case isFalse =>
    split at hit
    case h_1 => cases hit
    case h_2 =>
      split at hit
      case isTrue => cases hit
      case isFalse => split at hit <;> cases hit

end Screen

variable (arc : Arc ℝ) {parabola : Parabola ℝ} {p : Vec ℝ} {distance : ℝ}

theorem slack_pos : 0 < arc.slack := by
  have least : (0 : ℝ) < leastSlack := by simp [leastSlack]
  rw [slack, maxNumber_real]
  exact lt_max_of_lt_left least

theorem tolerance_nonneg (proper : 0 ≤ distance) : 0 ≤ distance + arc.slack :=
  add_nonneg proper arc.slack_pos.le

variable {arc}

theorem judgeUnscreened_eq_hit_iff (fitted : Parabola.ofArc? arc = some parabola)
    (proper : 0 ≤ distance) :
    arc.judgeUnscreened p distance = .hit ↔
      |(parabola.toLocal p).2 - parabola.eval (parabola.toLocal p).1| ≤ distance + arc.slack ∧
        0 ≤ (parabola.toLocal p).1 / parabola.span ∧
        (parabola.toLocal p).1 / parabola.span ≤ 1 ∧
        arc.startRadius ≤ p.distance arc.start ∧ arc.finishRadius ≤ p.distance arc.finish := by
  have valid : ¬(!p.isFinite || isNaN distance || decide (distance < ofNat 0)) = true := by
    simp [Vec.isFinite_real, proper]
  rw [judgeUnscreened, if_neg valid, fitted, ← isInsideDisk_eq_false_iff]
  simp only [abs_real, ofNat_real, Nat.cast_zero, Nat.cast_one]
  split
  case isTrue far => simp [not_le.mpr far]
  case isFalse near =>
    simp only [not_lt.mp near, true_and]
    split
    case isTrue beyond =>
      simp only [Bool.not_eq_true', Bool.and_eq_false_iff, decide_eq_false_iff_not] at beyond
      simp only [reduceCtorEq, false_iff]
      rintro ⟨nonneg, small, -⟩
      rcases beyond with before | after
      · exact before nonneg
      · exact after small
    case isFalse between =>
      simp only [Bool.not_eq_true', Bool.not_eq_false, Bool.and_eq_true, decide_eq_true_eq]
        at between
      cases inside : arc.isInsideDisk p with
      | false => simp [between]
      | true => simp

/-- Where the hull test leaves every hit of the other tests standing, it changes nothing. -/
theorem isHit_eq_of_screen
    (screen : arc.judgeUnscreened p distance = .hit →
      arc.isBesideHull p (distance + arc.slack) = false) :
    arc.isHit p distance = decide (arc.judgeUnscreened p distance = .hit) := by
  rw [isHit, decide_eq_decide, judge_eq_hit_iff]
  constructor
  · intro both
    exact both.2
  · intro hit
    exact ⟨screen hit, hit⟩

/-! ### Arcs that are not straight -/

section Curved

variable (fitted : Parabola.ofArc? arc = some parabola) (curved : ¬arc.IsStraight)
include fitted curved

theorem judgeUnscreened_eq_hit_iff_of_curved (proper : 0 ≤ distance) :
    arc.judgeUnscreened p distance = .hit ↔
      (∃ t offset, 0 ≤ t ∧ t ≤ 1 ∧ |offset| ≤ distance + arc.slack ∧
        p = arc.pointAt t + offset • parabola.vAxis) ∧
      arc.startRadius ≤ p.distance arc.start ∧ arc.finishRadius ≤ p.distance arc.finish := by
  have fits := Parabola.fits_of_ofArc? fitted
  have parallel := Parabola.bulge_eq_of_curved fitted curved
  rw [judgeUnscreened_eq_hit_iff fitted proper]
  constructor
  · rintro ⟨near, first, last, outside⟩
    exact ⟨⟨_, _, first, last, near, fits.eq_pointAt_add parallel p⟩, outside⟩
  · rintro ⟨⟨t, offset, first, last, near, rfl⟩, outside⟩
    rw [fits.toLocal_pointAt_add parallel, mul_div_cancel_right₀ t fits.span_pos.ne',
      add_sub_cancel_left]
    exact ⟨near, first, last, outside⟩

theorem isHit_eq_of_curved (unit : arc.normal.dot arc.normal = 1) (proper : 0 ≤ distance) :
    arc.isHit p distance = decide (arc.judgeUnscreened p distance = .hit) := by
  apply isHit_eq_of_screen
  intro hit
  obtain ⟨⟨t, offset, first, last, near, rfl⟩, -⟩ :=
    (judgeUnscreened_eq_hit_iff_of_curved fitted curved proper).mp hit
  exact arc.isBesideHull_pointAt_add unit first last (Parabola.fits_of_ofArc? fitted).unit near

end Curved

/-- An arc of height 60 between disks whose centers are 160 apart. -/
noncomputable def arch (r s : ℝ) : Arc ℝ where
  start := ⟨0, 0⟩
  finish := ⟨160, 0⟩
  startRadius := r
  finishRadius := s
  curvature := 60
  normal := ⟨0, 1⟩
  offset := 0
  reach := ⟨160 - (r + s), 0⟩
  midpoint := ⟨80, 0⟩
  apex := ⟨80, 60⟩
  tail := ⟨r * 0.8, r * 0.6⟩
  head := ⟨160 - s * 0.8, s * 0.6⟩

theorem between_arch {r s : ℝ} (nonneg : 0 ≤ r) (nonneg' : 0 ≤ s) :
    between ⟨⟨0, 0⟩, r⟩ ⟨⟨160, 0⟩, s⟩ 60 = .ok (arch r s) := by
  have proper : Disk.properRadius r = r := by
    simp [Disk.properRadius, Disk.isProperRadius, nonneg]
  have proper' : Disk.properRadius s = s := by
    simp [Disk.properRadius, Disk.isProperRadius, nonneg']
  have along : ((⟨160, 0⟩ : Vec ℝ) - ⟨0, 0⟩).unit? = some ⟨1, 0⟩ := by
    rw [Vec.unit?_of_dot_self 160]
    · simp [Vec.ext_iff]
    · norm_num [Vec.degenerateLength]
    · norm_num [Vec.dot]
  have fromStart : ((ofNat 1 / ofNat 2 : ℝ) • ((⟨0, 0⟩ : Vec ℝ) + ⟨160, 0⟩) +
      (60 : ℝ) • (⟨1, 0⟩ : Vec ℝ).perp - ⟨0, 0⟩).unit? = some ⟨4 / 5, 3 / 5⟩ := by
    rw [Vec.unit?_of_dot_self 100]
    · norm_num [Vec.ext_iff, Vec.perp]
    · norm_num [Vec.degenerateLength]
    · norm_num [Vec.dot, Vec.perp]
  have fromFinish : ((ofNat 1 / ofNat 2 : ℝ) • ((⟨0, 0⟩ : Vec ℝ) + ⟨160, 0⟩) +
      (60 : ℝ) • (⟨1, 0⟩ : Vec ℝ).perp - ⟨160, 0⟩).unit? = some ⟨-4 / 5, 3 / 5⟩ := by
    rw [Vec.unit?_of_dot_self 100]
    · norm_num [Vec.ext_iff, Vec.perp]
    · norm_num [Vec.degenerateLength]
    · norm_num [Vec.dot, Vec.perp]
  simp only [between, Vec.isFinite_real, isFinite_real, along, fromStart, fromFinish, proper,
    proper', Bool.and_self, Bool.not_true, Bool.false_eq_true, if_false, Except.ok.injEq, arch,
    Arc.mk.injEq]
  norm_num [Vec.ext_iff, Vec.perp, Vec.dot]
  ring

theorem chord_arch (r s : ℝ) :
    (arch r s).chord = ⟨160 - (r + s) * (4 / 5), (s - r) * (3 / 5)⟩ := by
  ext
  · simp only [chord, arch, Vec.sub_x]
    ring
  · simp only [chord, arch, Vec.sub_y]
    ring

theorem bulge_arch (r s : ℝ) :
    (arch r s).bulge = ⟨(s - r) * (2 / 5), 60 - (r + s) * (3 / 10)⟩ := by
  ext
  · simp only [bulge, arch, Vec.sub_x, Vec.smul_x, Vec.add_x, ofNat_real]
    push_cast
    ring
  · simp only [bulge, arch, Vec.sub_y, Vec.smul_y, Vec.add_y, ofNat_real]
    push_cast
    ring

theorem direction_arch : (arch 50 50).chord.unit? = some ⟨1, 0⟩ := by
  rw [chord_arch, Vec.unit?_of_dot_self 80]
  · norm_num [Vec.ext_iff]
  · norm_num [Vec.degenerateLength]
  · norm_num [Vec.dot]

theorem length_chord_arch : (arch 50 50).chord.length = 80 := by
  apply Vec.length_eq
  · norm_num
  · norm_num [chord_arch, Vec.dot]

theorem not_isStraight_arch : ¬(arch 50 50).IsStraight := by
  rw [IsStraight, rise, length_chord_arch, chord_arch, bulge_arch]
  norm_num [Vec.perpDot, Parabola.straightRatio]

theorem ofArc?_arch : Parabola.ofArc? (arch 50 50) =
    some ⟨⟨40, 30⟩, ⟨1, 0⟩, ⟨0, 1⟩, -3 / 160, 3 / 2, 80⟩ := by
  rw [Parabola.ofArc?_eq_some_iff]
  refine ⟨⟨1, 0⟩, direction_arch, ?_, ?_, ?_, ?_, ?_⟩
  · rw [length_chord_arch, bulge_arch, Parabola.axis?, if_neg, Vec.unit?_of_dot_self 30]
    · norm_num [Vec.ext_iff]
    · norm_num [Vec.degenerateLength]
    · norm_num [Vec.dot]
    · norm_num [Vec.perpDot, Parabola.straightRatio]
  · rw [Parabola.coefficients?_eq_some_iff, chord_arch]
    norm_num [arch, Vec.dot, Parabola.unitSpacing]
  · norm_num [arch]
  · rw [chord_arch]
    norm_num [Parabola.crossAxis, Vec.dot, Vec.perp, Vec.ext_iff]
  · norm_num [chord_arch, Vec.dot]

/-- The points that hit an arc that is not straight: they are near the curve, measured along the
axis of the parabola, and in neither disk. The hull test never decides. -/
theorem isHit_iff_of_curved {start finish : Disk ℝ} {curvature : ℝ}
    (found : between start finish curvature = .ok arc) (curved : ¬arc.IsStraight)
    (fitted : Parabola.ofArc? arc = some parabola) (p : Vec ℝ) (proper : 0 ≤ distance) :
    (arc.isHit p distance = true ↔
      (∃ t offset, 0 ≤ t ∧ t ≤ 1 ∧ |offset| ≤ distance + arc.slack ∧
        p = arc.pointAt t + offset • parabola.vAxis) ∧
      arc.startRadius ≤ p.distance arc.start ∧ arc.finishRadius ≤ p.distance arc.finish) ∧
    arc.isHit p distance = decide (arc.judgeUnscreened p distance = .hit) := by
  have unscreened : arc.isHit p distance = decide (arc.judgeUnscreened p distance = .hit) :=
    isHit_eq_of_curved fitted curved (normal_dot_self found) proper
  refine ⟨?_, unscreened⟩
  rw [unscreened, decide_eq_true_eq]
  exact judgeUnscreened_eq_hit_iff_of_curved fitted curved proper

theorem isHit_iff_of_curved_arch :
    between ⟨⟨0, 0⟩, 50⟩ ⟨⟨160, 0⟩, 50⟩ 60 = .ok (arch 50 50) ∧ ¬(arch 50 50).IsStraight ∧
      (Parabola.ofArc? (arch 50 50)).isSome ∧ (0 : ℝ) ≤ 10 ∧
      (arch 50 50).isHit ⟨80, 65⟩ 10 = true := by
  have found : between ⟨⟨0, 0⟩, 50⟩ ⟨⟨160, 0⟩, 50⟩ 60 = .ok (arch 50 50) :=
    between_arch (by norm_num) (by norm_num)
  have proper : (0 : ℝ) ≤ 10 := by norm_num
  refine ⟨found, not_isStraight_arch, by simp [ofArc?_arch], proper, ?_⟩
  rw [(isHit_iff_of_curved found not_isStraight_arch ofArc?_arch ⟨80, 65⟩ proper).1]
  refine ⟨⟨1 / 2, 5, by norm_num, by norm_num, ?_, ?_⟩, ?_, ?_⟩
  · have slack := (arch 50 50).slack_pos
    norm_num
    linarith
  · norm_num [pointAt, Bezier.quadratic, handle, arch, Vec.ext_iff]
  · rw [Vec.distance, Vec.length]
    apply Real.le_sqrt_of_sq_le
    norm_num [arch, Vec.dot]
  · rw [Vec.distance, Vec.length]
    apply Real.le_sqrt_of_sq_le
    norm_num [arch, Vec.dot]

end ArcGraph.Arc
