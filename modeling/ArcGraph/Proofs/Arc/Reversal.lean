import ArcGraph.Proofs.Arc.Hit
import ArcGraph.Proofs.Arc.Mirror

/-!
An arc run through from its head to its tail.

With the opposite curvature, the arc between the disks in the other order is
the same curve, and nothing that looks at the curve alone can tell the two
apart. The hit test looks from the tail: from the head it sees the chord turned
round, another sign on the sides of the hull and other coefficients, and judges
every point alike.
-/

namespace ArcGraph

open Scalar

/-! ### The parabola seen from the head -/

namespace Parabola

/-- The parabola in a frame whose origin is the given point of it at the end of its span, with the
axis turned round if the sign says so. -/
noncomputable def fromHead (parabola : Parabola ℝ) (head : Vec ℝ) (sign : ℝ) : Parabola ℝ where
  origin := head
  uAxis := -parabola.uAxis
  vAxis := sign • parabola.vAxis
  a := sign * parabola.a
  b := -(sign * (ofNat 2 * parabola.a * parabola.span + parabola.b))
  span := parabola.span

theorem coefficients?_fromHead {pu pv qu qv a b : ℝ}
    (solved : coefficients? pu pv qu qv = some (a, b)) (sign : ℝ) :
    coefficients? (qu - pu) (sign * (pv - qv)) qu (-(sign * qv)) =
      some (sign * a, -(sign * (ofNat 2 * a * qu + b))) := by
  rw [coefficients?_eq_some_iff, ofNat_real] at *
  obtain ⟨apart, first, second⟩ := solved
  have distinct : pu * qu * (pu - qu) ≠ 0 := abs_pos.mp (lt_of_lt_of_le unitSpacing_pos apart)
  have determinant : (qu - pu) * qu * (qu - pu - qu) = pu * qu * (pu - qu) := by ring
  rw [eq_div_iff distinct] at first second
  rw [determinant, eq_div_iff distinct, eq_div_iff distinct]
  refine ⟨apart, ?_, ?_⟩
  · linear_combination sign * first
  · push_cast
    linear_combination -(sign * (2 * qu * first + second))

theorem abs_sub_eval_fromHead (parabola : Parabola ℝ) (head : Vec ℝ) {sign : ℝ}
    (unit : |sign| = 1) (u v : ℝ) :
    |sign * (v - parabola.eval parabola.span) -
        (parabola.fromHead head sign).eval (parabola.span - u)| = |v - parabola.eval u| := by
  have same : sign * (v - parabola.eval parabola.span) -
      (parabola.fromHead head sign).eval (parabola.span - u) =
        sign * (v - parabola.eval u) := by
    simp only [eval, fromHead, ofNat_real]
    push_cast
    ring
  rw [same, abs_mul, unit, one_mul]

/-- The axis across another one is settled by the side of the chord that it is on. -/
theorem crossAxis_of_pos {axis chord u : Vec ℝ} (across : u = -axis.perp ∨ u = -(-axis.perp))
    (forward : 0 < chord.dot u) : crossAxis axis chord = u := by
  have nonneg := dot_crossAxis_nonneg chord axis
  rcases across with rfl | rfl
  · rcases crossAxis_eq_or axis chord with same | other
    · exact same
    · rw [other] at nonneg
      simp only [Vec.dot, Vec.neg_x, Vec.neg_y] at nonneg forward
      linarith
  · rcases crossAxis_eq_or axis chord with other | same
    · rw [other] at nonneg
      simp only [Vec.dot, Vec.neg_x, Vec.neg_y] at nonneg forward
      linarith
    · exact same

end Parabola

namespace Arc

/-- The same curve, from its head to its tail. -/
noncomputable def reversed (arc : Arc ℝ) : Arc ℝ where
  start := arc.finish
  finish := arc.start
  startRadius := arc.finishRadius
  finishRadius := arc.startRadius
  curvature := -arc.curvature
  normal := -arc.normal
  offset := -arc.offset
  reach := -arc.reach
  midpoint := arc.midpoint
  apex := arc.apex
  tail := arc.head
  head := arc.tail

/-- Minus one for a straight arc, whose axis turns with the chord, and one for all others. -/
noncomputable def axisSign (arc : Arc ℝ) : ℝ :=
  open Classical in if arc.IsStraight then -1 else 1

variable (arc : Arc ℝ)

theorem reversed_reversed : arc.reversed.reversed = arc := by
  have restored : -(-arc.normal) = arc.normal := by simp [Vec.ext_iff]
  have restored' : -(-arc.reach) = arc.reach := by simp [Vec.ext_iff]
  simp only [reversed, neg_neg, restored, restored']

theorem handle_reversed : arc.reversed.handle = arc.handle := by
  simp only [handle, reversed, Vec.ext_iff, Vec.sub_x, Vec.sub_y, Vec.smul_x, Vec.smul_y,
    Vec.add_x, Vec.add_y, add_comm, and_self]

theorem pointAt_reversed (t : ℝ) : arc.reversed.pointAt t = arc.pointAt (1 - t) := by
  rw [pointAt, handle_reversed, pointAt]
  ext
  · simp only [Bezier.quadratic, reversed, Vec.add_x, Vec.smul_x, ofNat_real]
    push_cast
    ring
  · simp only [Bezier.quadratic, reversed, Vec.add_y, Vec.smul_y, ofNat_real]
    push_cast
    ring

theorem side_reversed (p : Vec ℝ) : arc.reversed.side p = -arc.side p := by
  simp only [side, reversed, Vec.dot, Vec.neg_x, Vec.neg_y]
  ring

theorem chord_reversed : arc.reversed.chord = -arc.chord := by
  simp [chord, reversed, Vec.ext_iff]

theorem bulge_reversed : arc.reversed.bulge = arc.bulge := by
  simp only [bulge, reversed, Vec.ext_iff, Vec.sub_x, Vec.sub_y, Vec.smul_x, Vec.smul_y,
    Vec.add_x, Vec.add_y, add_comm, and_self]

theorem length_chord_reversed : arc.reversed.chord.length = arc.chord.length := by
  rw [chord_reversed]
  simp [Vec.length, Vec.dot]

theorem slack_reversed : arc.reversed.slack = arc.slack := by
  simp only [slack, reversed, maxNumber_real, max_comm arc.head.greatestSize]

/-- The strip of the hull is the same, seen from its other side. -/
theorem isBesideHull_reversed (p : Vec ℝ) (tolerance : ℝ) :
    arc.reversed.isBesideHull p tolerance = arc.isBesideHull p tolerance := by
  have same : arc.reversed.isBesideHull p tolerance = false ↔
      arc.isBesideHull p tolerance = false := by
    have tail : arc.reversed.tail = arc.head := rfl
    have head : arc.reversed.head = arc.tail := rfl
    rw [isBesideHull_eq_false_iff, isBesideHull_eq_false_iff, handle_reversed, tail, head]
    simp only [side_reversed, min_neg_neg, max_neg_neg, min_left_comm (arc.side arc.head),
      max_left_comm (arc.side arc.head), min_comm (arc.side arc.head),
      max_comm (arc.side arc.head), min_left_comm (arc.side arc.handle) (arc.side arc.tail),
      max_left_comm (arc.side arc.handle) (arc.side arc.tail)]
    constructor
    · rintro ⟨least, greatest⟩
      constructor
      · linarith
      · linarith
    · rintro ⟨least, greatest⟩
      constructor
      · linarith
      · linarith
  cases beside : arc.isBesideHull p tolerance with
  | false => exact same.mpr beside
  | true => simpa [beside] using same

/-! ### The fit from the other end -/

theorem isStraight_reversed_iff : arc.reversed.IsStraight ↔ arc.IsStraight := by
  have rise : arc.reversed.rise = -arc.rise := by
    rw [Arc.rise, bulge_reversed, length_chord_reversed, chord_reversed, Arc.rise]
    simp only [Vec.perpDot, Vec.div_x, Vec.div_y, Vec.neg_x, Vec.neg_y]
    ring
  rw [IsStraight, rise, length_chord_reversed, abs_real, abs_neg]
  rfl

theorem axisSign_eq_or : arc.axisSign = 1 ∨ arc.axisSign = -1 := by
  unfold axisSign
  split
  case isTrue => exact .inr rfl
  case isFalse => exact .inl rfl

theorem abs_axisSign : |arc.axisSign| = 1 := by
  rcases arc.axisSign_eq_or with sign | sign <;> simp [sign]

section Fitted

variable {arc} {parabola : Parabola ℝ} (fitted : Parabola.ofArc? arc = some parabola)
include fitted

/-- A straight arc turns its axis with its chord; the axis along a bulge stays. -/
theorem axis?_reversed {along : Vec ℝ} (direction : arc.chord.unit? = some along) :
    Parabola.axis? arc.bulge (-along) arc.chord.length =
      some (arc.axisSign • parabola.vAxis) := by
  obtain ⟨along', direction', axisFound, -⟩ := (Parabola.ofArc?_eq_some_iff arc parabola).mp fitted
  obtain rfl : along' = along := Option.some.inj (direction'.symm.trans direction)
  obtain ⟨-, rfl⟩ := (arc.chord.unit?_eq_some_iff along').mp direction
  have rise : |arc.bulge.perpDot (-(arc.chord / arc.chord.length))| = |arc.rise| := by
    rw [← abs_neg, rise]
    congr 1
    simp only [Vec.perpDot, Vec.neg_x, Vec.neg_y]
    ring
  by_cases straight : arc.IsStraight
  · have aside : some (arc.chord / arc.chord.length).perp = some parabola.vAxis :=
      (if_pos straight).symm.trans axisFound
    have flat : |arc.rise| ≤ Parabola.straightRatio * arc.chord.length := straight
    rw [axisSign, if_pos straight, ← Option.some.inj aside, Parabola.axis?, abs_real, rise,
      if_pos flat]
    simp [Vec.ext_iff, Vec.perp]
  · have ofBulge : arc.bulge.unit? = some parabola.vAxis := (if_neg straight).symm.trans axisFound
    have steep : ¬|arc.rise| ≤ Parabola.straightRatio * arc.chord.length := straight
    rw [axisSign, if_neg straight, Parabola.axis?, abs_real, rise, if_neg steep, ofBulge]
    simp [Vec.ext_iff]

theorem crossAxis_reversed :
    Parabola.crossAxis (arc.axisSign • parabola.vAxis) (-arc.chord) = -parabola.uAxis := by
  have fits := Parabola.fits_of_ofArc? fitted
  have forward := fits.span_pos
  rw [fits.extent] at forward
  apply Parabola.crossAxis_of_pos
  · rw [fits.across]
    rcases arc.axisSign_eq_or with sign | sign <;>
      rcases Parabola.crossAxis_eq_or parabola.vAxis arc.chord with across | across <;>
      simp [sign, across, Vec.ext_iff, Vec.perp]
  · simpa [Vec.dot] using forward

theorem ofArc?_reversed :
    Parabola.ofArc? arc.reversed = some (parabola.fromHead arc.head arc.axisSign) := by
  obtain ⟨along, direction, -, solved, -, -, extent⟩ :=
    (Parabola.ofArc?_eq_some_iff arc parabola).mp fitted
  have solved' := Parabola.coefficients?_fromHead solved arc.axisSign
  have apex : (arc.reversed.apex - arc.reversed.tail).dot (-parabola.uAxis) =
      arc.chord.dot parabola.uAxis - (arc.apex - arc.tail).dot parabola.uAxis := by
    simp only [reversed, chord, Vec.dot, Vec.sub_x, Vec.sub_y, Vec.neg_x, Vec.neg_y]
    ring
  have apex' : (arc.reversed.apex - arc.reversed.tail).dot (arc.axisSign • parabola.vAxis) =
      arc.axisSign * ((arc.apex - arc.tail).dot parabola.vAxis -
        arc.chord.dot parabola.vAxis) := by
    simp only [reversed, chord, Vec.dot, Vec.sub_x, Vec.sub_y, Vec.smul_x, Vec.smul_y]
    ring
  have tail : arc.reversed.chord.dot (-parabola.uAxis) = arc.chord.dot parabola.uAxis := by
    simp [chord_reversed, Vec.dot]
  have tail' : arc.reversed.chord.dot (arc.axisSign • parabola.vAxis) =
      -(arc.axisSign * arc.chord.dot parabola.vAxis) := by
    simp only [chord_reversed, Vec.dot, Vec.smul_x, Vec.smul_y, Vec.neg_x, Vec.neg_y]
    ring
  rw [Parabola.ofArc?_eq_some_iff, bulge_reversed, length_chord_reversed]
  refine ⟨-along, ?_, axis?_reversed fitted direction, ?_, rfl, ?_, extent.trans tail.symm⟩
  · rw [chord_reversed]
    exact Vec.unit?_neg direction
  · simp only [Parabola.fromHead, apex, apex', tail, tail', extent]
    exact solved'
  · rw [chord_reversed]
    exact (crossAxis_reversed fitted).symm

/-- From the head, a point is the rest of the span away, and as high above the parabola. -/
theorem toLocal_fromHead (p : Vec ℝ) :
    (parabola.fromHead arc.head arc.axisSign).toLocal p =
      (parabola.span - (parabola.toLocal p).1,
        arc.axisSign * ((parabola.toLocal p).2 - parabola.eval parabola.span)) := by
  have fits := Parabola.fits_of_ofArc? fitted
  rw [fits.head, fits.extent]
  simp only [Parabola.toLocal, Parabola.fromHead, fits.origin, chord, Vec.dot, Vec.sub_x,
    Vec.sub_y, Vec.smul_x, Vec.smul_y, Vec.neg_x, Vec.neg_y, Prod.mk.injEq]
  constructor
  · ring
  · ring

end Fitted

/-- The arc and its reverse have parabolas, or neither has. -/
theorem isSome_ofArc?_reversed :
    (Parabola.ofArc? arc.reversed).isSome = (Parabola.ofArc? arc).isSome := by
  cases fitted : Parabola.ofArc? arc with
  | some parabola => rw [ofArc?_reversed fitted]; rfl
  | none =>
      cases fitted' : Parabola.ofArc? arc.reversed with
      | none => rfl
      | some parabola =>
          have back := ofArc?_reversed fitted'
          rw [reversed_reversed, fitted] at back
          cases back

/-! ### The hit test from the other end -/

section Unscreened

variable {arc} {p : Vec ℝ} {distance : ℝ}

theorem exists_of_judgeUnscreened_eq_hit (hit : arc.judgeUnscreened p distance = .hit) :
    0 ≤ distance ∧ ∃ parabola, Parabola.ofArc? arc = some parabola := by
  unfold judgeUnscreened at hit
  split at hit
  case isTrue => cases hit
  case isFalse valid =>
    have proper : 0 ≤ distance := by simpa [Vec.isFinite_real] using valid
    cases fitted : Parabola.ofArc? arc with
    | none => simp [fitted] at hit
    | some parabola => exact ⟨proper, parabola, rfl⟩

theorem judgeUnscreened_reversed (hit : arc.judgeUnscreened p distance = .hit) :
    arc.reversed.judgeUnscreened p distance = .hit := by
  obtain ⟨proper, parabola, fitted⟩ := exists_of_judgeUnscreened_eq_hit hit
  have positive := (Parabola.fits_of_ofArc? fitted).span_pos
  obtain ⟨near, first, last, ofStart, ofFinish⟩ :=
    (judgeUnscreened_eq_hit_iff fitted proper).mp hit
  rw [judgeUnscreened_eq_hit_iff (ofArc?_reversed fitted) proper, toLocal_fromHead fitted,
    slack_reversed, parabola.abs_sub_eval_fromHead arc.head arc.abs_axisSign]
  have rest : (parabola.span - (parabola.toLocal p).1) / parabola.span =
      1 - (parabola.toLocal p).1 / parabola.span := by
    rw [sub_div, div_self positive.ne']
  have extent : (parabola.fromHead arc.head arc.axisSign).span = parabola.span := rfl
  rw [extent, rest]
  exact ⟨near, sub_nonneg.mpr last, sub_le_self 1 first, ofFinish, ofStart⟩

end Unscreened

theorem isHit_reversed (p : Vec ℝ) (distance : ℝ) :
    arc.reversed.isHit p distance = arc.isHit p distance := by
  rw [isHit, isHit, decide_eq_decide, judge_eq_hit_iff, judge_eq_hit_iff, slack_reversed,
    isBesideHull_reversed]
  apply and_congr_right
  intro _
  constructor
  · intro hit
    have back := judgeUnscreened_reversed hit
    rwa [reversed_reversed] at back
  · exact judgeUnscreened_reversed

/-! ### The disks in the other order -/

/-- The arc is the other one from the other end: the same curve between the same points, over the
other side of the chord, and hit by the same points. -/
structure IsReverseOf (back arc : Arc ℝ) : Prop where
  apex : back.apex = arc.apex
  midpoint : back.midpoint = arc.midpoint
  handle : back.handle = arc.handle
  tail : back.tail = arc.head
  head : back.head = arc.tail
  normal : back.normal = -arc.normal
  pointAt : ∀ t, back.pointAt t = arc.pointAt (1 - t)
  isSome_ofArc? : (Parabola.ofArc? back).isSome = (Parabola.ofArc? arc).isSome
  isStraight : back.IsStraight ↔ arc.IsStraight
  isHit : ∀ p distance, back.isHit p distance = arc.isHit p distance

theorem isReverseOf_reversed : arc.reversed.IsReverseOf arc where
  apex := rfl
  midpoint := rfl
  handle := arc.handle_reversed
  tail := rfl
  head := rfl
  normal := rfl
  pointAt := arc.pointAt_reversed
  isSome_ofArc? := arc.isSome_ofArc?_reversed
  isStraight := arc.isStraight_reversed_iff
  isHit := arc.isHit_reversed

variable {arc}

theorem between_reversed {start finish : Disk ℝ} {curvature : ℝ}
    (found : between start finish curvature = .ok arc) :
    between finish start (-curvature) = .ok arc.reversed := by
  obtain ⟨-, along, fromStart, fromFinish, -, start?, finish?, shape⟩ := between_cases found
  have bend : arc.curvature = curvature := by rw [shape]
  have tail : arc.tail = start.center + arc.startRadius • fromStart := by rw [shape]
  have head : arc.head = finish.center + arc.finishRadius • fromFinish := by rw [shape]
  have top : arc.apex = (ofNat 1 / ofNat 2 : ℝ) • (finish.center + start.center) +
      (-curvature) • -arc.normal := by
    rw [shape]
    simp [Vec.ext_iff, add_comm]
  rw [between_back found top start? finish?, reversed, bend, head, tail]

/-- There is an arc between two disks with some curvature if and only if there is one in the other
order with the opposite curvature, and the one is the reverse of the other. -/
theorem between_reverse (start finish : Disk ℝ) (curvature : ℝ) :
    ((∃ back, between finish start (-curvature) = .ok back) ↔
      ∃ arc, between start finish curvature = .ok arc) ∧
    ∀ arc back, between start finish curvature = .ok arc →
      between finish start (-curvature) = .ok back → back.IsReverseOf arc := by
  constructor
  · constructor
    · rintro ⟨back, found⟩
      have there := between_reversed found
      rw [neg_neg] at there
      exact ⟨_, there⟩
    · rintro ⟨arc, found⟩
      exact ⟨_, between_reversed found⟩
  · intro arc back found found'
    obtain rfl : arc.reversed = back :=
      Except.ok.inj ((between_reversed found).symm.trans found')
    exact arc.isReverseOf_reversed

theorem between_reverse_arch :
    ∃ back, between ⟨⟨160, 0⟩, 50⟩ ⟨⟨0, 0⟩, 10⟩ (-60) = .ok back ∧
      back.IsReverseOf (arch 10 50) := by
  have found : between ⟨⟨0, 0⟩, 10⟩ ⟨⟨160, 0⟩, 50⟩ 60 = .ok (arch 10 50) :=
    between_arch (by norm_num) (by norm_num)
  obtain ⟨succeeds, reverses⟩ := between_reverse ⟨⟨0, 0⟩, 10⟩ ⟨⟨160, 0⟩, 50⟩ 60
  obtain ⟨back, found'⟩ := succeeds.mpr ⟨_, found⟩
  exact ⟨back, found', reverses _ _ found found'⟩

end Arc

end ArcGraph
