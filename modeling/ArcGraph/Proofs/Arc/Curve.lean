import ArcGraph.Arc.Hit
import ArcGraph.Proofs.Plane.Real

/-!
The curve of an arc in exact arithmetic.

The curve runs along the visible chord, from tail to head, and swings out by the
bulge. The hull of its control points, seen along the chord between the centers,
holds whatever is near the curve.
-/

namespace ArcGraph.Arc

open Scalar

section Shape

variable {α : Type} [Scalar α] (arc : Arc α)

/-- The visible chord, from the tail to the head. -/
def chord : Vec α :=
  arc.head - arc.tail

theorem head_sub_tail : arc.head - arc.tail = arc.chord := rfl

/-- From the middle of the visible chord to the apex. -/
def bulge : Vec α :=
  arc.apex - (ofNat 1 / ofNat 2 : α) • (arc.tail + arc.head)

theorem apex_sub_middle :
    arc.apex - (ofNat 1 / ofNat 2 : α) • (arc.tail + arc.head) = arc.bulge := rfl

/-- How far the bulge goes to the side of the visible chord, with a sign. -/
def rise : α :=
  arc.bulge.perpDot (arc.chord / arc.chord.length)

/-- How far the bulge goes along the visible chord, as a part of the chord. -/
def skew : α :=
  arc.bulge.dot arc.chord / arc.chord.dot arc.chord

/-- The bulge goes so little to the side that the arc counts as straight. -/
def IsStraight : Prop :=
  abs arc.rise ≤ Parabola.straightRatio * arc.chord.length

/-- What it takes to have an arc between two disks, and which arc that is. -/
theorem between_cases {start finish : Disk α} {curvature : α} {arc : Arc α}
    (found : between start finish curvature = .ok arc) :
    (start.center.isFinite = true ∧ finish.center.isFinite = true ∧ isFinite curvature = true) ∧
      ∃ along fromStart fromFinish,
        (finish.center - start.center).unit? = some along ∧
        (arc.apex - start.center).unit? = some fromStart ∧
        (arc.apex - finish.center).unit? = some fromFinish ∧
        arc = {
          start := start.center
          finish := finish.center
          startRadius := Disk.properRadius start.radius
          finishRadius := Disk.properRadius finish.radius
          curvature
          normal := along.perp
          offset := along.perp.dot start.center
          reach := finish.center - start.center -
            (Disk.properRadius start.radius + Disk.properRadius finish.radius) • along
          midpoint := (ofNat 1 / ofNat 2 : α) • (start.center + finish.center)
          apex := (ofNat 1 / ofNat 2 : α) • (start.center + finish.center) + curvature • along.perp
          tail := start.center + Disk.properRadius start.radius • fromStart
          head := finish.center + Disk.properRadius finish.radius • fromFinish } := by
  unfold between at found
  split at found
  case isTrue => cases found
  case isFalse finite =>
    simp only [Bool.not_eq_true', Bool.not_eq_false, Bool.and_eq_true, and_assoc] at finite
    refine ⟨finite, ?_⟩
    cases along? : (finish.center - start.center).unit? with
    | none => simp [along?] at found
    | some along =>
        simp only [along?] at found
        split at found
        case h_1 => cases found
        case h_2 fromStart start? =>
          split at found
          case h_1 => cases found
          case h_2 fromFinish finish? =>
            cases found
            exact ⟨along, fromStart, fromFinish, rfl, start?, finish?, rfl⟩

theorem disks_of_between {start finish : Disk α} {curvature : α} {arc : Arc α}
    (found : between start finish curvature = .ok arc) :
    arc.start = start.center ∧ arc.finish = finish.center ∧
      arc.startRadius = Disk.properRadius start.radius ∧
      arc.finishRadius = Disk.properRadius finish.radius := by
  obtain ⟨-, along, fromStart, fromFinish, -, -, -, rfl⟩ := between_cases found
  exact ⟨rfl, rfl, rfl, rfl⟩

end Shape

variable (arc : Arc ℝ)

/-- How far along the chord the curve is at parameter `t`, as a part of the chord. -/
noncomputable def share (t : ℝ) : ℝ :=
  t + 4 * t * (1 - t) * arc.skew

/-- How far beside the curve at parameter `t` the parabola runs whose axis is across the chord. -/
noncomputable def drift (t : ℝ) : ℝ :=
  |arc.rise * (4 * t * (1 - t)) * (arc.skew * (1 - 2 * t) * (1 + arc.skew * (1 - 2 * t))) /
    (arc.skew ^ 2 - 1 / 4)|

theorem pointAt_eq (t : ℝ) :
    arc.pointAt t = arc.tail + (t • arc.chord + (4 * t * (1 - t)) • arc.bulge) := by
  ext
  · simp only [pointAt, Bezier.quadratic, handle, chord, bulge, Vec.add_x, Vec.sub_x, Vec.smul_x,
      ofNat_real]
    push_cast
    ring
  · simp only [pointAt, Bezier.quadratic, handle, chord, bulge, Vec.add_y, Vec.sub_y, Vec.smul_y,
      ofNat_real]
    push_cast
    ring

/-- An arc runs through its apex halfway. -/
theorem pointAt_half : arc.pointAt (1 / 2) = arc.apex := by
  ext
  · simp only [pointAt, Bezier.quadratic, handle, Vec.add_x, Vec.sub_x, Vec.smul_x, ofNat_real]
    push_cast
    ring
  · simp only [pointAt, Bezier.quadratic, handle, Vec.add_y, Vec.sub_y, Vec.smul_y, ofNat_real]
    push_cast
    ring

theorem apex_sub_tail : arc.apex - arc.tail = (1 / 2 : ℝ) • arc.chord + arc.bulge := by
  ext
  · simp only [chord, bulge, Vec.add_x, Vec.sub_x, Vec.smul_x, ofNat_real]
    push_cast
    ring
  · simp only [chord, bulge, Vec.add_y, Vec.sub_y, Vec.smul_y, ofNat_real]
    push_cast
    ring

theorem normal_dot_self {start finish : Disk ℝ} {curvature : ℝ} {arc : Arc ℝ}
    (found : between start finish curvature = .ok arc) : arc.normal.dot arc.normal = 1 := by
  obtain ⟨-, along, fromStart, fromFinish, direction, -, -, rfl⟩ := between_cases found
  rw [Vec.perp_dot_perp]
  exact Vec.dot_self_of_unit? direction

/-! ### The ends of the curve -/

section Ends

variable {start finish : Disk ℝ} {curvature : ℝ} {arc : Arc ℝ}
  (found : between start finish curvature = .ok arc)
include found

theorem side_centers : arc.side start.center = 0 ∧ arc.side finish.center = 0 := by
  obtain ⟨-, along, fromStart, fromFinish, direction, -, -, shape⟩ := between_cases found
  have across := Vec.eq_smul_of_unit? direction
  rw [Vec.ext_iff] at across
  simp only [shape, side, Vec.dot, Vec.perp, Vec.sub_x, Vec.sub_y, Vec.smul_x, Vec.smul_y]
    at across ⊢
  constructor
  · ring
  · linear_combination along.x * across.2 - along.y * across.1

theorem side_apex : arc.side arc.apex = curvature := by
  obtain ⟨onStart, onFinish⟩ := side_centers found
  have unit := normal_dot_self found
  obtain ⟨-, along, fromStart, fromFinish, direction, -, -, shape⟩ := between_cases found
  simp only [shape, side, Vec.dot, Vec.perp, Vec.add_x, Vec.add_y, Vec.smul_x, Vec.smul_y,
    ofNat_real] at onStart onFinish unit ⊢
  push_cast
  linear_combination onStart / 2 + onFinish / 2 + curvature * unit

/-- The apex is as far from the one center as from the other, and from there the ends of the curve
are one radius back towards the centers. -/
theorem ends_of_between :
    ∃ fromStart fromFinish : Vec ℝ,
      fromStart.dot fromStart = 1 ∧ fromFinish.dot fromFinish = 1 ∧
        arc.apex = arc.start + arc.apex.distance arc.start • fromStart ∧
        arc.apex = arc.finish + arc.apex.distance arc.start • fromFinish ∧
        arc.tail = arc.start + arc.startRadius • fromStart ∧
        arc.head = arc.finish + arc.finishRadius • fromFinish := by
  obtain ⟨-, along, fromStart, fromFinish, direction, start?, finish?, shape⟩ :=
    between_cases found
  have unit := Vec.dot_self_of_unit? start?
  have unit' := Vec.dot_self_of_unit? finish?
  have expand := Vec.eq_smul_of_unit? start?
  have expand' := Vec.eq_smul_of_unit? finish?
  have equidistant : (arc.apex - finish.center).length = (arc.apex - start.center).length := by
    have across := Vec.eq_smul_of_unit? direction
    rw [Vec.ext_iff] at across
    rw [Vec.length, Vec.length]
    congr 1
    simp only [shape, Vec.dot, Vec.perp, Vec.add_x, Vec.add_y, Vec.sub_x, Vec.sub_y, Vec.smul_x,
      Vec.smul_y, ofNat_real] at across ⊢
    push_cast
    linear_combination 2 * curvature * along.y * across.1 - 2 * curvature * along.x * across.2
  have starts : arc.start = start.center := by rw [shape]
  have finishes : arc.finish = finish.center := by rw [shape]
  rw [starts, finishes, Vec.distance]
  refine ⟨fromStart, fromFinish, unit, unit', ?_, ?_, ?_, ?_⟩
  · rw [← expand]
    simp [Vec.ext_iff]
  · rw [← equidistant, ← expand']
    simp [Vec.ext_iff]
  · rw [shape]
  · rw [shape]

/-- The bulge goes along the chord by what the radii differ. -/
theorem bulge_dot_chord :
    arc.bulge.dot arc.chord =
      ((arc.apex.distance arc.start - arc.startRadius) ^ 2 -
        (arc.apex.distance arc.start - arc.finishRadius) ^ 2) / 2 := by
  obtain ⟨fromStart, fromFinish, unit, unit', toStart, toFinish, tail, head⟩ :=
    ends_of_between found
  generalize arc.apex.distance arc.start = far at toStart toFinish ⊢
  simp only [Vec.ext_iff, Vec.add_x, Vec.add_y, Vec.smul_x, Vec.smul_y] at toStart toFinish
  have chord : arc.chord =
      (far - arc.startRadius) • fromStart + (-(far - arc.finishRadius)) • fromFinish := by
    ext
    · simp only [chord, tail, head, Vec.add_x, Vec.sub_x, Vec.smul_x]
      linear_combination toStart.1 - toFinish.1
    · simp only [chord, tail, head, Vec.add_y, Vec.sub_y, Vec.smul_y]
      linear_combination toStart.2 - toFinish.2
  have bulge : arc.bulge = ((far - arc.startRadius) / 2) • fromStart +
      ((far - arc.finishRadius) / 2) • fromFinish := by
    ext
    · simp only [bulge, tail, head, Vec.add_x, Vec.sub_x, Vec.smul_x, ofNat_real]
      push_cast
      linear_combination (toStart.1 + toFinish.1) / 2
    · simp only [bulge, tail, head, Vec.add_y, Vec.sub_y, Vec.smul_y, ofNat_real]
      push_cast
      linear_combination (toStart.2 + toFinish.2) / 2
  rw [chord, bulge]
  simp only [Vec.dot, Vec.add_x, Vec.add_y, Vec.smul_x, Vec.smul_y] at unit unit' ⊢
  linear_combination (far - arc.startRadius) ^ 2 / 2 * unit -
    (far - arc.finishRadius) ^ 2 / 2 * unit'

end Ends

/-! ### The hull -/

theorem side_pointAt_add (t offset : ℝ) (v : Vec ℝ) :
    arc.side (arc.pointAt t + offset • v) =
      ((1 - t) * (1 - t) * arc.side arc.tail + 2 * (1 - t) * t * arc.side arc.handle +
        t * t * arc.side arc.head) + offset * arc.normal.dot v := by
  simp only [side, pointAt, Bezier.quadratic, Vec.dot, Vec.add_x, Vec.add_y, Vec.smul_x,
    Vec.smul_y, ofNat_real]
  push_cast
  ring

theorem isBesideHull_eq_false_iff (p : Vec ℝ) (tolerance : ℝ) :
    arc.isBesideHull p tolerance = false ↔
      min (arc.side arc.tail) (min (arc.side arc.handle) (arc.side arc.head)) - tolerance ≤
          arc.side p ∧
        arc.side p ≤
          max (arc.side arc.tail) (max (arc.side arc.handle) (arc.side arc.head)) + tolerance := by
  simp only [isBesideHull, extent_triple, Bool.or_eq_false_iff, decide_eq_false_iff_not, not_lt]

/-- A weighted mean of three numbers lies between the least and the greatest of them. -/
theorem weighted_mem_extent {a b c t : ℝ} (first : 0 ≤ t) (last : t ≤ 1) :
    min a (min b c) ≤ (1 - t) * (1 - t) * a + 2 * (1 - t) * t * b + t * t * c ∧
      (1 - t) * (1 - t) * a + 2 * (1 - t) * t * b + t * t * c ≤ max a (max b c) := by
  have rest : 0 ≤ 1 - t := sub_nonneg.mpr last
  have ofTail : 0 ≤ (1 - t) * (1 - t) := mul_nonneg rest rest
  have ofHandle : 0 ≤ 2 * (1 - t) * t := by positivity
  have ofHead : 0 ≤ t * t := mul_nonneg first first
  have total : (1 - t) * (1 - t) + 2 * (1 - t) * t + t * t = 1 := by ring
  constructor
  · calc min a (min b c)
        = ((1 - t) * (1 - t) + 2 * (1 - t) * t + t * t) * min a (min b c) := by
          rw [total, one_mul]
      _ = (1 - t) * (1 - t) * min a (min b c) + 2 * (1 - t) * t * min a (min b c) +
            t * t * min a (min b c) := by ring
      _ ≤ (1 - t) * (1 - t) * a + 2 * (1 - t) * t * b + t * t * c := by
          gcongr
          · exact min_le_left a (min b c)
          · exact (min_le_right a (min b c)).trans (min_le_left b c)
          · exact (min_le_right a (min b c)).trans (min_le_right b c)
  · calc (1 - t) * (1 - t) * a + 2 * (1 - t) * t * b + t * t * c
        ≤ (1 - t) * (1 - t) * max a (max b c) + 2 * (1 - t) * t * max a (max b c) +
            t * t * max a (max b c) := by
          gcongr
          · exact le_max_left a (max b c)
          · exact (le_max_left b c).trans (le_max_right a (max b c))
          · exact (le_max_right b c).trans (le_max_right a (max b c))
      _ = ((1 - t) * (1 - t) + 2 * (1 - t) * t + t * t) * max a (max b c) := by ring
      _ = max a (max b c) := by rw [total, one_mul]

/-- The hull test turns away nothing that is within the tolerance of the curve, measured in any
one direction. -/
theorem isBesideHull_pointAt_add (unit : arc.normal.dot arc.normal = 1) {t offset tolerance : ℝ}
    (first : 0 ≤ t) (last : t ≤ 1) {v : Vec ℝ} (unit' : v.dot v = 1)
    (near : |offset| ≤ tolerance) :
    arc.isBesideHull (arc.pointAt t + offset • v) tolerance = false := by
  have aside : |offset * arc.normal.dot v| ≤ tolerance := by
    rw [abs_mul]
    calc |offset| * |arc.normal.dot v|
        ≤ |offset| * 1 := by
          gcongr
          exact Vec.abs_dot_le_one unit unit'
      _ = |offset| := mul_one _
      _ ≤ tolerance := near
  obtain ⟨least, greatest⟩ := weighted_mem_extent first last
    (a := arc.side arc.tail) (b := arc.side arc.handle) (c := arc.side arc.head)
  obtain ⟨left, right⟩ := abs_le.mp aside
  rw [isBesideHull_eq_false_iff, side_pointAt_add]
  constructor
  · linarith
  · linarith

end ArcGraph.Arc
