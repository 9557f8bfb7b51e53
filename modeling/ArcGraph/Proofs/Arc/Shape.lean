import ArcGraph.Proofs.Arc.Hit

/-!
What an arc between two disks is, in exact arithmetic.

The fields of an arc are computed along separate lines, and all that looks at
arcs relies on how they belong together: on the apex beside the middle of the
chord, and on the ends where the boundaries meet the way to the apex.
-/

namespace ArcGraph

open Scalar

namespace Vec

/-- The point beside the middle of the chord from `a` to `b`, at the given distance to the side of
the chord's normal. -/
def crest {α : Type} [Scalar α] (a b : Vec α) (height : α) : Vec α :=
  (ofNat 1 / ofNat 2 : α) • (a + b) + height • ((b - a) / (b - a).length).perp

/-- The point is on the ray from `a` through `b`. -/
def IsOnRay (p a b : Vec ℝ) : Prop :=
  ∃ share : ℝ, 0 ≤ share ∧ p = a + share • (b - a)

variable {p v u : Vec ℝ} {size : ℝ}

theorem distance_add_smul (unit : u.dot u = 1) (nonneg : 0 ≤ size) :
    (p + size • u).distance p = size := by
  have same : p + size • u - p = size • u := by simp [Vec.ext_iff]
  rw [distance, same, length_smul_of_unit unit, abs_of_nonneg nonneg]

theorem isOnRay_add_smul {q : Vec ℝ} (direction : (q - p).unit? = some u) (nonneg : 0 ≤ size) :
    (p + size • u).IsOnRay p q := by
  refine ⟨size / (q - p).length, div_nonneg nonneg (length_nonneg _), ?_⟩
  obtain ⟨-, rfl⟩ := ((q - p).unit?_eq_some_iff u).mp direction
  ext
  · simp only [add_x, smul_x, div_x]
    ring
  · simp only [add_y, smul_y, div_y]
    ring

end Vec

theorem Disk.properRadius_real (radius : ℝ) : properRadius radius = max radius 0 := by
  by_cases nonneg : 0 ≤ radius
  · simp [properRadius, isProperRadius, nonneg]
  · simp [properRadius, isProperRadius, nonneg, (not_le.mp nonneg).le]

namespace Arc

/-- The arc joins two disks: its normal belongs to the chord between the centers, its apex is above
the middle of that chord, and its ends are on the boundaries, where these meet the way to the
apex. -/
structure Joins (arc : Arc ℝ) (start finish : Disk ℝ) (curvature : ℝ) : Prop where
  starts : arc.start = start.center
  finishes : arc.finish = finish.center
  startRadius : arc.startRadius = max start.radius 0
  finishRadius : arc.finishRadius = max finish.radius 0
  height : arc.curvature = curvature
  unit : arc.normal.length = 1
  across : arc.normal.dot (finish.center - start.center) = 0
  side_start : arc.side start.center = 0
  side_finish : arc.side finish.center = 0
  side_apex : arc.side arc.apex = curvature
  apex : arc.apex = start.center.crest finish.center curvature
  tail : arc.tail.distance start.center = arc.startRadius ∧ arc.tail.IsOnRay start.center arc.apex
  head : arc.head.distance finish.center = arc.finishRadius ∧
    arc.head.IsOnRay finish.center arc.apex
  reach : arc.reach = (finish.center.distance start.center - arc.startRadius - arc.finishRadius) •
    ((finish.center - start.center) / finish.center.distance start.center)
  pointAt_zero : arc.pointAt 0 = arc.tail
  pointAt_half : arc.pointAt (1 / 2) = arc.apex
  pointAt_one : arc.pointAt 1 = arc.head

theorem pointAt_zero (arc : Arc ℝ) : arc.pointAt 0 = arc.tail := by
  simp [pointAt, Bezier.quadratic, Vec.ext_iff]

theorem pointAt_one (arc : Arc ℝ) : arc.pointAt 1 = arc.head := by
  simp [pointAt, Bezier.quadratic, Vec.ext_iff]

variable {start finish : Disk ℝ} {curvature : ℝ} {arc : Arc ℝ}

section Found

variable (found : between start finish curvature = .ok arc)
include found

theorem normal_dot_chord : arc.normal.dot (finish.center - start.center) = 0 := by
  obtain ⟨onStart, onFinish⟩ := side_centers found
  simp only [side, Vec.dot, Vec.sub_x, Vec.sub_y] at onStart onFinish ⊢
  linear_combination onFinish - onStart

theorem apex_eq_crest : arc.apex = start.center.crest finish.center curvature := by
  obtain ⟨-, along, fromStart, fromFinish, direction, -, -, shape⟩ := between_cases found
  obtain ⟨-, rfl⟩ := (Vec.unit?_eq_some_iff _ along).mp direction
  rw [shape, Vec.crest]

theorem reach_eq :
    arc.reach = (finish.center.distance start.center - arc.startRadius - arc.finishRadius) •
      ((finish.center - start.center) / finish.center.distance start.center) := by
  obtain ⟨-, along, fromStart, fromFinish, direction, -, -, shape⟩ := between_cases found
  have whole := Vec.eq_smul_of_unit? direction
  obtain ⟨-, rfl⟩ := (Vec.unit?_eq_some_iff _ along).mp direction
  rw [Vec.ext_iff] at whole
  rw [shape, Vec.distance]
  simp only [Vec.smul_x, Vec.smul_y] at whole
  ext
  · simp only [Vec.sub_x, Vec.smul_x] at whole ⊢
    linear_combination whole.1
  · simp only [Vec.sub_y, Vec.smul_y] at whole ⊢
    linear_combination whole.2

theorem joins_of_between : arc.Joins start finish curvature := by
  obtain ⟨onStart, onFinish⟩ := side_centers found
  have normal := normal_dot_self found
  have apart := normal_dot_chord found
  have height := side_apex found
  have top := apex_eq_crest found
  have reach := reach_eq found
  obtain ⟨-, along, fromStart, fromFinish, -, start?, finish?, shape⟩ := between_cases found
  have nonneg : 0 ≤ max start.radius 0 := le_max_right _ _
  have nonneg' : 0 ≤ max finish.radius 0 := le_max_right _ _
  have radius : arc.startRadius = max start.radius 0 := by rw [← Disk.properRadius_real, shape]
  have radius' : arc.finishRadius = max finish.radius 0 := by rw [← Disk.properRadius_real, shape]
  have tail : arc.tail = start.center + max start.radius 0 • fromStart := by
    rw [← Disk.properRadius_real, shape]
  have head : arc.head = finish.center + max finish.radius 0 • fromFinish := by
    rw [← Disk.properRadius_real, shape]
  constructor
  case starts => rw [shape]
  case finishes => rw [shape]
  case startRadius => exact radius
  case finishRadius => exact radius'
  case height => rw [shape]
  case unit =>
    apply Vec.length_eq one_pos.le
    rw [normal, one_mul]
  case across => exact apart
  case side_start => exact onStart
  case side_finish => exact onFinish
  case side_apex => exact height
  case apex => exact top
  case tail =>
    rw [tail, radius]
    exact ⟨Vec.distance_add_smul (Vec.dot_self_of_unit? start?) nonneg,
      Vec.isOnRay_add_smul start? nonneg⟩
  case head =>
    rw [head, radius']
    exact ⟨Vec.distance_add_smul (Vec.dot_self_of_unit? finish?) nonneg',
      Vec.isOnRay_add_smul finish? nonneg'⟩
  case reach => exact reach
  case pointAt_zero => exact arc.pointAt_zero
  case pointAt_half => exact arc.pointAt_half
  case pointAt_one => exact arc.pointAt_one

end Found

/-! ### Without an arc -/

theorem exists_error_iff (start finish : Disk ℝ) (curvature : ℝ) :
    (∃ cause, between start finish curvature = .error cause) ↔
      (finish.center - start.center).length < Vec.degenerateLength ∨
        (start.center.crest finish.center curvature - start.center).length <
          Vec.degenerateLength ∨
        (start.center.crest finish.center curvature - finish.center).length <
          Vec.degenerateLength := by
  simp only [← Vec.unit?_eq_none_iff, between, Vec.isFinite_real, isFinite_real, Bool.and_self,
    Bool.not_true, Bool.false_eq_true, if_false]
  cases along? : (finish.center - start.center).unit? with
  | none => simp
  | some along =>
      have apex : (ofNat 1 / ofNat 2 : ℝ) • (start.center + finish.center) +
          curvature • along.perp = start.center.crest finish.center curvature := by
        obtain ⟨-, rfl⟩ := (Vec.unit?_eq_some_iff _ along).mp along?
        rfl
      simp only [apex]
      cases start? : (start.center.crest finish.center curvature - start.center).unit? with
      | none => simp
      | some fromStart =>
          cases finish? : (start.center.crest finish.center curvature - finish.center).unit? with
          | none => simp
          | some fromFinish => simp

/-- An arc between two disks joins them, and there is none only where the centers are too close
together or the apex would be too close to one of them. -/
theorem between_joins (start finish : Disk ℝ) (curvature : ℝ) :
    (∀ arc, between start finish curvature = .ok arc → arc.Joins start finish curvature) ∧
      ((∃ cause, between start finish curvature = .error cause) ↔
        (finish.center - start.center).length < Vec.degenerateLength ∨
          (start.center.crest finish.center curvature - start.center).length <
            Vec.degenerateLength ∨
          (start.center.crest finish.center curvature - finish.center).length <
            Vec.degenerateLength) :=
  ⟨fun _ found => joins_of_between found, exists_error_iff start finish curvature⟩

theorem between_joins_arch :
    (arch 10 50).Joins ⟨⟨0, 0⟩, 10⟩ ⟨⟨160, 0⟩, 50⟩ 60 ∧
      ∃ cause, between (⟨⟨7, 7⟩, 10⟩ : Disk ℝ) ⟨⟨7, 7⟩, 50⟩ 60 = .error cause := by
  obtain ⟨joins, -⟩ := between_joins ⟨⟨0, 0⟩, 10⟩ ⟨⟨160, 0⟩, 50⟩ 60
  obtain ⟨-, fails⟩ := between_joins ⟨⟨7, 7⟩, 10⟩ ⟨⟨7, 7⟩, 50⟩ 60
  refine ⟨joins _ (between_arch (by norm_num) (by norm_num)), fails.mpr (.inl ?_)⟩
  norm_num [Vec.length, Vec.dot, Vec.degenerateLength]

end Arc

end ArcGraph
