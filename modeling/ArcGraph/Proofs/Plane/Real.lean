import ArcGraph.Plane.Bezier
import Mathlib.Analysis.Real.Sqrt
import Mathlib.Tactic.FieldSimp
import Mathlib.Tactic.Linarith
import Mathlib.Tactic.LinearCombination
import Mathlib.Tactic.Positivity

/-!
The plane in exact arithmetic.

Over the reals no operation rounds and every number is finite, so that the
geometry computes what its formulas say.
-/

namespace ArcGraph

-- The other operations of the reals have instances of their own, which come before those of
-- `Scalar`. Division has only that of a group with zero, which need not.
noncomputable instance divReal : Div ℝ :=
  DivInvMonoid.toDiv

noncomputable instance : Scalar ℝ where
  ofNat n := n
  sqrt := Real.sqrt
  abs a := |a|
  isFinite _ := true
  decidableLT a b := Classical.propDecidable (a < b)
  decidableLE a b := Classical.propDecidable (a ≤ b)

namespace Scalar

@[simp] theorem ofNat_real (n : ℕ) : (ofNat n : ℝ) = n := rfl

@[simp] theorem sqrt_real (a : ℝ) : sqrt a = Real.sqrt a := rfl

@[simp] theorem abs_real (a : ℝ) : abs a = |a| := rfl

@[simp] theorem isFinite_real (a : ℝ) : isFinite a = true := rfl

@[simp] theorem isNaN_real (a : ℝ) : isNaN a = false := by
  simp [isNaN]

theorem minNumber_real (a b : ℝ) : minNumber a b = min a b := by
  simp only [minNumber, isNaN_real, Bool.false_eq_true, if_false]
  split
  case isTrue less => exact (min_eq_right less.le).symm
  case isFalse least => exact (min_eq_left (not_lt.mp least)).symm

theorem maxNumber_real (a b : ℝ) : maxNumber a b = max a b := by
  simp only [maxNumber, isNaN_real, Bool.false_eq_true, if_false]
  split
  case isTrue less => exact (max_eq_right less.le).symm
  case isFalse greatest => exact (max_eq_left (not_lt.mp greatest)).symm

theorem extent_triple (a b c : ℝ) :
    extent [a, b, c] = some (min a (min b c), max a (max b c)) := by
  simp [extent, minNumber_real, maxNumber_real]

end Scalar

namespace Vec

variable (a b : Vec ℝ)

theorem dot_comm : a.dot b = b.dot a := by
  simp only [dot]
  ring

theorem add_dot (c : Vec ℝ) : (a + b).dot c = a.dot c + b.dot c := by
  simp only [dot, add_x, add_y]
  ring

theorem smul_dot (k : ℝ) : (k • a).dot b = k * a.dot b := by
  simp only [dot, smul_x, smul_y]
  ring

theorem dot_div (k : ℝ) : a.dot (b / k) = a.dot b / k := by
  simp only [dot, div_x, div_y]
  ring

theorem dot_self_nonneg : 0 ≤ a.dot a :=
  add_nonneg (mul_self_nonneg a.x) (mul_self_nonneg a.y)

theorem length_nonneg : 0 ≤ a.length :=
  Real.sqrt_nonneg (a.dot a)

theorem length_mul_length : a.length * a.length = a.dot a :=
  Real.mul_self_sqrt a.dot_self_nonneg

theorem degenerateLength_pos : 0 < (degenerateLength : ℝ) := by
  simp [degenerateLength]

theorem isFinite_real : a.isFinite = true := rfl

theorem unit?_eq_some_iff (u : Vec ℝ) :
    a.unit? = some u ↔ degenerateLength ≤ a.length ∧ u = a / a.length := by
  simp only [unit?, isFinite_real, if_true]
  split
  case isTrue short => simp [not_le.mpr short]
  case isFalse long =>
    simp only [Option.some.injEq, not_lt.mp long, true_and]
    exact eq_comm

variable {a}

theorem length_eq {size : ℝ} (nonneg : 0 ≤ size) (square : a.dot a = size * size) :
    a.length = size := by
  rw [length, square]
  exact Real.sqrt_mul_self nonneg

theorem unit?_of_dot_self (size : ℝ) (long : degenerateLength ≤ size)
    (square : a.dot a = size * size) : a.unit? = some (a / size) := by
  have length := length_eq (degenerateLength_pos.le.trans long) square
  rw [unit?_eq_some_iff, length]
  exact ⟨long, rfl⟩

theorem length_pos_of_unit? {u : Vec ℝ} (direction : a.unit? = some u) : 0 < a.length :=
  lt_of_lt_of_le degenerateLength_pos ((a.unit?_eq_some_iff u).mp direction).1

theorem eq_smul_of_unit? {u : Vec ℝ} (direction : a.unit? = some u) : a = a.length • u := by
  have positive := length_pos_of_unit? direction
  obtain ⟨-, rfl⟩ := (a.unit?_eq_some_iff u).mp direction
  ext
  · simp only [smul_x, div_x]
    field_simp
  · simp only [smul_y, div_y]
    field_simp

theorem dot_self_of_unit? {u : Vec ℝ} (direction : a.unit? = some u) : u.dot u = 1 := by
  have positive := length_pos_of_unit? direction
  have square := a.length_mul_length
  obtain ⟨-, rfl⟩ := (a.unit?_eq_some_iff u).mp direction
  simp only [dot, div_x, div_y] at square ⊢
  field_simp
  linarith

theorem unit?_eq_none_iff (a : Vec ℝ) : a.unit? = none ↔ a.length < degenerateLength := by
  simp [unit?, isFinite_real]

theorem length_smul_of_unit {u : Vec ℝ} (unit : u.dot u = 1) (size : ℝ) :
    (size • u).length = |size| := by
  apply length_eq (abs_nonneg size)
  rw [abs_mul_abs_self, smul_dot, dot_comm, smul_dot, unit, mul_one]

theorem unit?_smul_of_unit {u : Vec ℝ} (unit : u.dot u = 1) {size : ℝ}
    (long : degenerateLength ≤ size) : (size • u).unit? = some u := by
  have positive : 0 < size := lt_of_lt_of_le degenerateLength_pos long
  have length : (size • u).length = size := by
    rw [length_smul_of_unit unit, abs_of_pos positive]
  rw [unit?_eq_some_iff, length]
  refine ⟨long, ?_⟩
  ext
  · rw [div_x, smul_x, mul_div_cancel_left₀ u.x positive.ne']
  · rw [div_y, smul_y, mul_div_cancel_left₀ u.y positive.ne']

theorem perp_dot_perp (a b : Vec ℝ) : a.perp.dot b.perp = a.dot b := by
  simp only [dot, perp]
  ring

theorem neg_perp_perp (a : Vec ℝ) : -a.perp.perp = a := by
  ext
  · simp only [perp, neg_x, neg_neg]
  · simp only [perp, neg_y, neg_neg]

theorem add_zero_smul (a b : Vec ℝ) : a + (0 : ℝ) • b = a := by
  simp [Vec.ext_iff]

/-- The product of two unit vectors is at most one. -/
theorem abs_dot_le_one {a b : Vec ℝ} (unit : a.dot a = 1) (unit' : b.dot b = 1) :
    |a.dot b| ≤ 1 := by
  have lagrange : (a.dot b) ^ 2 + (a.perpDot b) ^ 2 = a.dot a * b.dot b := by
    simp only [dot, perpDot]
    ring
  rw [unit, unit'] at lagrange
  rw [abs_le_one_iff_mul_self_le_one]
  nlinarith [sq_nonneg (a.perpDot b)]

end Vec

end ArcGraph
