import ArcGraph.Plane.Vec
import ArcGraph.Proofs.Number.Quotient

/-!
The plane in numbers of 32 bits.

Up to the signs of zeros, the difference of two points turned round is the
opposite one, and so is its direction. A direction is zero where the sum of the
squares is too large for a number, and nowhere else.
-/

namespace ArcGraph

open Scalar

/-- The two are the same point, up to the signs of zeros. -/
def Vec.Alike (p q : Vec Float32) : Prop :=
  Binary.Alike p.x q.x ∧ Binary.Alike p.y q.y

namespace Vec

variable {p q r along along' : Vec Float32}

theorem Alike.add_left (alike : p.Alike q) (r : Vec Float32) : (r + p).Alike (r + q) :=
  ⟨alike.1.add_left r.x, alike.2.add_left r.y⟩

theorem Alike.smul_left (alike : p.Alike q) (k : Float32) : (k • p).Alike (k • q) :=
  ⟨alike.1.mul_left k, alike.2.mul_left k⟩

theorem Alike.perp (alike : p.Alike q) : p.perp.Alike q.perp :=
  ⟨alike.2.neg, alike.1⟩

theorem smul_neg_single (k : Float32) (p : Vec Float32) : k • -p = -(k • p) := by
  ext
  · exact Binary.mul_neg_single k p.x
  · exact Binary.mul_neg_single k p.y

theorem neg_smul_single (k : Float32) (p : Vec Float32) : -k • p = -(k • p) := by
  ext
  · exact Binary.neg_mul_single k p.x
  · exact Binary.neg_mul_single k p.y

theorem neg_neg_single (p : Vec Float32) : - -p = p := by
  ext
  · exact Binary.neg_neg_single p.x
  · exact Binary.neg_neg_single p.y

theorem add_neg_single (p q : Vec Float32) : p + -q = p - q := by
  ext
  · exact (Binary.sub_eq_add_neg_single p.x q.x).symm
  · exact (Binary.sub_eq_add_neg_single p.y q.y).symm

theorem dot_comm_single (a b : Vec Float32) : a.dot b = b.dot a :=
  congrArg₂ (· + ·) (Binary.mul_comm_single a.x b.x) (Binary.mul_comm_single a.y b.y)

theorem neg_dot_single (a b : Vec Float32) : (-a).dot b = -(a.x * b.x) + -(a.y * b.y) :=
  congrArg₂ (· + ·) (Binary.neg_mul_single a.x b.x) (Binary.neg_mul_single a.y b.y)

theorem degenerateLength_pos_single : Float32.ofNat 0 < degenerateLength := by decide +kernel

theorem cases_of_unit? {u : Vec Float32} (direction : p.unit? = some u) :
    p.isFinite = true ∧ ¬p.length < degenerateLength ∧ u = p / p.length := by
  unfold unit? at direction
  split at direction
  case isFalse => cases direction
  case isTrue finite =>
    split at direction
    case isTrue => cases direction
    case isFalse long => exact ⟨finite, long, (Option.some.inj direction).symm⟩

theorem alike_unit?_swap (direction : (q - p).unit? = some along)
    (direction' : (p - q).unit? = some along') : along'.Alike (-along) := by
  have x : Binary.Alike (p - q).x (-(q - p).x) := Binary.alike_sub_swap q.x p.x
  have y : Binary.Alike (p - q).y (-(q - p).y) := Binary.alike_sub_swap q.y p.y
  have length : (p - q).length = (q - p).length := by
    rw [Vec.length, Vec.length, dot, dot, x.mul_self_eq, y.mul_self_eq]
  rw [(cases_of_unit? direction).2.2, (cases_of_unit? direction').2.2, length]
  constructor
  · have quotient := x.div_right (q - p).length
    rwa [Binary.neg_div_single] at quotient
  · have quotient := y.div_right (q - p).length
    rwa [Binary.neg_div_single] at quotient

/-! ### Directions -/

/-- The sum of the squares of the components is not finite. -/
def Overflows (p : Vec Float32) : Prop :=
  (p.dot p).isFinite = false

instance decidableOverflows (p : Vec Float32) : Decidable p.Overflows :=
  inferInstanceAs (Decidable ((p.dot p).isFinite = false))

def IsZero (p : Vec Float32) : Prop :=
  Binary.IsZero p.x ∧ Binary.IsZero p.y

instance decidableIsZero (p : Vec Float32) : Decidable p.IsZero :=
  inferInstanceAs (Decidable (Binary.IsZero p.x ∧ Binary.IsZero p.y))

open Binary

theorem perp_isZero_iff : p.perp.IsZero ↔ p.IsZero := by
  constructor
  · rintro ⟨x, y⟩
    exact ⟨y, Binary.neg_neg_single p.y ▸ x.neg⟩
  · rintro ⟨x, y⟩
    exact ⟨y.neg, x⟩

theorem dot_self_nonneg_single (finite : p.isFinite = true) : Float32.ofNat 0 ≤ p.dot p := by
  obtain ⟨x, y⟩ := Bool.and_eq_true_iff.mp finite
  exact nonneg_add (nonneg_sq x) (nonneg_sq y)

theorem isZero_of_overflows {u : Vec Float32} (direction : p.unit? = some u)
    (overflows : p.Overflows) : u.IsZero := by
  obtain ⟨finite, -, rfl⟩ := cases_of_unit? direction
  have infinite : p.length.toModel.unpack = .infinity .positive :=
    unpack_sqrt_infinity (unpack_eq_infinity (dot_self_nonneg_single finite) overflows)
  obtain ⟨x, y⟩ := Bool.and_eq_true_iff.mp finite
  exact ⟨isZero_div_of_infinity x infinite, isZero_div_of_infinity y infinite⟩

theorem exists_has_length {sign sign' : Float.Model.UnpackedFloat.Sign} {bits bits' : ℕ}
    (x : Has p.x sign bits) (y : Has p.y sign' bits') (finite : p.isFinite = true)
    (bounded : ¬p.Overflows) :
    ∃ plus length, Has p.length plus length ∧ length < single.infinityBits ∧
      single.value length ^ 2 ≤ 64 * (single.value bits ^ 2 + single.value bits' ^ 2) := by
  have sum : (p.x * p.x + p.y * p.y).isFinite = true := Bool.eq_true_of_not_eq_false bounded
  have turned : (p.y * p.y + p.x * p.x).isFinite = true := by
    rwa [add_comm_single]
  obtain ⟨finiteX, finiteY⟩ := Bool.and_eq_true_iff.mp finite
  obtain ⟨square, nearest, has⟩ := exists_has_sq x ((isFinite_iff_of_has x).mp finiteX)
  obtain ⟨square', nearest', has'⟩ := exists_has_sq y ((isFinite_iff_of_has y).mp finiteY)
  obtain ⟨_, total, nearestSum, hasSum⟩ := exists_has_add_of_positive has has'
    ((isFinite_iff_of_has has).mp (left_isFinite_of_add sum))
    ((isFinite_iff_of_has has').mp (left_isFinite_of_add turned))
  obtain ⟨plus, length, root, small, most⟩ := exists_has_sqrt (dot_self_nonneg_single finite) hasSum
    ((isFinite_iff_of_has hasSum).mp sum)
  refine ⟨plus, length, root, small, ?_⟩
  have first := nearest.value_le_two_mul (sq_nonneg _)
  have second := nearest'.value_le_two_mul (sq_nonneg _)
  have both := nearestSum.value_le_two_mul
    (add_nonneg (single.value_nonneg square) (single.value_nonneg square'))
  linarith

theorem not_overflows_of_le (finite : p.isFinite = true) (x : p.x.abs ≤ Float32.ofNat (2 ^ 63))
    (y : p.y.abs ≤ Float32.ofNat (2 ^ 63)) : ¬p.Overflows := by
  have power : Has (Float32.ofNat (2 ^ 63)) .positive ((189 + 1) * 8388608) := rfl
  obtain ⟨finiteX, finiteY⟩ := Bool.and_eq_true_iff.mp finite
  obtain ⟨sign, bits, has, finiteX⟩ := exists_has_of_isFinite finiteX
  obtain ⟨sign', bits', has', finiteY⟩ := exists_has_of_isFinite finiteY
  obtain ⟨square, nearest, hasSquare⟩ := exists_has_sq has finiteX
  obtain ⟨square', nearest', hasSquare'⟩ := exists_has_sq has' finiteY
  have small := square_le (value_le_of_abs_le (by decide) power x has) nearest
  have small' := square_le (value_le_of_abs_le (by decide) power y has') nearest'
  have beyond := infinityBits_single
  obtain ⟨_, total, nearestSum, hasSum⟩ := exists_has_add_of_positive hasSquare hasSquare'
    (by omega) (by omega)
  have least : total ≤ (253 + 1) * 8388608 := by
    apply nearestSum.mono (single.isNearest_value _)
    have first := single.value_strictMono.monotone small
    have second := single.value_strictMono.monotone small'
    rw [value_power] at first second ⊢
    norm_num at first second ⊢
    linarith
  have bounded : (p.dot p).isFinite = true := (isFinite_iff_of_has hasSum).mpr (by omega)
  intro overflows
  rw [Overflows, bounded] at overflows
  cases overflows

/-- A length is not out of all proportion to the larger component. -/
theorem value_one_mul_le {size other length : ℚ} (nonneg : 0 ≤ other) (le : other ≤ size)
    (most : length ^ 2 ≤ 64 * (size ^ 2 + other ^ 2)) :
    single.value 1 * length ≤ size := by
  have unit : single.value 1 = 2 ^ (-149 : ℤ) := one_mul _
  have bounded : length ≤ 16 * size := by
    have smaller : other ^ 2 ≤ size ^ 2 := pow_le_pow_left₀ nonneg le 2
    apply le_of_sq_le_sq _ (by linarith)
    rw [mul_pow]
    linarith [sq_nonneg size]
  calc single.value 1 * length
      ≤ single.value 1 * (16 * size) :=
        mul_le_mul_of_nonneg_left bounded (single.value_nonneg 1)
    _ = single.value 1 * 16 * size := (mul_assoc _ _ _).symm
    _ ≤ 1 * size := by
        apply mul_le_mul_of_nonneg_right _ (nonneg.trans le)
        rw [unit]
        norm_num
    _ = size := one_mul size

/-- A direction is zero if the squares of the components are too large, and only then. -/
theorem isZero_unit?_iff {u : Vec Float32} (direction : p.unit? = some u) :
    u.IsZero ↔ p.Overflows := by
  refine ⟨fun zero => ?_, isZero_of_overflows direction⟩
  by_contra bounded
  obtain ⟨finite, long, rfl⟩ := cases_of_unit? direction
  obtain ⟨x, y⟩ := Bool.and_eq_true_iff.mp finite
  obtain ⟨sign, bits, has, finiteX⟩ := exists_has_of_isFinite x
  obtain ⟨sign', bits', has', finiteY⟩ := exists_has_of_isFinite y
  obtain ⟨plus, length, root, small, most⟩ := exists_has_length has has' finite bounded
  have positive : 0 < length := Nat.pos_of_ne_zero fun none =>
    not_isZero_of_not_lt degenerateLength_pos_single long
      ((isZero_iff_of_has root).mpr none)
  rcases le_total (single.value bits') (single.value bits) with wide | high
  · have large := value_one_mul_le (single.value_nonneg bits') wide most
    exact not_isZero_div has root finiteX small positive large zero.1
  · rw [add_comm] at most
    have large := value_one_mul_le (single.value_nonneg bits) high most
    exact not_isZero_div has' root finiteY small positive large zero.2

end Vec

end ArcGraph
