import ArcGraph.Proofs.Number.Alike

/-!
Products of numbers of 32 bits.

A product of finite numbers is the number next to the exact product. It is
finite only if both factors are, and zero if one of two finite factors is.
-/

namespace ArcGraph.Binary

open Float.Model (UnpackedFloat)
open Float.Model.UnpackedFloat
open Float.Model.Format (binary32)

variable {a b : Float32}

theorem unpack_mul (a b : Float32) : (a * b).toModel.unpack = unpack binary32 (pack binary32
    (UnpackedFloat.mul binary32 a.toModel.unpack b.toModel.unpack)) := rfl

theorem infinity_mul (sign : Sign) (number : UnpackedFloat) :
    (∃ sign', UnpackedFloat.mul binary32 (.infinity sign) number = .infinity sign') ∨
      UnpackedFloat.mul binary32 (.infinity sign) number = .notANumber := by
  cases number with
  | infinity | finite => exact .inl ⟨_, rfl⟩
  | zero | notANumber => exact .inr rfl

theorem left_isFinite_of_mul (finite : (a * b).isFinite = true) : a.isFinite = true := by
  change (a * b).toModel.unpack.isFinite = true at finite
  change a.toModel.unpack.isFinite = true
  rw [unpack_mul] at finite
  cases first : a.toModel.unpack with
  | notANumber =>
      have product : UnpackedFloat.mul binary32 .notANumber b.toModel.unpack = .notANumber := rfl
      rw [first, product, unpack_pack_notANumber] at finite
      cases finite
  | infinity sign =>
      rw [first] at finite
      rcases infinity_mul sign b.toModel.unpack with ⟨sign', product⟩ | product
      · rw [product, unpack_pack_infinity] at finite
        cases finite
      · rw [product, unpack_pack_notANumber] at finite
        cases finite
  | zero | finite => rfl

theorem right_isFinite_of_mul (finite : (a * b).isFinite = true) : b.isFinite = true := by
  rw [mul_comm_single] at finite
  exact left_isFinite_of_mul finite

theorem unpack_of_isFinite (finite : a.isFinite = true) :
    (∃ sign, a.toModel.unpack = .zero sign) ∨
      ∃ sign digits place some, a.toModel.unpack = .finite sign digits place some := by
  change a.toModel.unpack.isFinite = true at finite
  cases number : a.toModel.unpack with
  | notANumber | infinity =>
      rw [number] at finite
      cases finite
  | zero => exact .inl ⟨_, rfl⟩
  | finite => exact .inr ⟨_, _, _, _, rfl⟩

namespace IsZero

theorem mul_left (zero : IsZero b) (finite : a.isFinite = true) : IsZero (a * b) := by
  obtain ⟨sign, zero⟩ := zero
  rw [IsZero, unpack_mul, zero]
  rcases unpack_of_isFinite finite with ⟨sign', first⟩ | ⟨sign', _, _, _, first⟩
  · rw [first]
    exact ⟨sign' * sign, unpack_pack_zero _⟩
  · rw [first]
    exact ⟨sign' * sign, unpack_pack_zero _⟩

theorem mul_right (zero : IsZero a) (finite : b.isFinite = true) : IsZero (a * b) := by
  rw [mul_comm_single]
  exact zero.mul_left finite

end IsZero

/-! ### The exact product -/

theorem lastPlace_eq_or_le_log2 (bits : ℕ) :
    single.lastPlace bits = -149 ∨ 23 ≤ (single.significand bits).log2 := by
  rcases single.field_eq_zero_or_le_significand bits with subnormal | normal
  · left
    rw [Format.lastPlace, subnormal]
    rfl
  · right
    exact (Nat.le_log2 (significand_pos (by rintro rfl; cases normal)).ne').mpr normal

theorem log2_le_log2_mul {digits digits' : ℕ} (positive : 0 < digits) (positive' : 0 < digits') :
    digits.log2 ≤ (digits * digits').log2 := by
  rw [Nat.le_log2 (Nat.mul_pos positive positive').ne']
  exact (Nat.log2_self_le positive.ne').trans (Nat.le_mul_of_pos_right digits positive')

/-- The digits of a product are as many as are needed, unless its place is below the lowest. -/
theorem place_le_of_product {bits bits' : ℕ} (positive : 0 < bits) (positive' : 0 < bits') :
    single.lastPlace bits + single.lastPlace bits' ≤
      max (((single.significand bits * single.significand bits').log2 : ℤ) + 1 +
        (single.lastPlace bits + single.lastPlace bits') - 24) (-149) := by
  have some := significand_pos positive.ne'
  have some' := significand_pos positive'.ne'
  have first := log2_le_log2_mul some some'
  have second := log2_le_log2_mul some' some
  rw [mul_comm] at second
  rcases lastPlace_eq_or_le_log2 bits with least | normal
  · rcases lastPlace_eq_or_le_log2 bits' with least' | normal' <;> omega
  · omega

/-- The product of two finite numbers is next to the exact product. -/
theorem exists_mul_unbounded (sign sign' : Sign) (bits bits' : ℕ) :
    ∃ product, single.IsNearest product (single.value bits * single.value bits') ∧
      UnpackedFloat.mul binary32 (unbounded sign bits) (unbounded sign' bits') =
        unbounded (sign * sign') product := by
  rcases Nat.eq_zero_or_pos bits with rfl | positive
  · refine ⟨0, ?_, ?_⟩
    · rw [Format.value_zero, zero_mul]
      exact Format.isNearest_zero
    · rcases Nat.eq_zero_or_pos bits' with rfl | positive'
      · rfl
      · rw [unbounded_pos sign' (significand_pos positive'.ne')]
        rfl
  rcases Nat.eq_zero_or_pos bits' with rfl | positive'
  · refine ⟨0, ?_, ?_⟩
    · rw [Format.value_zero, mul_zero]
      exact Format.isNearest_zero
    · rw [unbounded_pos sign (significand_pos positive.ne')]
      rfl
  obtain ⟨product, nearest, rounded⟩ := exists_roundWithAccuracy (sign * sign')
    (truncates_exact (single.significand bits * single.significand bits'))
    (place_le_of_product positive positive')
  have exact : single.value bits * single.value bits' =
      ((single.significand bits * single.significand bits' : ℕ) : ℚ) / (1 : ℕ) *
        2 ^ (single.lastPlace bits + single.lastPlace bits') := by
    rw [Format.value, Format.value, zpow_add₀ two_ne_zero]
    push_cast
    ring
  refine ⟨product, exact ▸ nearest, ?_⟩
  rw [unbounded_pos sign (significand_pos positive.ne'),
    unbounded_pos sign' (significand_pos positive'.ne'), ← rounded]
  rfl

theorem exists_has_mul {sign sign' : Sign} {bits bits' : ℕ} (has : Has a sign bits)
    (has' : Has b sign' bits') (finite : bits < single.infinityBits)
    (finite' : bits' < single.infinityBits) :
    ∃ product, single.IsNearest product (single.value bits * single.value bits') ∧
      Has (a * b) (sign * sign') product := by
  obtain ⟨product, nearest, exact⟩ := exists_mul_unbounded sign sign' bits bits'
  refine ⟨product, nearest, ?_⟩
  rw [Has, unpack_mul, has, has', (signed_of_lt sign finite).1, (signed_of_lt sign' finite').1,
    exact, unpack_pack_unbounded]

theorem exists_has_sq {sign : Sign} {bits : ℕ} (has : Has a sign bits)
    (finite : bits < single.infinityBits) :
    ∃ square, single.IsNearest square (single.value bits ^ 2) ∧ Has (a * a) .positive square := by
  have positive : sign * sign = .positive := by cases sign <;> rfl
  rw [sq, ← positive]
  exact exists_has_mul has has finite finite

theorem square_le {bits square : ℕ} (small : single.value bits ≤ 2 ^ 63)
    (nearest : single.IsNearest square (single.value bits ^ 2)) :
    square ≤ (252 + 1) * 8388608 := by
  apply nearest.mono (single.isNearest_value _)
  rw [value_power]
  exact (pow_le_pow_left₀ (single.value_nonneg bits) small 2).trans (by norm_num)

theorem nonneg_sq (finite : a.isFinite = true) : Float32.ofNat 0 ≤ a * a := by
  obtain ⟨sign, bits, has, finite⟩ := exists_has_of_isFinite finite
  obtain ⟨square, -, has'⟩ := exists_has_sq has finite
  rw [le_iff_level has_zero has']
  exact Int.natCast_nonneg _

end ArcGraph.Binary
