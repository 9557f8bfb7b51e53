import ArcGraph.Proofs.Number.Product

/-!
Quotients and square roots of numbers of 32 bits.

A quotient of finite numbers is the number next to the exact quotient, so that
it is zero only if the divisor is out of all proportion. A square root is the
number next to one that is at most twice the exact root.
-/

namespace ArcGraph.Binary

open Float.Model (UnpackedFloat totalExponent)
open Float.Model.UnpackedFloat
open Float.Model.Format (binary32)

variable {a b : Float32}

/-! ### Quotients -/

theorem unpack_div (a b : Float32) : (a / b).toModel.unpack = unpack binary32 (pack binary32
    (UnpackedFloat.div binary32 a.toModel.unpack b.toModel.unpack)) := rfl

/-- The digits of a quotient are as many as are needed, unless its place is the lowest. -/
theorem place_le_of_quotient {digits digits' places : ℕ} {place : ℤ} (some : 0 < digits)
    (some' : 0 < digits')
    (enough : place ≤ -149 ∨ (digits'.log2 : ℤ) + 24 ≤ digits.log2 + places) :
    place ≤ max (((digits * 2 ^ places / digits').log2 : ℤ) + 1 + place - 24) (-149) := by
  rcases enough with least | enough
  · exact le_max_of_le_right least
  · have divisor : digits' < 2 ^ (digits'.log2 + 1) := Nat.lt_log2_self
    have dividend : 2 ^ (digits.log2 + places) ≤ digits * 2 ^ places := by
      rw [← log2_mul_two_pow some]
      exact Nat.log2_self_le (by positivity)
    have quotient : 2 ^ 23 ≤ digits * 2 ^ places / digits' := by
      rw [Nat.le_div_iff_mul_le some']
      calc 2 ^ 23 * digits'
          ≤ 2 ^ 23 * 2 ^ (digits'.log2 + 1) := Nat.mul_le_mul_left _ divisor.le
        _ = 2 ^ (23 + (digits'.log2 + 1)) := (pow_add 2 _ _).symm
        _ ≤ 2 ^ (digits.log2 + places) := Nat.pow_le_pow_right two_pos (by omega)
        _ ≤ digits * 2 ^ places := dividend
    have long := (Nat.le_log2 (by omega)).mpr quotient
    omega

theorem exists_div_finite (sign sign' : Sign) {digits digits' : ℕ} (some : 0 < digits)
    (some' : 0 < digits') (first second : ℤ) :
    ∃ quotient, single.IsNearest quotient (digits * 2 ^ first / (digits' * 2 ^ second)) ∧
      UnpackedFloat.div binary32 (.finite sign digits first some)
        (.finite sign' digits' second some') = unbounded (sign / sign') quotient := by
  obtain ⟨place, target⟩ : ∃ place : ℤ, min (first - second)
      (max ((digits.log2 + 1 + first - (digits'.log2 + 1 + second)) - 24) (-149)) = place :=
    ⟨_, rfl⟩
  obtain ⟨places, more⟩ : ∃ places : ℕ, first - second - place = places :=
    ⟨(first - second - place).toNat, by omega⟩
  have truncates := truncates_accuracyOfFraction (digits * 2 ^ places / digits')
    (Nat.mod_lt (digits * 2 ^ places) some')
  rw [Nat.div_add_mod'] at truncates
  have low : place ≤ max (((digits * 2 ^ places / digits').log2 : ℤ) + 1 + place - 24) (-149) :=
    place_le_of_quotient some some' (by omega)
  obtain ⟨quotient, nearest, rounded⟩ := exists_roundWithAccuracy (sign / sign') truncates low
  have exact : ((digits * 2 ^ places : ℕ) : ℚ) / digits' * 2 ^ place =
      digits * 2 ^ first / (digits' * 2 ^ second) := by
    have place' : place = first - second - places := by omega
    rw [place', zpow_sub₀ two_ne_zero, zpow_sub₀ two_ne_zero, zpow_natCast]
    push_cast
    field_simp
  have core : divCore binary32 digits first digits' second =
      (digits * 2 ^ places / digits', place,
        accuracyOfFraction (digits * 2 ^ places % digits') digits') := by
    change min (first - second) (binary32.targetExponent
      (totalExponent digits first - totalExponent digits' second)) = place at target
    simp only [divCore, target, more, Int.toNat_natCast, Nat.shiftLeft_eq]
  refine ⟨quotient, exact ▸ nearest, ?_⟩
  dsimp only [UnpackedFloat.div]
  rw [core]
  exact rounded

/-- The quotient of two finite numbers is next to the exact quotient. -/
theorem exists_div_unbounded (sign sign' : Sign) (bits : ℕ) {bits' : ℕ} (positive' : 0 < bits') :
    ∃ quotient, single.IsNearest quotient (single.value bits / single.value bits') ∧
      UnpackedFloat.div binary32 (unbounded sign bits) (unbounded sign' bits') =
        unbounded (sign / sign') quotient := by
  have some' := significand_pos positive'.ne'
  rw [unbounded_pos sign' some']
  rcases Nat.eq_zero_or_pos bits with rfl | positive
  · refine ⟨0, ?_, rfl⟩
    rw [Format.value_zero, zero_div]
    exact Format.isNearest_zero
  · have some := significand_pos positive.ne'
    rw [unbounded_pos sign some]
    exact exists_div_finite sign sign' some some' _ _

theorem exists_has_div {sign sign' : Sign} {bits bits' : ℕ} (has : Has a sign bits)
    (has' : Has b sign' bits') (finite : bits < single.infinityBits)
    (finite' : bits' < single.infinityBits) (positive' : 0 < bits') :
    ∃ quotient, single.IsNearest quotient (single.value bits / single.value bits') ∧
      Has (a / b) (sign / sign') quotient := by
  obtain ⟨quotient, nearest, exact⟩ := exists_div_unbounded sign sign' bits positive'
  refine ⟨quotient, nearest, ?_⟩
  rw [Has, unpack_div, has, has', (signed_of_lt sign finite).1, (signed_of_lt sign' finite').1,
    exact, unpack_pack_unbounded]

/-- A quotient that is not below the smallest positive number does not vanish. -/
theorem not_isZero_div {sign sign' : Sign} {bits bits' : ℕ} (has : Has a sign bits)
    (has' : Has b sign' bits') (finite : bits < single.infinityBits)
    (finite' : bits' < single.infinityBits) (positive' : 0 < bits')
    (large : single.value 1 * single.value bits' ≤ single.value bits) : ¬IsZero (a / b) := by
  obtain ⟨quotient, nearest, exact⟩ := exists_has_div has has' finite finite' positive'
  have divisor : 0 < single.value bits' :=
    single.value_zero ▸ single.value_strictMono positive'
  have one := (single.isNearest_value 1).mono nearest ((le_div_iff₀ divisor).mpr large)
  rw [isZero_iff_of_has exact]
  omega

/-- What is finite vanishes when divided by infinity. -/
theorem isZero_div_of_infinity {sign : Sign} (finite : a.isFinite = true)
    (infinite : b.toModel.unpack = .infinity sign) : IsZero (a / b) := by
  rw [IsZero, unpack_div, infinite]
  rcases unpack_of_isFinite finite with ⟨sign', first⟩ | ⟨sign', _, _, _, first⟩
  · rw [first]
    exact ⟨sign' / sign, unpack_pack_zero _⟩
  · rw [first]
    exact ⟨sign' / sign, unpack_pack_zero _⟩

/-! ### Square roots -/

theorem unpack_sqrt (a : Float32) : a.sqrt.toModel.unpack = unpack binary32 (pack binary32
    (UnpackedFloat.sqrt binary32 a.toModel.unpack)) := rfl

theorem unpack_sqrt_infinity (infinite : a.toModel.unpack = .infinity .positive) :
    a.sqrt.toModel.unpack = .infinity .positive := by
  rw [unpack_sqrt, infinite]
  exact unpack_pack_infinity .positive

/-- The digits of a root are as many as are needed, unless its place is the lowest. -/
theorem place_le_of_root {number : ℕ} {place : ℤ} (enough : place ≤ -149 ∨ 46 ≤ number.log2) :
    place ≤ max ((number.sqrt.log2 : ℤ) + 1 + place - 24) (-149) := by
  rcases enough with least | enough
  · exact le_max_of_le_right least
  · have nonzero : number ≠ 0 := by
      rintro rfl
      cases enough
    have root : 2 ^ 23 ≤ number.sqrt := by
      rw [Nat.le_sqrt, ← pow_add]
      exact (Nat.le_log2 nonzero).mp enough
    have long := (Nat.le_log2 (by omega)).mpr root
    omega

/-- What is left of a number without the square of its root is told from a half by comparing it
with the root, as if it were one or three quarters. -/
theorem exists_accuracy_root (number : ℕ) :
    ∃ rest < 4, (if number - number.sqrt * number.sqrt = 0 then Accuracy.exact
      else .inexact (if number - number.sqrt * number.sqrt ≤ number.sqrt then .lt else .gt)) =
        accuracyOfFraction rest 4 := by
  split
  case isTrue => exact ⟨0, by decide, rfl⟩
  case isFalse =>
    split
    case isTrue => exact ⟨1, by decide, rfl⟩
    case isFalse => exact ⟨3, by decide, rfl⟩

theorem sq_root_le {number rest : ℕ} (positive : 0 < number) (lt : rest < 4) :
    (number.sqrt * 4 + rest) ^ 2 ≤ 64 * number := by
  have some : 1 ≤ number.sqrt := Nat.sqrt_pos.mpr positive
  calc (number.sqrt * 4 + rest) ^ 2
      ≤ (8 * number.sqrt) ^ 2 := Nat.pow_le_pow_left (by omega) 2
    _ = 64 * (number.sqrt * number.sqrt) := by ring
    _ ≤ 64 * number := Nat.mul_le_mul_left 64 (Nat.sqrt_le number)

/-- The root of a positive number is next to one that is at most twice the exact root. -/
theorem exists_sqrt_finite {digits : ℕ} (some : 0 < digits) (first : ℤ) :
    ∃ root size, single.IsNearest root size ∧ 0 ≤ size ∧ size ^ 2 ≤ 4 * (digits * 2 ^ first) ∧
      UnpackedFloat.sqrt binary32 (.finite .positive digits first some) =
        unbounded .positive root := by
  obtain ⟨place, target⟩ : ∃ place : ℤ, min (first / 2)
      (max ((digits.log2 + 1 + first + 1) / 2 - 24) (-149)) = place := ⟨_, rfl⟩
  obtain ⟨places, more⟩ : ∃ places : ℕ, first - 2 * place = places :=
    ⟨(first - 2 * place).toNat, by omega⟩
  obtain ⟨rest, lt, accuracy⟩ := exists_accuracy_root (digits * 2 ^ places)
  have low : place ≤ max (((digits * 2 ^ places).sqrt.log2 : ℤ) + 1 + place - 24) (-149) := by
    apply place_le_of_root
    rw [log2_mul_two_pow some]
    omega
  obtain ⟨root, nearest, rounded⟩ := exists_roundWithAccuracy .positive
    (truncates_accuracyOfFraction (digits * 2 ^ places).sqrt lt) low
  have core : sqrtCore binary32 digits first =
      ((digits * 2 ^ places).sqrt, place, accuracyOfFraction rest 4) := by
    change min (first.ediv 2) (binary32.targetExponent ((totalExponent digits first + 1).ediv 2)) =
      place at target
    simp only [sqrtCore, target, more, Int.toNat_natCast, Nat.shiftLeft_eq, accuracy]
  have exact : (digits : ℚ) * 2 ^ first = (digits * 2 ^ places : ℕ) * (2 ^ place) ^ 2 := by
    have first' : first = places + place * 2 := by omega
    rw [first', zpow_add₀ two_ne_zero, zpow_natCast, zpow_mul, zpow_ofNat]
    push_cast
    ring
  have small : (((digits * 2 ^ places).sqrt * 4 + rest : ℕ) : ℚ) ^ 2 ≤
      64 * (digits * 2 ^ places : ℕ) := by
    exact_mod_cast sq_root_le (Nat.mul_pos some (Nat.two_pow_pos places)) lt
  refine ⟨root, _, nearest, by positivity, ?_, ?_⟩
  · rw [exact, mul_pow, div_pow, ← mul_assoc]
    apply mul_le_mul_of_nonneg_right _ (by positivity)
    norm_num
    norm_num at small
    linarith
  · dsimp only [UnpackedFloat.sqrt]
    rw [core]
    exact rounded

/-- The root of a finite number that is not negative is finite. Its square is at most sixteen times
the number. -/
theorem exists_has_sqrt {sign : Sign} {bits : ℕ} (nonneg : Float32.ofNat 0 ≤ a)
    (has : Has a sign bits) (finite : bits < single.infinityBits) :
    ∃ sign' root, Has a.sqrt sign' root ∧ root < single.infinityBits ∧
      single.value root ^ 2 ≤ 16 * single.value bits := by
  have unpacked := has.trans (signed_of_lt sign finite).1
  rcases Nat.eq_zero_or_pos bits with rfl | positive
  · refine ⟨sign, 0, ?_, by decide, by simp [Format.value_zero]⟩
    rw [Has, unpack_sqrt, unpacked]
    exact unpack_pack_zero sign
  · obtain rfl : sign = .positive := by
      rw [le_iff_level has_zero has, (signed_of_lt sign finite).2] at nonneg
      change (0 : ℤ) ≤ _ at nonneg
      cases sign with
      | negative =>
          simp only [Sign.apply] at nonneg
          omega
      | positive => rfl
    have some := significand_pos positive.ne'
    obtain ⟨root, size, nearest, nonneg', small, exact⟩ :=
      exists_sqrt_finite some (single.lastPlace bits)
    have bound : single.value root ^ 2 ≤ 16 * single.value bits := by
      calc single.value root ^ 2
          ≤ (2 * size) ^ 2 :=
            pow_le_pow_left₀ (single.value_nonneg root) (nearest.value_le_two_mul nonneg') 2
        _ = 4 * size ^ 2 := by ring
        _ ≤ 16 * single.value bits := by
            rw [Format.value]
            linarith
    refine ⟨.positive, root, ?_, ?_, bound⟩
    · rw [Has, unpack_sqrt, unpacked, unbounded_pos .positive some, exact, unpack_pack_unbounded]
    · have below := single.value_strictMono finite
      rw [value_infinityBits] at below
      rw [← single.value_strictMono.lt_iff_lt, value_infinityBits]
      apply lt_of_pow_lt_pow_left₀ 2 (by positivity)
      linarith

end ArcGraph.Binary
