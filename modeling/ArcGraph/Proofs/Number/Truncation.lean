import ArcGraph.Proofs.Number.Signed

/-!
Rounding digits to 32 bits.

The digits of a quotient, with two bits for what is left of it, are shifted
until they fit. What they are then rounded to is the pattern next to the
quotient.
-/

namespace ArcGraph.Binary

open Float.Model (UnpackedFloat totalExponent)
open Float.Model.UnpackedFloat
open Float.Model.Format (binary32)

/-! ### Dropping digits -/

theorem mantissa_ofMantissaAndAccuracy (digits : ℕ) (accuracy : Accuracy) :
    (ExtendedMantissa.ofMantissaAndAccuracy digits accuracy).mantissa = digits := by
  unfold ExtendedMantissa.ofMantissaAndAccuracy
  split <;> rfl

/-- The digits are those of a quotient without its fraction, and the two remaining bits tell the
half of a unit and what is less. -/
structure Truncates (digits : ExtendedMantissa) (numerator denominator : ℕ) : Prop where
  rest : ∃ rest < denominator, numerator = digits.mantissa * denominator + rest ∧
    (digits.roundBit = true ↔ denominator ≤ 2 * rest) ∧
    (digits.stickyBit = true ↔ rest ≠ 0 ∧ 2 * rest ≠ denominator)

theorem truncates_exact (number : ℕ) :
    Truncates (.ofMantissaAndAccuracy number .exact) number 1 where
  rest := ⟨0, Nat.one_pos, by simp [ExtendedMantissa.ofMantissaAndAccuracy]⟩

theorem truncates_accuracyOfFraction (number : ℕ) {denominator rest : ℕ}
    (lt : rest < denominator) :
    Truncates (.ofMantissaAndAccuracy number (accuracyOfFraction rest denominator))
      (number * denominator + rest) denominator where
  rest := by
    refine ⟨rest, lt, by rw [mantissa_ofMantissaAndAccuracy], ?_⟩
    unfold accuracyOfFraction
    split
    case isTrue none =>
      simp only [ExtendedMantissa.ofMantissaAndAccuracy, Bool.false_eq_true, false_iff]
      omega
    case isFalse some =>
      cases order : compare (2 * rest) denominator with
      | lt =>
          rw [compare_lt_iff_lt] at order
          simp only [ExtendedMantissa.ofMantissaAndAccuracy, Bool.false_eq_true, false_iff,
            true_iff]
          omega
      | eq =>
          rw [compare_eq_iff_eq] at order
          simp only [ExtendedMantissa.ofMantissaAndAccuracy, Bool.false_eq_true, false_iff,
            true_iff]
          omega
      | gt =>
          rw [compare_gt_iff_gt] at order
          simp only [ExtendedMantissa.ofMantissaAndAccuracy, true_iff]
          omega

namespace Truncates

variable {digits : ExtendedMantissa} {numerator denominator : ℕ}

theorem shiftRightOne (truncates : Truncates digits numerator denominator) :
    Truncates digits.shiftRightOne numerator (denominator * 2) where
  rest := by
    obtain ⟨rest, lt, split, half, less⟩ := truncates.rest
    have sticky : digits.shiftRightOne.stickyBit = true ↔ rest ≠ 0 := by
      simp only [ExtendedMantissa.shiftRightOne, Bool.or_eq_true, half, less]
      omega
    have bit : digits.shiftRightOne.roundBit = true ↔ digits.mantissa % 2 ≠ 0 := by
      simp [ExtendedMantissa.shiftRightOne]
    have halved : digits.shiftRightOne.mantissa = digits.mantissa / 2 := rfl
    rw [sticky, bit, halved]
    rcases Nat.mod_two_eq_zero_or_one digits.mantissa with even | odd
    · have twice : digits.mantissa = digits.mantissa / 2 * 2 := by omega
      refine ⟨rest, by omega, ?_, by omega, by omega⟩
      rw [split]
      nth_rewrite 1 [twice]
      ring
    · have twice : digits.mantissa = digits.mantissa / 2 * 2 + 1 := by omega
      refine ⟨denominator + rest, by omega, ?_, by omega, by omega⟩
      rw [split]
      nth_rewrite 1 [twice]
      ring

theorem shiftRight (truncates : Truncates digits numerator denominator) (places : ℕ) :
    Truncates (digits >>> places) numerator (denominator * 2 ^ places) := by
  change Truncates (places.repeat ExtendedMantissa.shiftRightOne _) _ _
  induction places with
  | zero =>
      rw [pow_zero, mul_one]
      exact truncates
  | succ places inductionHypothesis =>
      rw [pow_succ, ← mul_assoc]
      exact inductionHypothesis.shiftRightOne

theorem denominator_pos (truncates : Truncates digits numerator denominator) : 0 < denominator := by
  obtain ⟨rest, lt, -⟩ := truncates.rest
  omega

theorem mul_le (truncates : Truncates digits numerator denominator) :
    digits.mantissa * denominator ≤ numerator := by
  obtain ⟨rest, -, split, -⟩ := truncates.rest
  omega

theorem lt_mul (truncates : Truncates digits numerator denominator) :
    numerator < (digits.mantissa + 1) * denominator := by
  obtain ⟨rest, lt, split, -⟩ := truncates.rest
  rw [Nat.add_one_mul]
  omega

/-- The bits that are left are enough to round to the nearest even number. -/
theorem roundedMantissa_eq (truncates : Truncates digits numerator denominator) :
    digits.roundedMantissa = Format.roundHalfEven numerator denominator := by
  have positive := truncates.denominator_pos
  obtain ⟨rest, lt, split, half, less⟩ := truncates.rest
  have quotient : numerator / denominator = digits.mantissa := by
    rw [split, mul_comm, Nat.mul_add_div positive, Nat.div_eq_of_lt lt, add_zero]
  have remainder : numerator % denominator = rest := by
    rw [split, mul_comm, Nat.mul_add_mod, Nat.mod_eq_of_lt lt]
  simp only [Format.roundHalfEven, quotient, remainder]
  obtain ⟨mantissa, roundBit, stickyBit⟩ := digits
  cases roundBit <;> cases stickyBit <;>
    simp only [ExtendedMantissa.roundedMantissa, ExtendedMantissa.accuracy,
      Accuracy.roundToNearestEven, Bool.false_eq_true, false_iff, true_iff] at half less ⊢ <;>
    split <;> omega

end Truncates

theorem log2_mul_two_pow {digits : ℕ} (positive : 0 < digits) (places : ℕ) :
    (digits * 2 ^ places).log2 = digits.log2 + places := by
  have product : digits * 2 ^ places ≠ 0 := by positivity
  rw [Nat.log2_eq_iff product, pow_add, add_right_comm, pow_add]
  have positive' : 0 < 2 ^ places := by positivity
  exact ⟨Nat.mul_le_mul_right _ (Nat.log2_self_le positive.ne'),
    Nat.mul_lt_mul_of_pos_right Nat.lt_log2_self positive'⟩

theorem roundHalfEven_le {numerator denominator bound : ℕ}
    (lt : numerator < bound * denominator) :
    Format.roundHalfEven numerator denominator ≤ bound := by
  have quotient : numerator / denominator < bound := Nat.div_lt_of_lt_mul (by rwa [mul_comm])
  simp only [Format.roundHalfEven]
  split <;> omega

theorem le_roundHalfEven {numerator denominator bound : ℕ} (positive : 0 < denominator)
    (le : bound * denominator ≤ numerator) :
    bound ≤ Format.roundHalfEven numerator denominator := by
  have quotient : bound ≤ numerator / denominator := (Nat.le_div_iff_mul_le positive).mpr le
  simp only [Format.roundHalfEven]
  split <;> omega

/-! ### Rounding -/

theorem roundWithAccuracy_eq (sign : Sign) (digits : ℕ) (place : ℤ) (accuracy : Accuracy)
    {first last : ExtendedMantissa} {place' place'' : ℤ}
    (dropped : shiftToTargetExponent binary32 digits place accuracy = (first, place'))
    (carried : shiftToTargetExponent binary32 first.roundedMantissa place' .exact =
      (last, place'')) :
    roundWithAccuracy binary32 sign digits place accuracy =
      ofDigits sign last.mantissa place'' := by
  unfold roundWithAccuracy
  rw [dropped]
  dsimp only
  rw [carried]
  by_cases none : last.mantissa = 0
  · rw [dif_pos none, ofDigits, dif_neg (by omega)]
  · rw [dif_neg none, ofDigits, dif_pos (Nat.pos_of_ne_zero none)]

/-- The digits are shifted to the last place that is the right one for them. -/
theorem shiftToTargetExponent_eq {digits places : ℕ} {place : ℤ} (accuracy : Accuracy)
    (right : (max ((digits.log2 : ℤ) + 1 + place - 24) (-149) - place).toNat = places) :
    shiftToTargetExponent binary32 digits place accuracy =
      (ExtendedMantissa.ofMantissaAndAccuracy digits accuracy >>> places, place + places) := by
  subst right
  rfl

/-- Digits that are rounded to one too many move to the next place. -/
theorem exists_carry (sign : Sign) {field digits : ℕ} (le : digits ≤ 16777216)
    (normal : field = 0 ∨ 8388608 ≤ digits) :
    ∃ last place, shiftToTargetExponent binary32 digits (-149 + field) .exact = (last, place) ∧
      ofDigits sign last.mantissa place = unbounded sign (field * 8388608 + digits) := by
  rcases Nat.lt_or_eq_of_le le with small | rfl
  · have short : digits.log2 ≤ 23 := by
      rcases Nat.eq_zero_or_pos digits with rfl | positive
      · decide
      · exact Nat.lt_succ_iff.mp ((Nat.log2_lt positive.ne').mpr small)
    have stays : (max ((digits.log2 : ℤ) + 1 + (-149 + field) - 24) (-149) -
        (-149 + field)).toNat = 0 := by omega
    refine ⟨_, _, shiftToTargetExponent_eq .exact stays, ?_⟩
    change ofDigits sign digits (-149 + field + (0 : ℕ)) = _
    by_cases large : 8388608 ≤ digits
    · have next : field * 8388608 + digits = (field + 1) * 8388608 + (digits - 8388608) := by omega
      have whole : 8388608 + (digits - 8388608) = digits := by omega
      have place : (-149 + field + (0 : ℕ) : ℤ) = (field + 1 : ℕ) - 150 := by omega
      rw [next, unbounded_normal sign (by omega) (by omega), whole, place]
    · obtain rfl : field = 0 := normal.resolve_right large
      rw [zero_mul, zero_add, unbounded_subnormal sign (by omega)]
      rfl
  · have moves : (max (((16777216 : ℕ).log2 : ℤ) + 1 + (-149 + field) - 24) (-149) -
        (-149 + field)).toNat = 1 := by
      have long : (16777216 : ℕ).log2 = 24 := by decide +kernel
      omega
    refine ⟨_, _, shiftToTargetExponent_eq .exact moves, ?_⟩
    change ofDigits sign 8388608 (-149 + field + (1 : ℕ)) = _
    have next : field * 8388608 + 16777216 = (field + 2) * 8388608 + 0 := by omega
    have place : (-149 + field + (1 : ℕ) : ℤ) = (field + 2 : ℕ) - 150 := by omega
    rw [next, unbounded_normal sign (by omega) (by decide), place]

/-- What is left of a quotient without its last places, rounded, gives the pattern next to it. -/
theorem isNearest_roundHalfEven {numerator denominator places field : ℕ}
    (positive : 0 < denominator)
    (most : numerator < 16777216 * (denominator * 2 ^ places))
    (least : field = 0 ∨ 8388608 * (denominator * 2 ^ places) ≤ numerator) :
    single.IsNearest
      (field * 8388608 + Format.roundHalfEven numerator (denominator * 2 ^ places))
      (numerator / denominator * 2 ^ (-149 + field - places : ℤ)) := by
  have unit : 0 < denominator * 2 ^ places := by positivity
  have unit' : (0 : ℚ) < (denominator * 2 ^ places : ℕ) := by exact_mod_cast unit
  have nonzero : (denominator : ℚ) ≠ 0 := by exact_mod_cast positive.ne'
  have step : (0 : ℚ) < 2 ^ (-149 + field : ℤ) := by positivity
  have scaled : (numerator : ℚ) / (denominator * 2 ^ places : ℕ) =
      numerator / denominator * 2 ^ (-149 + field - places : ℤ) / 2 ^ (-149 + field : ℤ) := by
    rw [zpow_sub₀ two_ne_zero, zpow_natCast]
    push_cast
    field_simp
  have most' : (numerator : ℚ) / (denominator * 2 ^ places : ℕ) < 16777216 := by
    rw [div_lt_iff₀ unit']
    exact_mod_cast most
  have least' : field = 0 ∨ (8388608 : ℚ) ≤ (numerator : ℚ) / (denominator * 2 ^ places : ℕ) := by
    refine least.imp_right fun large => ?_
    rw [le_div_iff₀ unit']
    exact_mod_cast large
  obtain ⟨above, below, even⟩ := Format.roundHalfEven_spec numerator unit
  rw [scaled] at most' least' above below even
  apply Format.isNearest_field_add (by decide) (show (2 : ℚ) ^ (-149 + field : ℤ) = _ from rfl)
  case lt =>
    have bound : (single.fractionBits + 1 : ℕ) = 24 := rfl
    rw [bound]
    norm_num
    exact (div_lt_iff₀ step).mp most'
  case normal =>
    refine least'.imp_right fun large => ?_
    have bound : single.fractionBits = 23 := rfl
    rw [bound]
    norm_num
    exact (le_div_iff₀ step).mp large
  case above => exact (div_le_iff₀ step).mp above
  case below => exact (le_div_iff₀ step).mp below
  case even =>
    rw [div_eq_iff step.ne', div_eq_iff step.ne'] at even
    exact even

section Round

variable (sign : Sign) {digits numerator denominator : ℕ} {place : ℤ} {accuracy : Accuracy}
  (truncates : Truncates (.ofMantissaAndAccuracy digits accuracy) numerator denominator)
include truncates

theorem roundWithAccuracy_eq_unbounded {places field : ℕ}
    (most : numerator < 16777216 * (denominator * 2 ^ places))
    (least : field = 0 ∨ 8388608 * (denominator * 2 ^ places) ≤ numerator)
    (lower : place = -149 + field - places)
    (right : (max ((digits.log2 : ℤ) + 1 + place - 24) (-149) - place).toNat = places) :
    roundWithAccuracy binary32 sign digits place accuracy =
      unbounded sign
        (field * 8388608 + Format.roundHalfEven numerator (denominator * 2 ^ places)) := by
  have shifted := truncates.shiftRight places
  have rounded := shifted.roundedMantissa_eq
  obtain ⟨last, place', carried, whole⟩ := exists_carry sign (roundHalfEven_le most)
    (least.imp_right (le_roundHalfEven shifted.denominator_pos))
  have upper : place + places = -149 + field := by omega
  have dropped := shiftToTargetExponent_eq accuracy right
  rw [upper] at dropped
  rw [← rounded] at carried
  rw [← whole]
  exact roundWithAccuracy_eq sign digits place accuracy dropped carried

/-- Digits that are not counted in too high a place are rounded to the pattern next to what they
are the digits of. -/
theorem exists_roundWithAccuracy
    (low : place ≤ max ((digits.log2 : ℤ) + 1 + place - 24) (-149)) :
    ∃ bits, single.IsNearest bits (numerator / denominator * 2 ^ place) ∧
      roundWithAccuracy binary32 sign digits place accuracy = unbounded sign bits := by
  obtain ⟨places, right⟩ : ∃ places : ℕ,
      max ((digits.log2 : ℤ) + 1 + place - 24) (-149) = place + places :=
    ⟨(max ((digits.log2 : ℤ) + 1 + place - 24) (-149) - place).toNat, by omega⟩
  obtain ⟨field, lower⟩ : ∃ field : ℕ, place = -149 + field - places :=
    ⟨(place + places + 149).toNat, by omega⟩
  have above := truncates.lt_mul
  have below := truncates.mul_le
  rw [mantissa_ofMantissaAndAccuracy] at above below
  have most : numerator < 16777216 * (denominator * 2 ^ places) := by
    have top : digits + 1 ≤ 2 ^ (24 + places) := by
      calc digits + 1
          ≤ 2 ^ (digits.log2 + 1) := Nat.lt_log2_self
        _ ≤ 2 ^ (24 + places) := Nat.pow_le_pow_right two_pos (by omega)
    calc numerator
        < (digits + 1) * denominator := above
      _ ≤ 2 ^ (24 + places) * denominator := Nat.mul_le_mul_right _ top
      _ = 16777216 * (denominator * 2 ^ places) := by
          rw [pow_add]
          ring
  have least : field = 0 ∨ 8388608 * (denominator * 2 ^ places) ≤ numerator := by
    rcases Nat.eq_zero_or_pos field with none | large
    · exact .inl none
    · right
      have nonzero : digits ≠ 0 := by
        rintro rfl
        simp only [Nat.log2_zero, Nat.cast_zero] at right low
        omega
      calc 8388608 * (denominator * 2 ^ places)
          = 2 ^ (23 + places) * denominator := by
            rw [pow_add]
            ring
        _ ≤ digits * denominator := by
            refine Nat.mul_le_mul_right _ ?_
            calc 2 ^ (23 + places)
                ≤ 2 ^ digits.log2 := Nat.pow_le_pow_right two_pos (by omega)
              _ ≤ digits := Nat.log2_self_le nonzero
        _ ≤ numerator := below
  refine ⟨_, ?_, roundWithAccuracy_eq_unbounded sign truncates most least lower (by omega)⟩
  rw [lower]
  exact isNearest_roundHalfEven truncates.denominator_pos most least

end Round

/-- A positive number is rounded to the pattern next to it. -/
theorem exists_round (sign : Sign) {digits : ℕ} (positive : 0 < digits) (place : ℤ) :
    ∃ bits, single.IsNearest bits (digits * 2 ^ place) ∧
      UnpackedFloat.round binary32 sign digits place = unbounded sign bits := by
  -- The digits are first counted in a place that is no higher than the target.
  obtain ⟨more, moreEq⟩ : ∃ more : ℕ,
      more = (place - max ((digits.log2 : ℤ) + 1 + place - 24) (-149)).toNat := ⟨_, rfl⟩
  have log := log2_mul_two_pow positive more
  obtain ⟨bits, nearest, rounded⟩ := exists_roundWithAccuracy sign
    (truncates_exact (digits * 2 ^ more)) (show place - more ≤ _ by omega)
  have exact : ((digits * 2 ^ more : ℕ) : ℚ) / (1 : ℕ) * 2 ^ (place - more) =
      digits * 2 ^ place := by
    rw [zpow_sub₀ two_ne_zero, zpow_natCast]
    push_cast
    field_simp
  refine ⟨bits, exact ▸ nearest, ?_⟩
  rw [← rounded, ← Nat.shiftLeft_eq, moreEq]
  rfl

end ArcGraph.Binary
