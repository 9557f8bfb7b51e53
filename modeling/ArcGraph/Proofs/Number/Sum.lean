import ArcGraph.Proofs.Number.Truncation

/-!
Sums of numbers of 32 bits.

A sum of finite numbers is the number next to the exact sum, and infinite where
there is none. A larger summand therefore never makes a sum smaller.
-/

namespace ArcGraph.Binary

open Float.Model (UnpackedFloat)
open Float.Model.UnpackedFloat
open Float.Model.Format (binary32)

/-- A size with a sign. -/
def sized (sign : Sign) (size : ℚ) : ℚ :=
  match sign with
  | .negative => -size
  | .positive => size

/-- Packed, the number is the one next to the exact value. -/
def Rounds (number : UnpackedFloat) (exact : ℚ) : Prop :=
  ∃ sign size bits, 0 ≤ size ∧ exact = sized sign size ∧ single.IsNearest bits size ∧
    unpack binary32 (pack binary32 number) = signed sign bits

theorem rounds_unbounded (sign : Sign) (bits : ℕ) :
    Rounds (unbounded sign bits) (sized sign (single.value bits)) :=
  ⟨sign, single.value bits, bits, single.value_nonneg bits, rfl, single.isNearest_value bits,
    unpack_pack_unbounded sign bits⟩

theorem rounds_zero (sign : Sign) : Rounds (.zero sign) 0 := by
  have exact := rounds_unbounded sign 0
  rw [unbounded_zero, Format.value_zero] at exact
  cases sign with
  | negative => simpa [sized] using exact
  | positive => exact exact

theorem rounds_round (sign : Sign) {digits : ℕ} (positive : 0 < digits) (place : ℤ) :
    Rounds (UnpackedFloat.round binary32 sign digits place) (sized sign (digits * 2 ^ place)) := by
  obtain ⟨bits, nearest, rounded⟩ := exists_round sign positive place
  refine ⟨sign, _, bits, by positivity, rfl, nearest, ?_⟩
  rw [rounded, unpack_pack_unbounded]

theorem rounds_normalize (number place : ℤ) (sign : Sign) :
    Rounds (UnpackedFloat.normalize binary32 number place sign) (number * 2 ^ place) := by
  rcases lt_trichotomy number 0 with negative | rfl | positive
  · obtain ⟨digits, rfl⟩ : ∃ digits : ℕ, number = -digits := ⟨number.natAbs, by omega⟩
    rw [UnpackedFloat.normalize, compare_lt_iff_lt.mpr negative]
    have some : 0 < digits := by omega
    have rounded := rounds_round .negative some place
    simpa [sized] using rounded
  · rw [UnpackedFloat.normalize, compare_eq_iff_eq.mpr rfl]
    simpa using rounds_zero sign
  · lift number to ℕ using positive.le
    rw [UnpackedFloat.normalize, compare_gt_iff_gt.mpr positive]
    have rounded := rounds_round .positive (Int.natCast_pos.mp positive) place
    simpa [sized] using rounded

/-- Digits may be counted in a lower place. -/
theorem apply_decreaseExponent (sign : Sign) (digits : ℕ) {place target : ℤ} (le : target ≤ place) :
    (sign.apply (decreaseExponent digits place target).1 : ℚ) * 2 ^ target =
      sized sign (digits * 2 ^ place) := by
  obtain ⟨more, rfl⟩ : ∃ more : ℕ, place = target + more := ⟨(place - target).toNat, by omega⟩
  have shift : (target + more - target).toNat = more := by omega
  rw [zpow_add₀ two_ne_zero, zpow_natCast]
  cases sign with
  | negative =>
      simp only [decreaseExponent, shift, Nat.shiftLeft_eq, Sign.apply, sized]
      push_cast
      ring
  | positive =>
      simp only [decreaseExponent, shift, Nat.shiftLeft_eq, Sign.apply, sized]
      push_cast
      ring

theorem sized_zero (sign : Sign) : sized sign (single.value 0) = 0 := by
  rw [Format.value_zero]
  cases sign with
  | negative => exact neg_zero
  | positive => rfl

/-- The sum of two finite numbers is next to the exact sum. -/
theorem rounds_add (sign sign' : Sign) (bits bits' : ℕ) :
    Rounds (UnpackedFloat.add binary32 (unbounded sign bits) (unbounded sign' bits'))
      (sized sign (single.value bits) + sized sign' (single.value bits')) := by
  rcases Nat.eq_zero_or_pos bits with rfl | positive
  · have exact := rounds_unbounded sign' bits'
    rw [unbounded_zero, sized_zero, zero_add]
    rcases Nat.eq_zero_or_pos bits' with rfl | positive'
    · rw [unbounded_zero, sized_zero]
      cases sign <;> cases sign' <;> exact rounds_zero _
    · rw [unbounded_pos sign' (significand_pos positive'.ne')] at exact ⊢
      exact exact
  · rcases Nat.eq_zero_or_pos bits' with rfl | positive'
    · have exact := rounds_unbounded sign bits
      rw [unbounded_zero, sized_zero, add_zero]
      rw [unbounded_pos sign (significand_pos positive.ne')] at exact ⊢
      exact exact
    · rw [unbounded_pos sign (significand_pos positive.ne'),
        unbounded_pos sign' (significand_pos positive'.ne'), Format.value, Format.value,
        ← apply_decreaseExponent sign _ (min_le_left _ (single.lastPlace bits')),
        ← apply_decreaseExponent sign' _ (min_le_right (single.lastPlace bits) _), ← add_mul,
        ← Int.cast_add]
      exact rounds_normalize _ _ .positive

end ArcGraph.Binary
