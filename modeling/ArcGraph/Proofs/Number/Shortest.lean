import ArcGraph.Number.Shortest
import ArcGraph.Proofs.Number.Rounding
import Mathlib.Algebra.Order.Floor.Semifield
import Mathlib.Data.Rat.Floor

/-!
The shortest decimal of a binary number.

The interval that the search looks for a decimal in holds just the ratios that
round to the number. A grid with a multiple in there is found, and the search
goes down the grids until the first such one.
-/

namespace ArcGraph

namespace Binary.Format

variable {format : Format} {lower : ℕ} {ratio : ℚ}

theorem isNearest_of_between (lt : format.midpoint lower < ratio)
    (lt' : ratio < format.midpoint (lower + 1)) : format.IsNearest (lower + 1) ratio where
  above := .inl lt'
  below := by
    rintro lower ⟨⟩
    exact .inl lt

variable (format) in
theorem midpoint_eq_add (bits : ℕ) :
    format.midpoint bits = format.value bits + 2 ^ format.lastPlace bits / 2 := by
  rw [midpoint, format.value_succ]
  ring

variable (format) in
theorem midpoint_eq_sub (bits : ℕ) :
    format.midpoint bits = format.value (bits + 1) - 2 ^ format.lastPlace bits / 2 := by
  rw [midpoint, format.value_succ]
  ring

/-- The last place gets finer below a power of two, but not below the smallest normal number. -/
theorem lastPlace_of_succ (bits : ℕ) :
    format.lastPlace bits =
      if format.significand (bits + 1) = 2 ^ format.fractionBits ∧
          format.leastExponent < format.lastPlace (bits + 1)
      then format.lastPlace (bits + 1) - 1 else format.lastPlace (bits + 1) := by
  have positive : 0 < 2 ^ format.fractionBits := by positivity
  have small := format.significand_lt (bits + 1)
  have normal := format.field_eq_zero_or_le_significand (bits + 1)
  have whole := format.eq_field_add_significand (bits + 1)
  have place : format.lastPlace (bits + 1) =
    format.leastExponent + ((bits + 1) / 2 ^ format.fractionBits - 1 : ℕ) := rfl
  generalize (bits + 1) / 2 ^ format.fractionBits - 1 = field at *
  generalize format.significand (bits + 1) = significand at *
  rw [place]
  rw [pow_succ] at small
  split
  case isTrue first =>
    obtain ⟨previous, rfl⟩ := Nat.exists_eq_succ_of_ne_zero (n := field) (by omega)
    have below : bits =
        previous * 2 ^ format.fractionBits + (2 * 2 ^ format.fractionBits - 1) := by
      rw [Nat.succ_mul] at whole
      omega
    rw [below, (format.lastPlace_field_add (by rw [pow_succ]; omega) (by omega)).1]
    push_cast
    ring
  case isFalse later =>
    have ne : significand ≠ 0 := by
      rintro rfl
      obtain rfl : field = 0 := by omega
      omega
    have below : bits = field * 2 ^ format.fractionBits + (significand - 1) := by omega
    rw [below, (format.lastPlace_field_add (by rw [pow_succ]; omega) (by omega)).1]

end Binary.Format

namespace Shortest

open Binary Binary.Format

namespace Neighbourhood

variable (around : Neighbourhood)

/-- What the three points of a neighbourhood are multiples of. -/
def unit : ℚ :=
  around.numerator / around.denominator

theorem holds_iff (positive : 0 < around.denominator) (multiple : ℕ) (exponent : ℤ) :
    around.holds multiple exponent = true ↔
      if around.closed then
        around.lower * around.unit ≤ multiple * 10 ^ exponent ∧
          multiple * 10 ^ exponent ≤ around.upper * around.unit
      else
        around.lower * around.unit < multiple * 10 ^ exponent ∧
          multiple * 10 ^ exponent < around.upper * around.unit := by
  have denominatorPos : (0 : ℚ) < around.denominator := by exact_mod_cast positive
  have ten : (0 : ℚ) < 10 ^ (-exponent).toNat := by positivity
  have point : (multiple * 10 ^ exponent : ℚ) =
      multiple * 10 ^ exponent.toNat / 10 ^ (-exponent).toNat := by
    rw [zpow_eq_div, mul_div_assoc]
  simp only [holds, point, unit, ← mul_div_assoc, div_le_div_iff₀ denominatorPos ten,
    div_le_div_iff₀ ten denominatorPos, div_lt_div_iff₀ denominatorPos ten,
    div_lt_div_iff₀ ten denominatorPos, Nat.pow_eq]
  split <;> simp only [Bool.and_eq_true, decide_eq_true_eq, ← mul_assoc] <;> norm_cast

end Neighbourhood

variable {format : Format} {bits : ℕ}

theorem unit_neighbourhood (significand : ℕ) (exponent : ℤ) :
    (neighbourhood format significand exponent).unit = 2 ^ (exponent - 2) := by
  rw [Neighbourhood.unit, zpow_eq_div]
  simp [neighbourhood]

theorem significand_pos (ne : bits ≠ 0) : 0 < format.significand bits := by
  rw [significand]
  split
  · exact Nat.pos_of_ne_zero ne
  · positivity

theorem significand_mod_two (fine : 0 < format.fractionBits) (bits : ℕ) :
    format.significand bits % 2 = bits % 2 := by
  have parity := mod_two_field_add fine (bits / 2 ^ format.fractionBits - 1)
    (format.significand bits)
  rw [← eq_field_add_significand] at parity
  exact parity.symm

theorem upper_neighbourhood (bits : ℕ) :
    ((neighbourhood format (format.significand bits) (format.lastPlace bits)).upper : ℚ) *
      2 ^ (format.lastPlace bits - 2) = format.midpoint bits := by
  rw [midpoint_eq_add, value, zpow_sub₀ two_ne_zero]
  simp only [neighbourhood]
  push_cast
  ring

theorem lower_neighbourhood (lower : ℕ) :
    ((neighbourhood format (format.significand (lower + 1)) (format.lastPlace (lower + 1))).lower :
      ℚ) * 2 ^ (format.lastPlace (lower + 1) - 2) = format.midpoint lower := by
  have positive : 0 < format.significand (lower + 1) := significand_pos (Nat.succ_ne_zero lower)
  rw [midpoint_eq_sub, value, lastPlace_of_succ lower, zpow_sub₀ two_ne_zero]
  simp only [neighbourhood, Nat.pow_eq]
  split
  · rw [zpow_sub₀ two_ne_zero, Nat.cast_sub (by omega)]
    push_cast
    ring
  · rw [Nat.cast_sub (by omega)]
    push_cast
    ring

/-- The interval holds the decimals that round to the number. -/
theorem holds_neighbourhood (fine : 0 < format.fractionBits) (ne : bits ≠ 0) (multiple : ℕ)
    (exponent : ℤ) :
    (neighbourhood format (format.significand bits) (format.lastPlace bits)).holds
        multiple exponent = true ↔ format.IsNearest bits (multiple * 10 ^ exponent) := by
  obtain ⟨lower, rfl⟩ := Nat.exists_eq_succ_of_ne_zero ne
  rw [Neighbourhood.holds_iff _ (Nat.pow_pos two_pos), unit_neighbourhood, upper_neighbourhood,
    lower_neighbourhood]
  have closed : (neighbourhood format (format.significand (lower + 1))
      (format.lastPlace (lower + 1))).closed = true ↔ (lower + 1) % 2 = 0 := by
    simp [neighbourhood, significand_mod_two fine]
  simp only [closed]
  constructor
  · intro inside
    split at inside
    case isTrue even =>
      refine ⟨(lt_or_eq_of_le inside.2).imp_right fun eq => ⟨eq, even⟩, ?_⟩
      rintro lower ⟨⟩
      exact (lt_or_eq_of_le inside.1).imp_right fun eq => ⟨eq, even⟩
    case isFalse =>
      refine ⟨.inl inside.2, ?_⟩
      rintro lower ⟨⟩
      exact .inl inside.1
  · intro nearest
    split
    case isTrue => exact ⟨nearest.midpoint_le (Nat.lt_succ_self lower), nearest.le_midpoint⟩
    case isFalse odd =>
      exact ⟨(nearest.below rfl).resolve_right fun tie => odd tie.2,
        nearest.above.resolve_right fun tie => odd tie.2⟩

section Search

variable {around : Neighbourhood} {multiple : ℕ} {exponent : ℤ}

theorem holds_of_onGrid? (found : around.onGrid? exponent = some multiple) :
    around.holds multiple exponent = true := by
  rw [Neighbourhood.onGrid?] at found
  split at found
  case h_1 => contradiction
  case h_2 inside _ => cases found; exact inside
  case h_3 inside => cases found; exact inside
  case h_4 inside inside' =>
    split at found <;> cases found
    · exact inside
    · exact inside'

/-- The search stops on a grid that has a multiple in the interval, and passes no such grid. -/
theorem search_spec {grid start : ℤ} {steps : ℕ} (found : around.onGrid? grid ≠ none)
    (le : grid ≤ start) (enough : start - grid < steps) :
    grid ≤ (around.search start steps).2 ∧
      around.holds (around.search start steps).1 (around.search start steps).2 = true := by
  induction steps generalizing start with
  | zero => omega
  | succ steps inductionHypothesis =>
      rw [Neighbourhood.search]
      split
      case h_1 multiple here => exact ⟨le, holds_of_onGrid? here⟩
      case h_2 missing =>
        have : grid ≠ start := by
          rintro rfl
          exact found missing
        exact inductionHypothesis (by omega) (by omega)

end Search

/-- A grid that is finer than the place below the number has a multiple in the interval. -/
theorem onGrid?_ne_none (fine : 0 < format.fractionBits) {lower : ℕ} {grid : ℤ}
    (lt : (10 : ℚ) ^ grid < 2 ^ format.lastPlace lower) :
    (neighbourhood format (format.significand (lower + 1)) (format.lastPlace (lower + 1))).onGrid?
      grid ≠ none := by
  set around := neighbourhood format (format.significand (lower + 1))
    (format.lastPlace (lower + 1)) with aroundDef
  set below := around.value * around.numerator * Nat.pow 10 (-grid).toNat /
    (around.denominator * Nat.pow 10 grid.toNat) with belowDef
  have spacing : (0 : ℚ) < 10 ^ grid := by positivity
  have value_eq : (around.value * around.unit : ℚ) = format.value (lower + 1) := by
    rw [aroundDef, unit_neighbourhood, value, zpow_sub₀ two_ne_zero]
    simp only [neighbourhood]
    push_cast
    ring
  have below_eq : below = ⌊format.value (lower + 1) / 10 ^ grid⌋₊ := by
    rw [belowDef, ← Nat.floor_div_eq_div (K := ℚ), ← value_eq, Neighbourhood.unit, zpow_eq_div]
    push_cast [Nat.pow_eq]
    congr 1
    field_simp
  have floor : (below : ℚ) * 10 ^ grid ≤ format.value (lower + 1) := by
    rw [below_eq, ← le_div_iff₀ spacing]
    exact Nat.floor_le (div_nonneg (format.value_nonneg _) spacing.le)
  have ceiling : format.value (lower + 1) < (below + 1 : ℕ) * (10 : ℚ) ^ grid := by
    rw [below_eq, ← div_lt_iff₀ spacing]
    exact_mod_cast Nat.lt_floor_add_one _
  have nearby : around.holds below grid = true ∨ around.holds (below + 1) grid = true := by
    have place : (2 : ℚ) ^ format.lastPlace lower ≤ 2 ^ format.lastPlace (lower + 1) := by
      refine zpow_le_zpow_right₀ one_le_two ?_
      rw [lastPlace_of_succ lower]
      split <;> omega
    have left := format.midpoint_eq_sub lower
    have right := format.midpoint_eq_add (lower + 1)
    rw [holds_neighbourhood fine (Nat.succ_ne_zero lower),
      holds_neighbourhood fine (Nat.succ_ne_zero lower)]
    push_cast at ceiling ⊢
    rcases le_or_gt (format.value (lower + 1) - below * 10 ^ grid) (10 ^ grid / 2) with near | far
    · exact .inl (isNearest_of_between (by linarith) (by linarith))
    · exact .inr (isNearest_of_between (by linarith) (by linarith))
  rw [Neighbourhood.onGrid?]
  split
  case h_1 outside outside' =>
    rw [← belowDef] at outside outside'
    simp [outside, outside'] at nearby
  all_goals simp

/-- The shortest decimal rounds to its number, and its grid is none of those that are too fine. -/
theorem decimal_spec (fine : 0 < format.fractionBits) {lower : ℕ} {grid : ℤ}
    (lt : (10 : ℚ) ^ grid < 2 ^ format.lastPlace lower) (le : grid ≤ topExponent format)
    (enough : -grid < topExponent format + 2 * format.fractionBits) {digits : ℕ} {power : ℤ}
    (eq : decimal format (format.significand (lower + 1)) (format.lastPlace (lower + 1)) =
      (digits, power)) :
    grid ≤ power ∧ format.IsNearest (lower + 1) (digits * 10 ^ power) := by
  have steps : topExponent format - grid <
      (2 * topExponent format + 2 * format.fractionBits : ℕ) := by
    push_cast
    omega
  have found := search_spec (onGrid?_ne_none fine lt) le steps
  rw [holds_neighbourhood fine (Nat.succ_ne_zero lower)] at found
  rw [decimal] at eq
  rwa [eq] at found

end Shortest

end ArcGraph
