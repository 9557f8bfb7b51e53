import ArcGraph.Number.Binary
import Mathlib.Algebra.Order.Field.Power
import Mathlib.Algebra.Order.Field.Rat
import Mathlib.Order.Monotone.Basic
import Mathlib.Tactic.FieldSimp
import Mathlib.Tactic.Linarith
import Mathlib.Tactic.Positivity
import Mathlib.Tactic.Ring

/-!
Rounding to a binary format.

Without their signs, patterns are in the order of their values, so a ratio
rounds to the one pattern between whose midpoints with its two neighbours it
lies. A value that is itself a pattern is never passed by rounding.
-/

namespace ArcGraph.Binary

theorem zpow_eq_div (base : ℚ) (exponent : ℤ) :
    base ^ exponent = base ^ exponent.toNat / base ^ (-exponent).toNat := by
  rcases le_total 0 exponent with nonneg | nonpos
  · lift exponent to ℕ using nonneg
    simp
  · obtain ⟨power, rfl⟩ : ∃ power : ℕ, exponent = -power := ⟨exponent.natAbs, by omega⟩
    simp

namespace Format

/-- The multiples of the last place in a value. The patterns past the finite ones go on alike. -/
def significand (format : Format) (bits : ℕ) : ℕ :=
  if bits / 2 ^ format.fractionBits = 0 then bits
  else 2 ^ format.fractionBits + bits % 2 ^ format.fractionBits

def lastPlace (format : Format) (bits : ℕ) : ℤ :=
  format.leastExponent + (bits / 2 ^ format.fractionBits - 1 : ℕ)

def value (format : Format) (bits : ℕ) : ℚ :=
  format.significand bits * 2 ^ format.lastPlace bits

/-- The point half way to the next value. -/
def midpoint (format : Format) (bits : ℕ) : ℚ :=
  (format.value bits + format.value (bits + 1)) / 2

/-- The ratio rounds to the pattern: it lies between the midpoints on both sides, and may be one
of them if the pattern is even. -/
structure IsNearest (format : Format) (bits : ℕ) (ratio : ℚ) : Prop where
  above : ratio < format.midpoint bits ∨ ratio = format.midpoint bits ∧ bits % 2 = 0
  below : ∀ {lower}, lower + 1 = bits →
    format.midpoint lower < ratio ∨ format.midpoint lower = ratio ∧ bits % 2 = 0

variable {format : Format}

section Value

variable (format)

theorem eq_field_add_significand (bits : ℕ) :
    bits = (bits / 2 ^ format.fractionBits - 1) * 2 ^ format.fractionBits +
      format.significand bits := by
  have split := Nat.div_add_mod bits (2 ^ format.fractionBits)
  rw [significand]
  split
  case isTrue zero => simp [zero]
  case isFalse ne =>
    obtain ⟨field, eq⟩ := Nat.exists_eq_succ_of_ne_zero ne
    rw [eq] at split ⊢
    simp only [Nat.succ_eq_add_one, Nat.add_sub_cancel]
    linarith

theorem significand_lt (bits : ℕ) : format.significand bits < 2 ^ (format.fractionBits + 1) := by
  have positive : 0 < 2 ^ format.fractionBits := by positivity
  have small := Nat.mod_lt bits positive
  rw [significand, pow_succ]
  split
  case isTrue zero =>
    have := Nat.lt_of_div_eq_zero positive zero
    omega
  case isFalse => omega

theorem field_eq_zero_or_le_significand (bits : ℕ) :
    bits / 2 ^ format.fractionBits - 1 = 0 ∨ 2 ^ format.fractionBits ≤ format.significand bits := by
  rw [significand]
  split <;> omega

/-- A pattern that is put together of a field and a significand. -/
theorem lastPlace_field_add {field significand : ℕ}
    (lt : significand < 2 ^ (format.fractionBits + 1))
    (normal : field = 0 ∨ 2 ^ format.fractionBits ≤ significand) :
    format.lastPlace (field * 2 ^ format.fractionBits + significand) =
        format.leastExponent + field ∧
      format.significand (field * 2 ^ format.fractionBits + significand) = significand := by
  have positive : 0 < 2 ^ format.fractionBits := by positivity
  rw [pow_succ] at lt
  rcases lt_or_ge significand (2 ^ format.fractionBits) with subnormal | large
  · obtain rfl : field = 0 := normal.resolve_right (by omega)
    simp [Format.significand, lastPlace, Nat.div_eq_of_lt subnormal]
  · have quotient : (field * 2 ^ format.fractionBits + significand) / 2 ^ format.fractionBits =
        field + 1 := by
      rw [Nat.div_eq_iff positive]
      rw [Nat.add_one_mul]
      omega
    have remainder : (field * 2 ^ format.fractionBits + significand) % 2 ^ format.fractionBits =
        significand - 2 ^ format.fractionBits := by
      have split := Nat.div_add_mod (field * 2 ^ format.fractionBits + significand)
        (2 ^ format.fractionBits)
      rw [quotient, Nat.mul_add_one, mul_comm] at split
      omega
    rw [Format.significand, lastPlace, quotient, remainder, if_neg (by omega)]
    constructor <;> omega

variable {format} in
theorem mod_two_field_add (fine : 0 < format.fractionBits) (field significand : ℕ) :
    (field * 2 ^ format.fractionBits + significand) % 2 = significand % 2 := by
  obtain ⟨more, eq⟩ := Nat.exists_eq_succ_of_ne_zero fine.ne'
  rw [eq, Nat.succ_eq_add_one, pow_succ, ← mul_assoc]
  omega

theorem value_field_add {field significand : ℕ}
    (le : significand ≤ 2 ^ (format.fractionBits + 1))
    (normal : field = 0 ∨ 2 ^ format.fractionBits ≤ significand) :
    format.value (field * 2 ^ format.fractionBits + significand) =
      significand * 2 ^ (format.leastExponent + field) := by
  rcases lt_or_eq_of_le le with small | rfl
  · obtain ⟨place, digits⟩ := format.lastPlace_field_add small normal
    rw [value, place, digits]
  · -- the significand is one bit too long and belongs to the next field
    have carry : field * 2 ^ format.fractionBits + 2 ^ (format.fractionBits + 1) =
        (field + 1) * 2 ^ format.fractionBits + 2 ^ format.fractionBits := by ring
    have next := @lastPlace_field_add format (field + 1) _
      (Nat.pow_lt_pow_succ one_lt_two) (.inr le_rfl)
    rw [carry, value, next.1, next.2]
    push_cast
    rw [← add_assoc, zpow_add_one₀ two_ne_zero]
    ring

theorem value_succ (bits : ℕ) :
    format.value (bits + 1) = format.value bits + 2 ^ format.lastPlace bits := by
  have small := format.significand_lt bits
  have normal := format.field_eq_zero_or_le_significand bits
  have next : bits + 1 = (bits / 2 ^ format.fractionBits - 1) * 2 ^ format.fractionBits +
      (format.significand bits + 1) := by
    have := format.eq_field_add_significand bits
    omega
  rw [next, format.value_field_add small (by omega), value, lastPlace]
  push_cast
  ring

theorem value_strictMono : StrictMono format.value := by
  refine strictMono_nat_of_lt_succ fun bits => ?_
  rw [format.value_succ]
  have : (0 : ℚ) < 2 ^ format.lastPlace bits := by positivity
  linarith

theorem value_lt_midpoint (bits : ℕ) : format.value bits < format.midpoint bits := by
  have := format.value_strictMono (Nat.lt_succ_self bits)
  rw [midpoint]
  linarith

theorem midpoint_lt_value_succ (bits : ℕ) : format.midpoint bits < format.value (bits + 1) := by
  have := format.value_strictMono (Nat.lt_succ_self bits)
  rw [midpoint]
  linarith

theorem midpoint_field_add {field significand : ℕ}
    (lt : significand < 2 ^ (format.fractionBits + 1))
    (normal : field = 0 ∨ 2 ^ format.fractionBits ≤ significand) :
    format.midpoint (field * 2 ^ format.fractionBits + significand) =
      (significand + 1 / 2) * 2 ^ (format.leastExponent + field) := by
  have next := @value_field_add format field _ (show significand + 1 ≤ _ from lt) (by omega)
  rw [midpoint, add_assoc, next, format.value_field_add lt.le normal]
  push_cast
  ring

theorem midpoint_strictMono : StrictMono format.midpoint :=
  strictMono_nat_of_lt_succ fun bits =>
    (format.midpoint_lt_value_succ bits).trans (format.value_lt_midpoint (bits + 1))

theorem value_zero : format.value 0 = 0 := by
  simp [value, significand]

theorem value_nonneg (bits : ℕ) : 0 ≤ format.value bits := by
  rw [value]
  positivity

end Value

section Nearest

variable {bits other : ℕ} {ratio : ℚ}

theorem IsNearest.le_midpoint (nearest : format.IsNearest bits ratio) :
    ratio ≤ format.midpoint bits :=
  nearest.above.elim le_of_lt fun tie => tie.1.le

theorem IsNearest.midpoint_le (nearest : format.IsNearest bits ratio) {lower : ℕ}
    (lt : lower < bits) : format.midpoint lower ≤ ratio := by
  obtain ⟨gap, rfl⟩ := Nat.exists_eq_add_of_lt lt
  have first : format.midpoint (lower + gap) ≤ ratio :=
    (nearest.below rfl).elim le_of_lt fun tie => tie.1.le
  exact (format.midpoint_strictMono.monotone (Nat.le_add_right lower gap)).trans first

/-- Between two neighbours the tie goes to the even one, so it is never both. -/
theorem IsNearest.not_before (nearest : format.IsNearest bits ratio)
    (nearest' : format.IsNearest other ratio) : ¬ bits < other := by
  intro lt
  have tie : format.midpoint bits = ratio := (nearest'.midpoint_le lt).antisymm nearest.le_midpoint
  have even : bits % 2 = 0 := (nearest.above.resolve_left tie.not_gt).2
  have next : bits + 1 = other := by
    by_contra apart
    have := nearest'.midpoint_le (show bits + 1 < other by omega)
    have := format.midpoint_strictMono (Nat.lt_succ_self bits)
    rw [Nat.succ_eq_add_one] at this
    linarith
  have even' : other % 2 = 0 := ((nearest'.below next).resolve_left tie.not_lt).2
  omega

theorem IsNearest.unique (nearest : format.IsNearest bits ratio)
    (nearest' : format.IsNearest other ratio) : bits = other :=
  (not_lt.1 (nearest'.not_before nearest)).antisymm (not_lt.1 (nearest.not_before nearest'))

/-- A larger ratio does not round to a lower pattern. -/
theorem IsNearest.mono {ratio' : ℚ} (nearest : format.IsNearest bits ratio)
    (nearest' : format.IsNearest other ratio') (le : ratio ≤ ratio') : bits ≤ other := by
  by_contra lt
  have passed := nearest.midpoint_le (not_le.mp lt)
  obtain rfl : ratio = ratio' := le.antisymm (nearest'.le_midpoint.trans passed)
  exact lt (nearest.unique nearest').le

/-- What lies half way is rounded down to an even pattern, and up from an odd one. -/
theorem IsNearest.lt_iff_of_even (nearest : format.IsNearest bits ratio) {lower : ℕ}
    (even : lower % 2 = 0) : lower < bits ↔ format.midpoint lower < ratio := by
  constructor
  · intro lt
    rcases Nat.eq_or_lt_of_le (Nat.succ_le_of_lt lt) with next | apart
    · exact (nearest.below next).resolve_right fun tie => by omega
    · have next := format.midpoint_strictMono (Nat.lt_succ_self lower)
      exact next.trans_le (nearest.midpoint_le apart)
  · intro passed
    by_contra le
    have order := format.midpoint_strictMono.monotone (not_lt.mp le)
    exact (nearest.le_midpoint.trans order).not_gt passed

theorem IsNearest.lt_iff_of_odd (nearest : format.IsNearest bits ratio) {lower : ℕ}
    (odd : lower % 2 = 1) : lower < bits ↔ format.midpoint lower ≤ ratio := by
  refine ⟨nearest.midpoint_le, fun reached => ?_⟩
  by_contra le
  have order := format.midpoint_strictMono.monotone (not_lt.mp le)
  have tie : format.midpoint bits = format.midpoint lower :=
    order.antisymm (reached.trans nearest.le_midpoint)
  obtain rfl := format.midpoint_strictMono.injective tie
  have even := (nearest.above.resolve_left reached.not_gt).2
  omega

theorem IsNearest.value_le (nearest : format.IsNearest bits ratio)
    (le : ratio ≤ format.value other) : format.value bits ≤ format.value other := by
  apply format.value_strictMono.monotone
  by_contra lt
  have passed := nearest.midpoint_le (show other < bits by omega)
  exact absurd (passed.trans le) (format.value_lt_midpoint other).not_ge

theorem IsNearest.le_value (nearest : format.IsNearest bits ratio)
    (le : format.value other ≤ ratio) : format.value other ≤ format.value bits := by
  apply format.value_strictMono.monotone
  by_contra lt
  have next := format.value_strictMono.monotone (f := format.value) (show bits + 1 ≤ other by omega)
  have passed := (format.midpoint_lt_value_succ bits).trans_le (next.trans le)
  exact absurd nearest.le_midpoint passed.not_ge

/-- Nothing is rounded up to more than twice of what it is, as zero would be nearer. -/
theorem IsNearest.value_le_two_mul (nearest : format.IsNearest bits ratio) (nonneg : 0 ≤ ratio) :
    format.value bits ≤ 2 * ratio := by
  cases bits with
  | zero =>
      rw [format.value_zero]
      linarith
  | succ lower =>
      have passed := nearest.midpoint_le (Nat.lt_succ_self lower)
      have below := format.value_nonneg lower
      rw [midpoint] at passed
      linarith

variable (format) in
theorem isNearest_value (bits : ℕ) : format.IsNearest bits (format.value bits) where
  above := .inl (format.value_lt_midpoint bits)
  below := by
    rintro lower rfl
    exact .inl (format.midpoint_lt_value_succ lower)

/-- A ratio measured in a last place: the significand next to it, together with the field of that
place, is the nearest pattern. -/
theorem isNearest_field_add (fine : 0 < format.fractionBits) {field significand : ℕ} {place : ℚ}
    (unit : place = 2 ^ (format.leastExponent + field))
    (lt : ratio < 2 ^ (format.fractionBits + 1) * place)
    (normal : field = 0 ∨ 2 ^ format.fractionBits * place ≤ ratio)
    (above : ratio ≤ (significand + 1 / 2) * place)
    (below : (significand - 1 / 2) * place ≤ ratio)
    (even : ratio = (significand + 1 / 2) * place ∨ ratio = (significand - 1 / 2) * place →
      significand % 2 = 0) :
    format.IsNearest (field * 2 ^ format.fractionBits + significand) ratio := by
  have positive : 0 < place := by rw [unit]; positivity
  have le : significand ≤ 2 ^ (format.fractionBits + 1) := by
    have := lt_of_mul_lt_mul_right (below.trans_lt lt) positive.le
    have : (significand : ℚ) < (2 ^ (format.fractionBits + 1) + 1 : ℕ) := by push_cast; linarith
    exact Nat.lt_succ_iff.1 (by exact_mod_cast this)
  have full : field = 0 ∨ 2 ^ format.fractionBits ≤ significand := by
    refine normal.imp_right fun least => ?_
    have := le_of_mul_le_mul_right (least.trans above) positive
    have : ((2 ^ format.fractionBits : ℕ) : ℚ) < (significand + 1 : ℕ) := by push_cast; linarith
    exact Nat.lt_succ_iff.1 (by exact_mod_cast this)
  have parity := mod_two_field_add fine field significand
  have here := format.value_field_add le full
  rw [← unit] at here
  constructor
  · rcases lt_or_eq_of_le le with small | rfl
    · rw [format.midpoint_field_add small full, ← unit, parity]
      exact (lt_or_eq_of_le above).imp_right fun tie => ⟨tie, even (.inl tie)⟩
    · left
      have := format.value_lt_midpoint
        (field * 2 ^ format.fractionBits + 2 ^ (format.fractionBits + 1))
      rw [here] at this
      push_cast at this
      exact lt.trans this
  · intro lower next
    by_cases first : field ≠ 0 ∧ significand = 2 ^ format.fractionBits
    · -- below a power of two the last place is finer
      obtain ⟨ne, rfl⟩ := first
      left
      have bound := format.midpoint_lt_value_succ lower
      rw [next, here] at bound
      have := normal.resolve_left ne
      push_cast at bound
      exact bound.trans_le this
    · have ne : significand ≠ 0 := by
        rintro rfl
        have : 0 < 2 ^ format.fractionBits := by positivity
        obtain rfl : field = 0 := full.resolve_right (by omega)
        omega
      obtain ⟨previous, rfl⟩ := Nat.exists_eq_succ_of_ne_zero ne
      rw [Nat.succ_eq_add_one] at *
      obtain rfl : lower = field * 2 ^ format.fractionBits + previous := by omega
      have half : format.midpoint (field * 2 ^ format.fractionBits + previous) =
          ((previous + 1 : ℕ) - 1 / 2) * place := by
        rw [format.midpoint_field_add (by omega) (by omega), unit]
        push_cast
        ring
      rw [half, parity]
      exact (lt_or_eq_of_le below).imp_right fun tie => ⟨tie, even (.inr tie.symm)⟩

end Nearest

section RoundMagnitude

theorem roundHalfEven_bounds (numerator : ℕ) {denominator : ℕ} (positive : 0 < denominator) :
    let rounded := roundHalfEven numerator denominator
    2 * numerator ≤ (2 * rounded + 1) * denominator ∧
      2 * rounded * denominator ≤ 2 * numerator + denominator ∧
      (2 * numerator = (2 * rounded + 1) * denominator ∨
        2 * rounded * denominator = 2 * numerator + denominator → rounded % 2 = 0) := by
  have split := Nat.div_add_mod numerator denominator
  have small := Nat.mod_lt numerator positive
  have up : (2 * (numerator / denominator + 1) + 1) * denominator =
      2 * (denominator * (numerator / denominator)) + 3 * denominator := by ring
  have down : (2 * (numerator / denominator) + 1) * denominator =
      2 * (denominator * (numerator / denominator)) + denominator := by ring
  have up' : 2 * (numerator / denominator + 1) * denominator =
      2 * (denominator * (numerator / denominator)) + 2 * denominator := by ring
  have down' : 2 * (numerator / denominator) * denominator =
      2 * (denominator * (numerator / denominator)) := by ring
  simp only [roundHalfEven]
  split
  · rw [up, up']
    omega
  · rw [down, down']
    omega

/-- The quotient is rounded by at most a half, and by a half to even numbers only. -/
theorem roundHalfEven_spec (numerator : ℕ) {denominator : ℕ} (positive : 0 < denominator) :
    (numerator / denominator : ℚ) ≤ roundHalfEven numerator denominator + 1 / 2 ∧
      (roundHalfEven numerator denominator - 1 / 2 : ℚ) ≤ numerator / denominator ∧
      ((numerator / denominator : ℚ) = roundHalfEven numerator denominator + 1 / 2 ∨
        (numerator / denominator : ℚ) = roundHalfEven numerator denominator - 1 / 2 →
          roundHalfEven numerator denominator % 2 = 0) := by
  obtain ⟨above, below, even⟩ := roundHalfEven_bounds numerator positive
  generalize roundHalfEven numerator denominator = rounded at *
  have denominatorPos : (0 : ℚ) < denominator := by exact_mod_cast positive
  have above : (2 * numerator : ℚ) ≤ (2 * rounded + 1) * denominator := by exact_mod_cast above
  have below : (2 * rounded * denominator : ℚ) ≤ 2 * numerator + denominator := by
    exact_mod_cast below
  refine ⟨(div_le_iff₀ denominatorPos).2 (by linarith),
    (le_div_iff₀ denominatorPos).2 (by linarith), ?_⟩
  refine fun tie => even (tie.imp (fun tie => ?_) fun tie => ?_)
  · have : (2 * numerator : ℚ) = (2 * rounded + 1) * denominator := by
      rw [div_eq_iff denominatorPos.ne'] at tie
      linarith
    exact_mod_cast this
  · have : (2 * rounded * denominator : ℚ) = 2 * numerator + denominator := by
      rw [div_eq_iff denominatorPos.ne'] at tie
      linarith
    exact_mod_cast this

theorem binaryOrder_spec {numerator denominator : ℕ} (nonzero : numerator ≠ 0)
    (positive : denominator ≠ 0) :
    (2 : ℚ) ^ binaryOrder numerator denominator ≤ numerator / denominator ∧
      (numerator / denominator : ℚ) < 2 ^ (binaryOrder numerator denominator + 1) := by
  set high := Nat.log2 numerator with highDef
  set low := Nat.log2 denominator with lowDef
  have denominatorPos : (0 : ℚ) < denominator := by exact_mod_cast Nat.pos_of_ne_zero positive
  have numeratorLe : (2 : ℚ) ^ (high : ℤ) ≤ numerator := by
    rw [zpow_natCast]
    exact_mod_cast Nat.log2_self_le nonzero
  have ltNumerator : (numerator : ℚ) < 2 ^ ((high : ℤ) + 1) := by
    exact_mod_cast Nat.lt_log2_self
  have denominatorLe : (2 : ℚ) ^ (low : ℤ) ≤ denominator := by
    rw [zpow_natCast]
    exact_mod_cast Nat.log2_self_le positive
  have ltDenominator : (denominator : ℚ) < 2 ^ ((low : ℤ) + 1) := by
    exact_mod_cast Nat.lt_log2_self
  -- the test compares the ratio with the power of two between the two logarithms
  have test : numerator * Nat.pow 2 (-((high : ℤ) - low)).toNat <
      denominator * Nat.pow 2 ((high : ℤ) - low).toNat ↔
      (numerator / denominator : ℚ) < 2 ^ ((high : ℤ) - low) := by
    rw [zpow_eq_div, div_lt_div_iff₀ denominatorPos (by positivity), mul_comm ((2 : ℚ) ^ _)]
    simp only [Nat.pow_eq]
    exact_mod_cast Iff.rfl
  have least : (2 : ℚ) ^ ((high : ℤ) - low - 1) ≤ numerator / denominator := by
    rw [le_div_iff₀ denominatorPos]
    calc (2 : ℚ) ^ ((high : ℤ) - low - 1) * denominator
        ≤ 2 ^ ((high : ℤ) - low - 1) * 2 ^ ((low : ℤ) + 1) := by gcongr
      _ = 2 ^ (high : ℤ) := by rw [← zpow_add₀ two_ne_zero]; congr 1; ring
      _ ≤ numerator := numeratorLe
  have most : (numerator / denominator : ℚ) < 2 ^ ((high : ℤ) - low + 1) := by
    rw [div_lt_iff₀ denominatorPos]
    calc (numerator : ℚ) < 2 ^ ((high : ℤ) + 1) := ltNumerator
      _ = 2 ^ ((high : ℤ) - low + 1) * 2 ^ (low : ℤ) := by
          rw [← zpow_add₀ two_ne_zero]; congr 1; ring
      _ ≤ 2 ^ ((high : ℤ) - low + 1) * denominator := by gcongr
  rw [binaryOrder, ← highDef, ← lowDef]
  split
  case isTrue lt => exact ⟨least, by simpa using test.1 lt⟩
  case isFalse ge => exact ⟨not_lt.1 (mt test.2 ge), most⟩

theorem isNearest_zero : format.IsNearest 0 0 := by
  simpa [format.value_zero] using format.isNearest_value 0

/-- A ratio is rounded to its nearest pattern, and to infinity if that lies past the finite ones. -/
theorem exists_isNearest_roundMagnitude (fine : 0 < format.fractionBits) (numerator : ℕ)
    {denominator : ℕ} (positive : denominator ≠ 0) :
    ∃ bits, format.IsNearest bits (numerator / denominator) ∧
      format.roundMagnitude numerator denominator = min bits format.infinityBits := by
  by_cases zero : numerator = 0
  · exact ⟨0, by simpa [zero] using isNearest_zero, by simp [roundMagnitude, zero]⟩
  set exponent := max format.leastExponent
    (binaryOrder numerator denominator - format.fractionBits) with exponentDef
  set significand := roundHalfEven (numerator * Nat.pow 2 (-exponent).toNat)
    (denominator * Nat.pow 2 exponent.toNat) with significandDef
  set field := (exponent - format.leastExponent).toNat with fieldDef
  refine ⟨field * 2 ^ format.fractionBits + significand, ?_, ?_⟩
  swap
  · rw [roundMagnitude, if_neg zero]
    rfl
  have unit : (2 : ℚ) ^ exponent = 2 ^ (format.leastExponent + (field : ℤ)) := by
    congr 1
    omega
  have place : (0 : ℚ) < 2 ^ exponent := by positivity
  have scaled : ((numerator * Nat.pow 2 (-exponent).toNat : ℕ) : ℚ) /
      (denominator * Nat.pow 2 exponent.toNat : ℕ) = numerator / denominator / 2 ^ exponent := by
    rw [zpow_eq_div (2 : ℚ) exponent]
    push_cast [Nat.pow_eq]
    field_simp
  obtain ⟨least, most⟩ := binaryOrder_spec zero positive
  have room : (2 : ℚ) ^ (binaryOrder numerator denominator + 1) ≤
      2 ^ (format.fractionBits + 1) * 2 ^ exponent := by
    rw [← zpow_natCast, ← zpow_add₀ two_ne_zero]
    refine zpow_le_zpow_right₀ one_le_two ?_
    push_cast
    omega
  have scaledPos : 0 < denominator * Nat.pow 2 exponent.toNat :=
    Nat.mul_pos (Nat.pos_of_ne_zero positive) (Nat.pow_pos two_pos)
  obtain ⟨above, below, even⟩ :=
    roundHalfEven_spec (numerator * Nat.pow 2 (-exponent).toNat) scaledPos
  rw [scaled, ← significandDef] at above below even
  refine isNearest_field_add fine unit (most.trans_le room) ?_ ((div_le_iff₀ place).1 above)
    ((le_div_iff₀ place).1 below) ?_
  · by_cases lowest : format.leastExponent < exponent
    · right
      have top : exponent = binaryOrder numerator denominator - format.fractionBits := by omega
      rw [top, ← zpow_natCast, ← zpow_add₀ two_ne_zero]
      simpa using least
    · exact .inl (by omega)
  · rw [div_eq_iff place.ne', div_eq_iff place.ne'] at even
    exact even

/-- Every pattern up to infinity is what the ratios next to it are rounded to. -/
theorem roundMagnitude_eq (fine : 0 < format.fractionBits) {numerator denominator bits : ℕ}
    (positive : denominator ≠ 0) (nearest : format.IsNearest bits (numerator / denominator))
    (le : bits ≤ format.infinityBits) : format.roundMagnitude numerator denominator = bits := by
  obtain ⟨rounded, nearest', eq⟩ := exists_isNearest_roundMagnitude fine numerator positive
  rw [eq, nearest'.unique nearest, min_eq_left le]

end RoundMagnitude

end Format

end ArcGraph.Binary
