import ArcGraph.Number.Shortest
import ArcGraph.Proofs.Number.Rounding
import Mathlib.Tactic.LinearCombination

/-!
Short decimals next to midpoints.

A midpoint between two numbers of 32 bits is an odd multiple of half a last
place. The multiples of a power of ten that come close to one are points of the
plane near a line. A basis of the plane that the Euclidean algorithm gives for
that line leaves few coordinates for them, and these are gone through for each
of the 254 exponents. One point is left where the decimal is the shortest one of
a number that has the midpoint at its side.
-/

namespace ArcGraph.NearMiss

open Binary

/-- A power of ten below `2 ^ place`. -/
def grid (place : ℤ) : ℤ :=
  (1233 * place - 1) / 4096

/-- The decimal `multiple * 10 ^ grid` together with the midpoint `half * 2 ^ (place - 1)`. -/
structure Pair where
  multiple : ℤ
  half : ℤ

/-- The two units of a pair, and the distance to look at, as multiples of one small number. -/
structure Scale where
  ten : ℕ
  two : ℕ
  slack : ℕ

/-- The distance to look at is `2 ^ (place - 30)`. -/
def scale (place : ℤ) : Scale :=
  let slack := 10 ^ (-grid place).toNat * 2 ^ (place - 30).toNat
  ⟨10 ^ (grid place).toNat * 2 ^ (30 - place).toNat, 2 ^ 29 * slack, slack⟩

namespace Scale

variable (scale : Scale)

/-- How far the decimal lies above the midpoint. -/
def defect (pair : Pair) : ℤ :=
  pair.multiple * scale.ten - pair.half * scale.two

/-- No decimal near a midpoint of 25 bits is a greater multiple. -/
def reach : ℕ :=
  (2 ^ 25 * scale.two + scale.slack) / scale.ten

/-- The Euclidean algorithm on two defects, as long as the multiples do not get large. -/
def reduce : ℕ → Pair → Pair → Pair × Pair
  | 0, first, second => (first, second)
  | steps + 1, first, second =>
      if scale.defect second = 0 then (first, second)
      else
        let quotient := (scale.defect first).natAbs / (scale.defect second).natAbs
        let next : Pair := ⟨first.multiple + quotient * second.multiple,
          first.half + quotient * second.half⟩
        if 4 * scale.reach < next.multiple.natAbs then (first, second)
        else reduce steps second next

def basis : Pair × Pair :=
  scale.reduce 40 ⟨0, 1⟩ ⟨1, scale.ten / scale.two⟩

/-- How often the other pair of a basis can be in a pair near the line. -/
def bound (pair : Pair) : ℕ :=
  (scale.reach * (scale.defect pair).natAbs + pair.multiple.natAbs * scale.slack) / scale.two

end Scale

/-- The one of the two numbers beside a midpoint that has an odd significand. -/
def oddNeighbour (half : ℤ) : ℕ :=
  (if (half - 1) / 2 % 2 = 1 then (half - 1) / 2 else (half + 1) / 2).toNat

/-- The decimal of the pair is the shortest one of the odd number beside the midpoint. -/
def isShortest (place : ℤ) (pair : Pair) : Bool :=
  let (digits, power) := Shortest.decimal single (oddNeighbour pair.half) place
  (digits * 10 ^ (power - grid place).toNat : ℕ) = pair.multiple

/-- The pair is no decimal of a number beside a midpoint, except for a single number. -/
def isClear (place : ℤ) (pair : Pair) : Bool :=
  pair.half % 2 = 0 || (scale place).defect pair = 0 ||
    (scale place).slack < ((scale place).defect pair).natAbs || !isShortest place pair ||
    (place = -107 && oddNeighbour pair.half = 0xae43fd)

/-- All pairs with coordinates in bounds are clear. Where a pair of the basis is on the line and
the other one is out of reach, all pairs in bounds are on the line. -/
def allClear (place : ℤ) : Bool :=
  let (first, second) := (scale place).basis
  let bound := (scale place).bound second
  let bound' := (scale place).bound first
  (first.multiple * second.half - first.half * second.multiple) ^ 2 = 1 &&
    (((scale place).defect second = 0 && bound = 0) ||
      (List.range (2 * bound + 1)).all fun i => (List.range (2 * bound' + 1)).all fun j =>
        isClear place ⟨(i - bound : ℤ) * first.multiple + (j - bound' : ℤ) * second.multiple,
          (i - bound : ℤ) * first.half + (j - bound' : ℤ) * second.half⟩)

theorem allClear_of_lt : ∀ field : ℕ, field < 254 → allClear (field - 149) = true := by
  have all : ((List.range 254).all fun field : ℕ => allClear (field - 149)) = true := by
    decide +kernel
  intro field lt
  exact List.all_eq_true.1 all field (List.mem_range.2 lt)

theorem grid_lt :
    ∀ field : ℕ, field < 254 → (10 : ℚ) ^ grid (field - 149) < 2 ^ (field - 149 : ℤ) := by
  have all : ((List.range 254).all fun field : ℕ =>
      10 ^ (grid (field - 149)).toNat * 2 ^ (-(field - 149 : ℤ)).toNat <
        2 ^ (field - 149 : ℤ).toNat * 10 ^ (-grid (field - 149)).toNat) = true := by
    decide +kernel
  intro field lt
  have here := of_decide_eq_true (List.all_eq_true.1 all field (List.mem_range.2 lt))
  rw [zpow_eq_div, zpow_eq_div 2, div_lt_div_iff₀ (by positivity) (by positivity)]
  exact_mod_cast here

section Scale

variable (scale : Scale) {first second pair : Pair}

/-- Every pair has whole coordinates in a basis of determinant one. -/
theorem eq_coordinates
    (det : (first.multiple * second.half - first.half * second.multiple) ^ 2 = 1) (pair : Pair) :
    ∃ coordinate coordinate' : ℤ,
      coordinate.natAbs = (pair.multiple * second.half - pair.half * second.multiple).natAbs ∧
        coordinate'.natAbs = (pair.multiple * first.half - pair.half * first.multiple).natAbs ∧
        pair = ⟨coordinate * first.multiple + coordinate' * second.multiple,
          coordinate * first.half + coordinate' * second.half⟩ := by
  set sign := first.multiple * second.half - first.half * second.multiple with signDef
  have unit : sign.natAbs = 1 := by
    have := congrArg Int.natAbs det
    rw [Int.natAbs_pow] at this
    exact (pow_eq_one_iff.1 this).resolve_right two_ne_zero
  refine ⟨sign * (pair.multiple * second.half - pair.half * second.multiple),
    -sign * (pair.multiple * first.half - pair.half * first.multiple), ?_, ?_, ?_⟩
  · rw [Int.natAbs_mul, unit, one_mul]
  · rw [Int.natAbs_mul, Int.natAbs_neg, unit, one_mul]
  · obtain ⟨multiple, half⟩ := pair
    congr 1
    · linear_combination (-multiple) * det
    · linear_combination (-half) * det

/-- The coordinate of a pair near the line is bounded by how far the other pair is off it. -/
theorem natAbs_le_bound (positive : 0 < scale.two) (other : Pair)
    (near : (scale.defect pair).natAbs ≤ scale.slack)
    (within : pair.multiple.natAbs ≤ scale.reach) :
    (pair.multiple * other.half - pair.half * other.multiple).natAbs ≤ scale.bound other := by
  have eliminated : (pair.multiple * other.half - pair.half * other.multiple) * scale.two =
      other.multiple * scale.defect pair - pair.multiple * scale.defect other := by
    simp only [Scale.defect]
    ring
  rw [Scale.bound, Nat.le_div_iff_mul_le positive]
  calc (pair.multiple * other.half - pair.half * other.multiple).natAbs * scale.two
      = (other.multiple * scale.defect pair - pair.multiple * scale.defect other).natAbs := by
        rw [← eliminated, Int.natAbs_mul, Int.natAbs_natCast]
    _ ≤ (other.multiple * scale.defect pair).natAbs +
        (pair.multiple * scale.defect other).natAbs := Int.natAbs_sub_le _ _
    _ = pair.multiple.natAbs * (scale.defect other).natAbs +
        other.multiple.natAbs * (scale.defect pair).natAbs := by
        rw [Int.natAbs_mul, Int.natAbs_mul, Nat.add_comm]
    _ ≤ scale.reach * (scale.defect other).natAbs + other.multiple.natAbs * scale.slack := by
        gcongr

theorem defect_add (coordinate coordinate' : ℤ) :
    scale.defect ⟨coordinate * first.multiple + coordinate' * second.multiple,
      coordinate * first.half + coordinate' * second.half⟩ =
      coordinate * scale.defect first + coordinate' * scale.defect second := by
  simp only [Scale.defect]
  ring

end Scale

/-- The numbers from `-bound` to `bound` are an initial segment of the naturals, shifted. -/
theorem exists_range_of_natAbs_le {coordinate : ℤ} {bound : ℕ} (le : coordinate.natAbs ≤ bound) :
    ∃ i ∈ List.range (2 * bound + 1), (i - bound : ℤ) = coordinate :=
  ⟨(coordinate + bound).toNat, by simp; omega, by omega⟩

/-- A pair with a small defect is clear. -/
theorem isClear_of_near {place : ℤ} (clear : allClear place = true)
    (positive : 0 < (scale place).two) {pair : Pair}
    (near : ((scale place).defect pair).natAbs ≤ (scale place).slack)
    (within : pair.multiple.natAbs ≤ (scale place).reach) : isClear place pair = true := by
  rw [allClear] at clear
  generalize (scale place).basis = basis at clear
  obtain ⟨first, second⟩ := basis
  simp only [Bool.and_eq_true, Bool.or_eq_true, decide_eq_true_eq, List.all_eq_true] at clear
  obtain ⟨det, onLine | all⟩ := clear
  · obtain ⟨coordinate, coordinate', eq, -, rfl⟩ := eq_coordinates det pair
    have zero : coordinate = 0 := by
      have := natAbs_le_bound _ positive second near within
      omega
    have on : (scale place).defect ⟨coordinate * first.multiple + coordinate' * second.multiple,
        coordinate * first.half + coordinate' * second.half⟩ = 0 := by
      rw [defect_add, zero, onLine.1]
      ring
    simp [isClear, on]
  · obtain ⟨coordinate, coordinate', eq, eq', rfl⟩ := eq_coordinates det pair
    obtain ⟨i, mem, rfl⟩ := exists_range_of_natAbs_le
      (eq ▸ natAbs_le_bound _ positive second near within)
    obtain ⟨j, mem', rfl⟩ := exists_range_of_natAbs_le
      (eq' ▸ natAbs_le_bound _ positive first near within)
    exact all i mem j mem'

section Distance

variable {place : ℤ} {multiple half : ℕ}

theorem defect_scale (place : ℤ) (multiple half : ℕ) :
    (multiple * 10 ^ grid place - half * 2 ^ (place - 1) : ℚ) * (scale place).slack =
      (scale place).defect ⟨multiple, half⟩ * 2 ^ (place - 30) := by
  have ten : (10 : ℚ) ^ grid place * (scale place).slack =
      (scale place).ten * 2 ^ (place - 30) := by
    rw [zpow_eq_div, zpow_eq_div 2, neg_sub]
    simp only [scale]
    push_cast
    field_simp
  have two : (2 : ℚ) ^ (place - 1) * (scale place).slack =
      (scale place).two * 2 ^ (place - 30) := by
    have : (2 : ℚ) ^ (place - 1) = 2 ^ (29 : ℤ) * 2 ^ (place - 30) := by
      rw [← zpow_add₀ two_ne_zero]
      congr 1
      ring
    rw [this]
    simp only [scale]
    push_cast
    ring
  simp only [Scale.defect]
  push_cast
  linear_combination (multiple : ℚ) * ten - (half : ℚ) * two

theorem natAbs_defect_le
    (near : |(multiple * 10 ^ grid place - half * 2 ^ (place - 1) : ℚ)| ≤ 2 ^ (place - 30)) :
    ((scale place).defect ⟨multiple, half⟩).natAbs ≤ (scale place).slack := by
  have unit : (0 : ℚ) < 2 ^ (place - 30) := by positivity
  have scaled : |((scale place).defect ⟨multiple, half⟩ : ℚ)| * 2 ^ (place - 30) ≤
      (scale place).slack * 2 ^ (place - 30) := by
    calc |((scale place).defect ⟨multiple, half⟩ : ℚ)| * 2 ^ (place - 30)
        = |(multiple * 10 ^ grid place - half * 2 ^ (place - 1) : ℚ) * (scale place).slack| := by
          rw [defect_scale place multiple half, abs_mul, abs_of_pos unit]
      _ = |(multiple * 10 ^ grid place - half * 2 ^ (place - 1) : ℚ)| * (scale place).slack := by
          rw [abs_mul, Nat.abs_cast]
      _ ≤ 2 ^ (place - 30) * (scale place).slack := by gcongr
      _ = (scale place).slack * 2 ^ (place - 30) := mul_comm _ _
  have := le_of_mul_le_mul_right scaled unit
  rw [← Int.cast_abs, Int.abs_eq_natAbs] at this
  exact_mod_cast this

theorem le_reach (bits : half < 2 ^ 25)
    (small : ((scale place).defect ⟨multiple, half⟩).natAbs ≤ (scale place).slack) :
    multiple ≤ (scale place).reach := by
  have ten : 0 < (scale place).ten := by simp only [scale]; positivity
  have most : half * (scale place).two ≤ 2 ^ 25 * (scale place).two := by gcongr
  have above : ((multiple * (scale place).ten : ℕ) : ℤ) - (half * (scale place).two : ℕ) ≤
      (scale place).slack := by
    simp only [Scale.defect] at small
    push_cast
    omega
  rw [Scale.reach, Nat.le_div_iff_mul_le ten]
  omega

/-- A short decimal next to a midpoint at the side of an odd number: it is not the shortest decimal
of that number, except for one of the numbers. -/
theorem eq_of_near {field : ℕ} (lt : field < 254) (eq : place = field - 149)
    (bits : half < 2 ^ 25) (apart : (multiple * 10 ^ grid place : ℚ) ≠ half * 2 ^ (place - 1))
    (near : |(multiple * 10 ^ grid place - half * 2 ^ (place - 1) : ℚ)| ≤ 2 ^ (place - 30))
    {significand digits : ℕ} {power : ℤ} (odd : significand % 2 = 1)
    (beside : half + 1 = 2 * significand ∨ half = 2 * significand + 1)
    (shortest : Shortest.decimal single significand place = (digits, power))
    (same : multiple = digits * 10 ^ (power - grid place).toNat) :
    place = -107 ∧ significand = 0xae43fd := by
  have slack : 0 < (scale place).slack := by simp only [scale]; positivity
  have two : 0 < (scale place).two := by simp only [scale]; positivity
  have small := natAbs_defect_le near
  have within : (⟨multiple, half⟩ : Pair).multiple.natAbs ≤ (scale place).reach :=
    le_reach bits small
  have clear := isClear_of_near (eq ▸ allClear_of_lt field lt) two small within
  have neighbour : oddNeighbour half = significand := by
    rw [oddNeighbour]
    split <;> omega
  have ne : (scale place).defect ⟨multiple, half⟩ ≠ 0 := by
    intro zero
    have distance := defect_scale place multiple half
    rw [zero, Int.cast_zero, zero_mul, mul_eq_zero, sub_eq_zero] at distance
    exact apart (distance.resolve_right (by exact_mod_cast slack.ne'))
  have shown : isShortest place ⟨multiple, half⟩ = true := by
    simp [isShortest, neighbour, shortest, same]
  have halfOdd : (half : ℤ) % 2 ≠ 0 := by omega
  simpa [isClear, ne, shown, neighbour, not_lt.2 small, halfOdd] using clear

end Distance

end ArcGraph.NearMiss
