import ArcGraph.Proofs.Number.NearMiss
import ArcGraph.Proofs.Number.Shortest

/-!
The shortest decimal of a number of 32 bits, read by way of 64 bits.

A decimal that is rounded twice can go astray only where the first rounding ends
on a midpoint of the second. For shortest decimals this happens with a single
number.
-/

namespace ArcGraph.Binary

namespace Format

variable {format : Format}

/-- A multiple of a place is a value unless it has too many digits. -/
theorem exists_value {significand : ℕ} {exponent : ℤ}
    (lt : significand < 2 ^ (format.fractionBits + 1)) (le : format.leastExponent ≤ exponent) :
    ∃ bits, format.value bits = significand * 2 ^ exponent := by
  obtain ⟨field, rfl⟩ : ∃ field : ℕ, exponent = format.leastExponent + field :=
    ⟨(exponent - format.leastExponent).toNat, by omega⟩
  induction field generalizing significand with
  | zero => exact ⟨_, format.value_field_add lt.le (.inl rfl)⟩
  | succ field inductionHypothesis =>
      rcases le_or_gt (2 ^ format.fractionBits) significand with normal | short
      · exact ⟨_, format.value_field_add lt.le (.inr normal)⟩
      · -- too few digits for this field: the same multiple of the place before has one more
        have doubled : 2 * significand < 2 ^ (format.fractionBits + 1) := by
          rw [pow_succ]
          omega
        obtain ⟨bits, eq⟩ := inductionHypothesis doubled (by omega)
        refine ⟨bits, ?_⟩
        rw [eq]
        push_cast
        rw [← add_assoc, zpow_add_one₀ two_ne_zero]
        ring

variable {bits : ℕ} {ratio distance : ℚ}

/-- A ratio is at most half as far from its nearest value as the values around that one are. -/
theorem IsNearest.abs_sub_le (nearest : format.IsNearest bits ratio)
    (up : ∃ other, format.value other = format.value bits + distance)
    (down : ∃ other, format.value other = format.value bits - distance) (positive : 0 < distance) :
    |ratio - format.value bits| ≤ distance / 2 := by
  obtain ⟨next, up⟩ := up
  obtain ⟨previous, down⟩ := down
  have after : bits < next := format.value_strictMono.lt_iff_lt.1 (by rw [up]; linarith)
  have before : previous < bits := format.value_strictMono.lt_iff_lt.1 (by rw [down]; linarith)
  obtain ⟨lower, rfl⟩ := Nat.exists_eq_succ_of_ne_zero (Nat.ne_zero_of_lt before)
  have step := format.value_strictMono.monotone (Nat.succ_le_of_lt after)
  have step' := format.value_strictMono.monotone (Nat.le_of_lt_succ before)
  have above := nearest.le_midpoint
  have below := nearest.midpoint_le (Nat.lt_succ_self lower)
  simp only [midpoint, Nat.succ_eq_add_one] at *
  rw [abs_le]
  constructor <;> linarith

theorem midpoint_eq_mul (bits : ℕ) :
    format.midpoint bits =
      (2 * format.significand bits + 1 : ℕ) * 2 ^ (format.lastPlace bits - 1) := by
  rw [midpoint_eq_add, value, zpow_sub_one₀ two_ne_zero]
  push_cast
  ring

/-- The midpoint below an odd number is as far away as the one above it. -/
theorem midpoint_eq_mul_of_odd (fine : 0 < format.fractionBits) {lower : ℕ}
    (odd : (lower + 1) % 2 = 1) :
    format.midpoint lower =
      (2 * format.significand (lower + 1) - 1 : ℕ) * 2 ^ (format.lastPlace (lower + 1) - 1) := by
  have positive : 0 < format.significand (lower + 1) :=
    Shortest.significand_pos (Nat.succ_ne_zero lower)
  have whole : format.significand (lower + 1) ≠ 2 ^ format.fractionBits := by
    have := Shortest.significand_mod_two fine (lower + 1)
    obtain ⟨more, eq⟩ := Nat.exists_eq_succ_of_ne_zero fine.ne'
    rw [eq, Nat.pow_succ]
    omega
  rw [midpoint_eq_sub, value, lastPlace_of_succ lower, if_neg (whole ·.1),
    zpow_sub_one₀ two_ne_zero, Nat.cast_sub (by omega)]
  push_cast
  ring

end Format

open Format

/-- A ratio that 64 bits round to a midpoint of 32 bits is very near to it. -/
theorem abs_sub_midpoint_le {half bits : ℕ} {place : ℤ} {ratio : ℚ} (positive : 0 < half)
    (lt : half < 2 ^ 25) (le : -149 ≤ place) (nearest : double.IsNearest bits ratio)
    (eq : double.value bits = half * 2 ^ (place - 1)) :
    |ratio - half * 2 ^ (place - 1)| ≤ 2 ^ (place - 30) := by
  have finer : (2 : ℚ) ^ (place - 1) = 2 ^ 28 * 2 ^ (place - 29) := by
    rw [← zpow_natCast, ← zpow_add₀ two_ne_zero]
    congr 1
    push_cast
    ring
  have fraction : double.fractionBits = 52 := rfl
  have least : double.leastExponent ≤ place - 29 := by
    have : double.leastExponent = -1074 := rfl
    omega
  have up : ∃ up, double.value up = double.value bits + 2 ^ (place - 29) := by
    have small : half * 2 ^ 28 + 1 < 2 ^ (double.fractionBits + 1) := by
      rw [fraction]
      omega
    obtain ⟨up, value⟩ := exists_value small least
    refine ⟨up, ?_⟩
    rw [value, eq, finer]
    push_cast
    ring
  have down : ∃ down, double.value down = double.value bits - 2 ^ (place - 29) := by
    have small : half * 2 ^ 28 - 1 < 2 ^ (double.fractionBits + 1) := by
      rw [fraction]
      omega
    obtain ⟨down, value⟩ := exists_value small least
    refine ⟨down, ?_⟩
    rw [value, eq, finer, Nat.cast_sub (by omega)]
    push_cast
    ring
  have close := nearest.abs_sub_le up down (by positivity)
  rw [eq] at close
  refine close.trans_eq ?_
  rw [show place - 29 = place - 30 + 1 by ring, zpow_add_one₀ two_ne_zero]
  ring

/-- The one magnitude whose shortest decimal goes astray. -/
def strayBits : ℕ := 0x15ae43fd

theorem exists_lastPlace_single {bits : ℕ} (finite : bits < single.infinityBits) :
    ∃ field : ℕ, field < 254 ∧ single.lastPlace bits = field - 149 ∧
      bits = field * 2 ^ 23 + single.significand bits := by
  refine ⟨bits / 2 ^ 23 - 1, ?_, ?_, single.eq_field_add_significand bits⟩
  · simp only [single, infinityBits, topField, Nat.pow_eq] at finite
    omega
  · have : single.leastExponent = -149 := rfl
    rw [lastPlace, this, add_comm]
    rfl

/-- The first rounding does not pass a midpoint. -/
theorem exists_value_eq_midpoint {bits : ℕ} (finite : bits < single.infinityBits) :
    ∃ wide, double.value wide = single.midpoint bits := by
  obtain ⟨field, -, place, -⟩ := exists_lastPlace_single finite
  have small := single.significand_lt bits
  have fraction : single.fractionBits = 23 := rfl
  have fraction' : double.fractionBits = 52 := rfl
  have least : double.leastExponent = -1074 := rfl
  rw [fraction] at small
  rw [midpoint_eq_mul]
  exact exists_value (by rw [fraction']; omega) (by omega)

theorem value_ne_midpoint {field significand half bits digits : ℕ} {place power : ℤ}
    (lt : field < 254) (eq : place = field - 149) (odd : significand % 2 = 1)
    (small : half < 2 ^ 25) (beside : half + 1 = 2 * significand ∨ half = 2 * significand + 1)
    (shortest : Shortest.decimal single significand place = (digits, power))
    (coarse : NearMiss.grid place ≤ power)
    (apart : (digits * 10 ^ power : ℚ) ≠ half * 2 ^ (place - 1))
    (nearest : double.IsNearest bits (digits * 10 ^ power))
    (ordinary : ¬ (place = -107 ∧ significand = 0xae43fd)) :
    double.value bits ≠ half * 2 ^ (place - 1) := by
  intro tie
  have onGrid : (digits * 10 ^ power : ℚ) =
      (digits * 10 ^ (power - NearMiss.grid place).toNat : ℕ) * 10 ^ NearMiss.grid place := by
    push_cast
    rw [mul_assoc, ← zpow_natCast, ← zpow_add₀ (by norm_num)]
    congr 2
    omega
  have near := abs_sub_midpoint_le (by omega) small (by omega) nearest tie
  rw [onGrid] at apart near
  exact ordinary (NearMiss.eq_of_near lt eq small apart near odd beside shortest rfl)

/-- The shortest decimal of a number of 32 bits is found, on a grid that is not too fine. -/
theorem spec_of_shortest {lower digits : ℕ} {power : ℤ} (finite : lower + 1 < single.infinityBits)
    (shortest : Shortest.decimal single (single.significand (lower + 1))
      (single.lastPlace (lower + 1)) = (digits, power)) :
    NearMiss.grid (single.lastPlace lower) ≤ power ∧
      single.IsNearest (lower + 1) (digits * 10 ^ power) := by
  obtain ⟨field, lt, place, -⟩ := exists_lastPlace_single ((Nat.lt_succ_self lower).trans finite)
  have top : (Shortest.topExponent single : ℤ) = 42 := rfl
  have fraction : single.fractionBits = 23 := rfl
  refine Shortest.decimal_spec (by decide) ?_ ?_ ?_ shortest
  · rw [place]
    exact NearMiss.grid_lt field lt
  · rw [top, NearMiss.grid]
    omega
  · rw [top, fraction, NearMiss.grid]
    omega

/-- The shortest decimal of an odd number is not rounded to one of the midpoints around it. -/
theorem value_ne_midpoint_of_odd {lower bits digits : ℕ} {power : ℤ}
    (finite : lower + 1 < single.infinityBits) (odd : (lower + 1) % 2 = 1)
    (ordinary : lower + 1 ≠ strayBits)
    (shortest : Shortest.decimal single (single.significand (lower + 1))
      (single.lastPlace (lower + 1)) = (digits, power))
    (nearest : double.IsNearest bits (digits * 10 ^ power)) :
    double.value bits ≠ single.midpoint lower ∧
      double.value bits ≠ single.midpoint (lower + 1) := by
  have fine : 0 < single.fractionBits := by decide
  have fraction : single.fractionBits = 23 := rfl
  have notEven : ¬ ((lower + 1) % 2 = 0) := by omega
  obtain ⟨field, lt, place, whole⟩ := exists_lastPlace_single finite
  obtain ⟨coarse, near⟩ := spec_of_shortest finite shortest
  have small := single.significand_lt (lower + 1)
  have significandOdd := Shortest.significand_mod_two fine (lower + 1)
  rw [fraction] at small
  rw [odd] at significandOdd
  have samePlace : single.lastPlace lower = single.lastPlace (lower + 1) := by
    rw [lastPlace_of_succ lower, if_neg]
    rw [fraction]
    omega
  have ordinary' : ¬ (single.lastPlace (lower + 1) = -107 ∧
      single.significand (lower + 1) = 0xae43fd) := by
    rintro ⟨exponent, digits⟩
    rw [digits, show field = 42 by omega] at whole
    exact ordinary whole
  rw [samePlace] at coarse
  constructor
  · rw [midpoint_eq_mul_of_odd fine odd]
    refine value_ne_midpoint lt place significandOdd (by omega) (.inl (by omega)) shortest coarse
      ?_ nearest ordinary'
    rw [← midpoint_eq_mul_of_odd fine odd]
    exact ((near.below rfl).resolve_right fun tie => notEven tie.2).ne'
  · rw [midpoint_eq_mul]
    refine value_ne_midpoint lt place significandOdd (by omega) (.inr rfl) shortest coarse
      ?_ nearest ordinary'
    rw [← midpoint_eq_mul]
    exact (near.above.resolve_right fun tie => notEven tie.2).ne

/-- The shortest decimal of a number rounds to it again, also if it is rounded to 64 bits first. -/
theorem isNearest_of_shortest {bits bits' digits : ℕ} {power : ℤ} (ne : bits ≠ 0)
    (finite : bits < single.infinityBits)
    (shortest : Shortest.decimal single (single.significand bits) (single.lastPlace bits) =
      (digits, power))
    (nearest : double.IsNearest bits' (digits * 10 ^ power)) (ordinary : bits ≠ strayBits) :
    single.IsNearest bits (double.value bits') := by
  obtain ⟨lower, rfl⟩ := Nat.exists_eq_succ_of_ne_zero ne
  rw [Nat.succ_eq_add_one] at *
  obtain ⟨-, near⟩ := spec_of_shortest finite shortest
  obtain ⟨up, upEq⟩ := exists_value_eq_midpoint finite
  obtain ⟨down, downEq⟩ := exists_value_eq_midpoint ((Nat.lt_succ_self lower).trans finite)
  -- both midpoints are values of 64 bits, so the first rounding stays between them
  have le := nearest.value_le (near.le_midpoint.trans_eq upEq.symm)
  have ge := nearest.le_value (downEq.trans_le (near.midpoint_le (Nat.lt_succ_self lower)))
  rw [upEq] at le
  rw [downEq] at ge
  by_cases even : (lower + 1) % 2 = 0
  · refine ⟨(lt_or_eq_of_le le).imp_right fun tie => ⟨tie, even⟩, ?_⟩
    rintro _ ⟨⟩
    exact (lt_or_eq_of_le ge).imp_right fun tie => ⟨tie, even⟩
  · obtain ⟨notBelow, notAbove⟩ :=
      value_ne_midpoint_of_odd finite (by omega) ordinary shortest nearest
    exact isNearest_of_between (lt_of_le_of_ne ge notBelow.symm) (lt_of_le_of_ne le notAbove)

/-- What comes back for a magnitude. -/
def recovered (bits : ℕ) : ℕ :=
  if bits = strayBits then strayBits + 1 else bits

theorem recovered_le {bits : ℕ} (finite : bits < single.infinityBits) :
    recovered bits ≤ single.infinityBits := by
  rw [recovered]
  split
  case isTrue => decide
  case isFalse => exact finite.le

theorem decimal_strayBits :
    Shortest.decimal single (single.significand strayBits) (single.lastPlace strayBits) =
      (7038531, -32) := by
  decide +kernel

/-- The shortest decimal of this number is nearest to a midpoint among the numbers of 64 bits. -/
theorem isNearest_of_stray {bits : ℕ} (nearest : double.IsNearest bits (7038531 * 10 ^ (-32 : ℤ))) :
    single.IsNearest (strayBits + 1) (double.value bits) := by
  have rounded : double.roundMagnitude 7038531 (10 ^ 32) = 0x3ab5c87fb0000000 := by decide +kernel
  have decimal : (7038531 * 10 ^ (-32 : ℤ) : ℚ) = (7038531 : ℕ) / (10 ^ 32 : ℕ) := by norm_num
  rw [decimal] at nearest
  obtain ⟨bits', nearest', eq⟩ :=
    exists_isNearest_roundMagnitude (show 0 < double.fractionBits by decide) 7038531
      (show 10 ^ 32 ≠ 0 by norm_num)
  rw [nearest.unique nearest']
  rw [rounded] at eq
  have infinite : 0x3ab5c87fb0000000 < double.infinityBits := by decide
  obtain rfl : bits' = 0x3ab5c87fb0000000 := by omega
  have tie : double.value 0x3ab5c87fb0000000 = single.midpoint strayBits := by
    have significand : double.significand 0x3ab5c87fb0000000 = 6131425250115584 := by decide
    have place : double.lastPlace 0x3ab5c87fb0000000 = -136 := by decide
    have significand' : single.significand strayBits = 0xae43fd := by decide
    have place' : single.lastPlace strayBits = -107 := by decide
    rw [midpoint_eq_mul, value, significand, place, significand', place']
    norm_num
  rw [tie]
  refine ⟨.inl (single.midpoint_strictMono (Nat.lt_succ_self strayBits)), ?_⟩
  rintro _ ⟨⟩
  exact .inr ⟨rfl, by decide⟩

theorem isNearest_recovered {bits bits' digits : ℕ} {power : ℤ} (ne : bits ≠ 0)
    (finite : bits < single.infinityBits)
    (shortest : Shortest.decimal single (single.significand bits) (single.lastPlace bits) =
      (digits, power))
    (nearest : double.IsNearest bits' (digits * 10 ^ power)) :
    single.IsNearest (recovered bits) (double.value bits') := by
  rw [recovered]
  split
  case isTrue stray =>
    obtain ⟨rfl, rfl⟩ := Prod.mk.injEq .. ▸ shortest.symm.trans (stray ▸ decimal_strayBits)
    exact isNearest_of_stray (by exact_mod_cast nearest)
  case isFalse ordinary => exact isNearest_of_shortest ne finite shortest nearest ordinary

end ArcGraph.Binary
