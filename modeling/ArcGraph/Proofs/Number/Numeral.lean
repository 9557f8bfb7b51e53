import ArcGraph.Datum.Basic
import ArcGraph.Proofs.Number.Detour
import ArcGraph.Proofs.Number.Pattern
import ArcGraph.Proofs.Number.Signed

/-!
Numerals as numbers of 32 bits.

A numeral is read as a number of 64 bits first and is narrowed then. What this
gives for the shortest decimal of a number is that number, but for one magnitude.
-/

namespace ArcGraph

open Binary Binary.Format

namespace Numeral

def ratio (numeral : Numeral) : ℚ :=
  numeral.digits * 10 ^ numeral.exponent

variable {numeral : Numeral}

theorem exists_isNearest_ratio (numeral : Numeral) {format : Format}
    (fine : 0 < format.fractionBits) :
    ∃ bits, format.IsNearest bits numeral.ratio ∧
      format.roundMagnitude (numeral.digits * 10 ^ numeral.exponent.toNat)
        (10 ^ (-numeral.exponent).toNat) = min bits format.infinityBits := by
  have denominator : 10 ^ (-numeral.exponent).toNat ≠ 0 := by positivity
  rw [ratio, zpow_eq_div, ← mul_div_assoc]
  simpa using exists_isNearest_roundMagnitude fine
    (numeral.digits * 10 ^ numeral.exponent.toNat) denominator

/-- A numeral whose exponent is not far out is rounded to its nearest pattern. -/
theorem exists_isNearest_magnitude {format : Format} (fine : 0 < format.fractionBits)
    (least : -farExponent ≤ numeral.exponent) (most : numeral.exponent ≤ farExponent) :
    ∃ bits, format.IsNearest bits numeral.ratio ∧
      numeral.magnitude format = min bits format.infinityBits := by
  obtain ⟨bits, nearest, eq⟩ := numeral.exists_isNearest_ratio fine
  refine ⟨bits, nearest, ?_⟩
  rw [magnitude, ← eq]
  split
  case isTrue zero => simp [zero, roundMagnitude]
  case isFalse => rw [if_neg (by omega), if_neg (by omega), Nat.pow_eq, Nat.pow_eq]

/-- The numbers of 64 bits go far beyond those of 32 bits. -/
theorem lt_infinityBits_of_isNearest {bits : ℕ} {ratio : ℚ} (nearest : double.IsNearest bits ratio)
    (le : ratio ≤ 2 ^ 128) : bits < double.infinityBits := by
  have power : double.value 0x47f0000000000000 = 2 ^ 128 := by
    have significand : double.significand 0x47f0000000000000 = 2 ^ 52 := by decide
    have place : double.lastPlace 0x47f0000000000000 = 76 := by decide
    rw [value, significand, place]
    norm_num
  have below := double.value_strictMono.le_iff_le.1 (nearest.value_le (le.trans_eq power.symm))
  exact below.trans_lt (by decide)

theorem midpoint_le_of_lt {bits : ℕ} (finite : bits < single.infinityBits) :
    single.midpoint bits ≤ 2 ^ 128 := by
  rw [← value_infinityBits]
  exact (single.midpoint_lt_value_succ bits).le.trans (single.value_strictMono.monotone finite)

/-- A numeral is read as the number that its 64-bit value is next to. -/
theorem narrow_double? {bits : ℕ} (least : -farExponent ≤ numeral.exponent)
    (most : numeral.exponent ≤ farExponent) (bounded : numeral.ratio ≤ 2 ^ 128)
    (le : bits ≤ single.infinityBits)
    (narrowed : ∀ {bits'}, double.IsNearest bits' numeral.ratio →
      single.IsNearest bits (double.value bits')) :
    (WrittenNumber.decimal numeral).double?.map narrow =
      some (.ofBits (.ofNat (single.withSign numeral.negative bits))) := by
  obtain ⟨bits', nearest, eq⟩ :=
    exists_isNearest_magnitude (show 0 < double.fractionBits by decide) least most
  have finite := lt_infinityBits_of_isNearest nearest bounded
  rw [min_eq_left finite.le] at eq
  have decoded := decode_withSign numeral.negative finite
  have wide := withSign_lt numeral.negative (finite.trans infinityBits_lt_signBit)
  have number : double.decode (double.withSign numeral.negative bits') ≠ .nan := by
    rw [decoded]
    simp
  have value : ofDouble numeral.toDouble = .finite numeral.negative (double.significand bits')
      (double.lastPlace bits') := by
    rw [toDouble, encode, eq, ofDouble_ofBits wide number, decoded]
  have inRange : numeral.overflows double = false := by
    rw [overflows, eq]
    exact decide_eq_false finite.ne
  have narrow_eq : narrow numeral.toDouble =
      .ofBits (.ofNat (single.withSign numeral.negative bits)) := by
    rw [narrow, value, Binary.toSingle, encode_finite (by decide) _ (narrowed nearest) le]
  simp [WrittenNumber.double?, inRange, narrow_eq]

end Numeral

/-- The two numbers that do not come back from their shortest decimals. -/
def IsStray (x : Float32) : Prop :=
  x.toBits = 0x15ae43fd ∨ x.toBits = 0x95ae43fd

instance (x : Float32) : Decidable (IsStray x) :=
  inferInstanceAs (Decidable (_ ∨ _))

/-- What a number is after it has been written and read. -/
def reread (x : Float32) : Float32 :=
  if IsStray x then .ofBits (x.toBits + 1) else x

theorem reread_eq_self_iff {x : Float32} : reread x = x ↔ ¬ IsStray x := by
  rw [reread]
  split
  case isTrue stray =>
    refine iff_of_false (fun same => ?_) (not_not_intro stray)
    have bits := congrArg Float32.toBits same
    rcases stray with eq | eq <;> rw [eq] at bits <;> revert bits <;> decide +kernel
  case isFalse ordinary => simp [ordinary]

theorem reread_beq_iff {x : Float32} (number : x.isNaN = false) :
    (reread x == x) = true ↔ ¬ IsStray x := by
  constructor
  · rintro same (eq | eq)
    all_goals
      rw [← ofBits_toBits_single x, eq] at same
      revert same
      decide +kernel
  · intro ordinary
    rw [reread_eq_self_iff.2 ordinary, beq_self_of_isNaN_eq_false number]

theorem ofBits_recovered {x : Float32} {negative : Bool} {bits : ℕ}
    (finite : bits < single.infinityBits) (eq : x.toBits = .ofNat (single.withSign negative bits)) :
    Float32.ofBits (.ofNat (single.withSign negative (recovered bits))) = reread x := by
  have small := withSign_lt negative (finite.trans infinityBits_lt_signBit)
  have toNat : x.toBits.toNat = single.withSign negative bits := by
    rw [eq]
    exact UInt32.toNat_ofNat_of_lt' small
  have stray : IsStray x ↔ bits = strayBits := by
    have sign : single.signBit = 2 ^ 31 := rfl
    have infinity : single.infinityBits = 0x7f800000 := rfl
    rw [IsStray, ← UInt32.toNat_inj, ← UInt32.toNat_inj, toNat, withSign, strayBits, sign]
    rw [infinity] at finite
    have plus : (0x15ae43fd : UInt32).toNat = 0x15ae43fd := rfl
    have minus : (0x95ae43fd : UInt32).toNat = 2 ^ 31 + 0x15ae43fd := rfl
    cases negative <;> simp only [plus, minus, Bool.false_eq_true, if_true, if_false] <;> omega
  rw [reread, recovered]
  split
  case isTrue magnitude =>
    rw [if_pos (stray.2 magnitude), eq, magnitude]
    cases negative <;> rfl
  case isFalse ordinary =>
    rw [if_neg (mt stray.1 ordinary), ← eq, ofBits_toBits_single]

end ArcGraph
