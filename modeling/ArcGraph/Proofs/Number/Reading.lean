import ArcGraph.Proofs.Number.Negation
import ArcGraph.Proofs.Number.Numeral

/-!
Written numbers as numbers of 32 bits.

A numeral is read as the number next to it, and as infinity from half way past
the largest finite number on. At most half of the smallest positive number is
read as zero.
-/

namespace ArcGraph

namespace Binary

open Float.Model.UnpackedFloat
open Float.Model.Format (binary32)

def signOf (negative : Bool) : Sign :=
  if negative then .negative else .positive

theorem ofBitVec_eq_signOf {negative : Bool} {bit : BitVec 1}
    (set : bit.toNat = 1 ↔ negative = true) : Sign.ofBitVec bit = signOf negative := by
  rcases BitVec.eq_zero_or_eq_one bit with rfl | rfl
  · cases negative with
    | false => rfl
    | true => cases set.mpr rfl
  · obtain rfl : negative = true := set.mp rfl
    rfl

/-- A pattern with a sign is unpacked as what it stands for. -/
theorem unpack_withSign {negative : Bool} {bits : ℕ} {word : BitVec 32}
    (eq : word.toNat = single.withSign negative bits) (le : bits ≤ single.infinityBits) :
    unpack binary32 word = signed (signOf negative) bits := by
  obtain ⟨fraction, field, negative_iff⟩ :=
    Format.fields_withSign negative (le.trans_lt Format.infinityBits_lt_signBit)
  have bit : (@unpackSign binary32 word).toNat = 1 ↔ negative = true := by
    rw [← negative_iff, ← eq]
    exact iff_of_eq (congrArg (· = 1) (@toNat_unpackSign binary32 word))
  have exponent : (@unpackExponent binary32 word).toNat = bits / 8388608 :=
    (@toNat_unpackExponent binary32 word).trans (eq ▸ field)
  have mantissa : (@unpackMantissa binary32 word).toNat = bits % 8388608 :=
    (@toNat_unpackMantissa binary32 word).trans (eq ▸ fraction)
  rw [infinityBits_single] at le
  rw [unpack_eq_ofFields, ofBitVec_eq_signOf bit, exponent, mantissa, ofFields, signed,
    infinityBits_single]
  split
  case isTrue top =>
    -- the pattern goes no further than infinity, so nothing is left for the fraction
    rw [if_pos (by omega), if_neg (by omega)]
  case isFalse below =>
    have joined : bits / 8388608 * 8388608 + bits % 8388608 = bits := by omega
    rw [joined, if_pos (by omega)]

theorem has_ofBits (negative : Bool) {bits : ℕ} (le : bits ≤ single.infinityBits) :
    Has (.ofBits (.ofNat (single.withSign negative bits))) (signOf negative) bits := by
  have small := Format.withSign_lt negative (le.trans_lt Format.infinityBits_lt_signBit)
  generalize eq : single.withSign negative bits = pattern at small
  have number : unpack binary32 (UInt32.ofNat pattern).toBitVec = signed (signOf negative) bits :=
    unpack_withSign ((UInt32.toNat_ofNat_of_lt' small).trans eq.symm) le
  have valid : binary32.Valid (UInt32.ofNat pattern).toBitVec := by
    refine ⟨fun full some => ?_⟩
    have nan := isNaN_signed (signOf negative) bits
    rw [← number] at nan
    unfold unpack at nan
    rw [if_pos full, if_neg some] at nan
    cases nan
  have kept : Float32.ofBits (.ofNat pattern) = .ofModel ⟨.ofNat pattern, valid⟩ :=
    ofBits_toBits_single (.ofModel ⟨.ofNat pattern, valid⟩)
  rw [kept]
  exact number

theorem signed_min (sign : Sign) (bits : ℕ) :
    signed sign (min bits single.infinityBits) = signed sign bits := by
  rcases lt_or_ge bits single.infinityBits with finite | infinite
  · rw [min_eq_left finite.le]
  · rw [min_eq_right infinite, (signed_of_le sign le_rfl).1, (signed_of_le sign infinite).1]

theorem midpoint_zero : single.midpoint 0 = 2 ^ (-150 : ℤ) := by
  have place : single.lastPlace 0 = -149 := rfl
  rw [Format.midpoint, single.value_succ, single.value_zero, place]
  norm_num

theorem midpoint_greatest : single.midpoint (single.infinityBits - 1) = 2 ^ 128 - 2 ^ 103 := by
  have next : single.infinityBits - 1 + 1 = single.infinityBits := rfl
  have place : single.lastPlace (single.infinityBits - 1) = 104 := rfl
  have step := single.value_succ (single.infinityBits - 1)
  rw [next, place, value_infinityBits] at step
  rw [Format.midpoint, next, value_infinityBits, ← sub_eq_iff_eq_add.mpr step]
  norm_num

theorem zero_lt_iff_of_has {x : Float32} {sign : Sign} {bits : ℕ} (has : Has x sign bits) :
    0 < x ↔ sign = .positive ∧ 0 < bits := by
  have order : 0 < x ↔ level .positive 0 < level sign bits := lt_iff_level has_zero has
  have some : 0 < single.infinityBits := by decide
  rw [order]
  cases sign with
  | negative =>
      simp only [level, Sign.apply, reduceCtorEq, false_and, iff_false]
      omega
  | positive =>
      simp only [level, Sign.apply, true_and]
      omega

section Nearest

variable {bits : ℕ} {size : ℚ}

theorem pos_iff_of_isNearest (nearest : single.IsNearest bits size) :
    0 < bits ↔ 2 ^ (-150 : ℤ) < size := by
  rw [← midpoint_zero]
  exact nearest.lt_iff_of_even (Nat.zero_mod 2)

theorem infinityBits_le_iff_of_isNearest (nearest : single.IsNearest bits size) :
    single.infinityBits ≤ bits ↔ 2 ^ 128 - 2 ^ 103 ≤ size := by
  have odd : (single.infinityBits - 1) % 2 = 1 := rfl
  have some : 0 < single.infinityBits := by decide
  rw [← midpoint_greatest, ← nearest.lt_iff_of_odd odd]
  omega

end Nearest

end Binary

open Binary Binary.Format

namespace Numeral

variable (numeral : Numeral)

variable {numeral} in
theorem le_ratio_of_farExponent_lt (some : numeral.digits ≠ 0)
    (large : farExponent < numeral.exponent) : 2 ^ 128 ≤ numeral.ratio := by
  have one : (1 : ℚ) ≤ numeral.digits := by exact_mod_cast Nat.one_le_iff_ne_zero.mpr some
  have enough : 39 ≤ numeral.exponent := le_trans (by decide) large.le
  calc (2 : ℚ) ^ 128
      ≤ 10 ^ (39 : ℤ) := by norm_num
    _ ≤ 10 ^ numeral.exponent := zpow_le_zpow_right₀ (by norm_num) enough
    _ ≤ numeral.digits * 10 ^ numeral.exponent := le_mul_of_one_le_left (by positivity) one

variable {numeral} in
theorem ratio_le_of_lt_neg_farExponent
    (small : numeral.exponent + Nat.log2 numeral.digits + 1 < -farExponent) :
    numeral.ratio ≤ 2 ^ (-150 : ℤ) := by
  have digits : (numeral.digits : ℚ) ≤ 10 ^ ((Nat.log2 numeral.digits : ℤ) + 1) := by
    have binary : numeral.digits ≤ 10 ^ (Nat.log2 numeral.digits + 1) :=
      Nat.lt_log2_self.le.trans (Nat.pow_le_pow_left (by norm_num) _)
    exact_mod_cast binary
  have enough : numeral.exponent + Nat.log2 numeral.digits + 1 ≤ -46 := small.le.trans (by decide)
  calc numeral.digits * (10 : ℚ) ^ numeral.exponent
      ≤ 10 ^ ((Nat.log2 numeral.digits : ℤ) + 1) * 10 ^ numeral.exponent := by gcongr
    _ = 10 ^ (numeral.exponent + Nat.log2 numeral.digits + 1) := by
        rw [← zpow_add₀ (by norm_num)]
        congr 1
        ring
    _ ≤ 10 ^ (-46 : ℤ) := zpow_le_zpow_right₀ (by norm_num) enough
    _ ≤ 2 ^ (-150 : ℤ) := by norm_num

/-- Numerals far out are rounded like all others. -/
theorem exists_isNearest_single : ∃ bits, single.IsNearest bits numeral.ratio ∧
    numeral.magnitude single = min bits single.infinityBits := by
  obtain ⟨bits, nearest, eq⟩ :=
    numeral.exists_isNearest_ratio (show 0 < single.fractionBits by decide)
  refine ⟨bits, nearest, ?_⟩
  rw [magnitude]
  split
  case isTrue zero => simp [← eq, zero, roundMagnitude]
  case isFalse some =>
    -- far out the reader looks at the exponent only, which has to agree with the nearest pattern
    split
    case isTrue large =>
      have least := nearest.le_value
        (value_infinityBits.trans_le (le_ratio_of_farExponent_lt some large))
      exact (min_eq_right (single.value_strictMono.le_iff_le.mp least)).symm
    case isFalse =>
      split
      case isTrue small =>
        have most := ratio_le_of_lt_neg_farExponent small
        rw [← midpoint_zero] at most
        have none : ¬0 < bits := fun passed =>
          ((nearest.lt_iff_of_even (Nat.zero_mod 2)).mp passed).not_ge most
        rw [Nat.eq_zero_of_not_pos none, Nat.zero_min]
      case isFalse => rw [← eq, Nat.pow_eq, Nat.pow_eq]

theorem exists_has_toSingle :
    ∃ bits, single.IsNearest bits numeral.ratio ∧
      Has numeral.toSingle (signOf numeral.negative) bits := by
  obtain ⟨bits, nearest, eq⟩ := numeral.exists_isNearest_single
  refine ⟨bits, nearest, ?_⟩
  rw [toSingle, encode, eq, Has, ← signed_min]
  exact has_ofBits numeral.negative (min_le_right bits single.infinityBits)

end Numeral

namespace WrittenNumber

/-- The number of 32 bits is what the written number is read as: of all signed patterns, that of a
numeral is nearest to it, and the patterns past the finite ones are infinite. -/
def IsReadAs (x : Float32) : WrittenNumber → Prop
  | nan => x.isNaN = true
  | infinite negative => Has x (signOf negative) single.infinityBits
  | decimal numeral =>
      ∃ bits, single.IsNearest bits numeral.ratio ∧ Has x (signOf numeral.negative) bits

/-- The number is not read as zero or less. -/
def IsPositive : WrittenNumber → Prop
  | nan => False
  | infinite negative => negative = false
  | decimal numeral => numeral.negative = false ∧ 2 ^ (-150 : ℤ) < numeral.ratio

/-- The number is read as an infinite one. -/
def IsBoundless : WrittenNumber → Prop
  | nan => False
  | infinite _ => True
  | decimal numeral => 2 ^ 128 - 2 ^ 103 ≤ numeral.ratio

variable {number : WrittenNumber} {x y : Float32}

theorem IsReadAs.unique (first : number.IsReadAs x) (second : number.IsReadAs y) : x = y := by
  cases number with
  | nan => rw [eq_toSingle_nan first, eq_toSingle_nan second]
  | infinite negative => exact eq_of_unpack_eq (Eq.trans first (Eq.symm second))
  | decimal numeral =>
      obtain ⟨bits, nearest, has⟩ := first
      obtain ⟨bits', nearest', has'⟩ := second
      obtain rfl := nearest.unique nearest'
      exact eq_of_unpack_eq (Eq.trans has (Eq.symm has'))

theorem isReadAs_toSingle (number : WrittenNumber) : number.IsReadAs number.toSingle := by
  cases number with
  | nan => rfl
  | infinite negative => exact has_ofBits negative le_rfl
  | decimal numeral => exact numeral.exists_has_toSingle

theorem toSingle_eq_iff : number.toSingle = x ↔ number.IsReadAs x := by
  constructor
  · rintro rfl
    exact number.isReadAs_toSingle
  · exact number.isReadAs_toSingle.unique

theorem IsReadAs.zero_lt_iff (read : number.IsReadAs x) : 0 < x ↔ number.IsPositive := by
  cases number with
  | nan =>
      refine iff_of_false (fun positive => ?_) not_false
      have nan : x.isNaN = true := read
      rw [(not_isNaN_of_lt positive).2] at nan
      cases nan
  | infinite negative =>
      rw [zero_lt_iff_of_has read, IsPositive]
      cases negative <;> simp [signOf, infinityBits_single]
  | decimal numeral =>
      obtain ⟨bits, nearest, has⟩ := read
      rw [zero_lt_iff_of_has has, pos_iff_of_isNearest nearest, IsPositive]
      cases numeral.negative <;> simp [signOf]

/-- A number that is read as one at all is finite but for the boundless ones. -/
theorem IsReadAs.isFinite_eq_false_iff (read : number.IsReadAs x) (some : number ≠ nan) :
    x.isFinite = false ↔ number.IsBoundless := by
  rw [← Bool.not_eq_true]
  cases number with
  | nan => contradiction
  | infinite negative =>
      rw [isFinite_iff_of_has read]
      exact iff_of_true (lt_irrefl _) trivial
  | decimal numeral =>
      obtain ⟨bits, nearest, has⟩ := read
      rw [isFinite_iff_of_has has, not_lt]
      exact infinityBits_le_iff_of_isNearest nearest

example : (decimal ⟨false, 2 ^ 128 - 2 ^ 103 - 1, 0⟩).toSingle.isFinite = true ∧
    (decimal ⟨false, 2 ^ 128 - 2 ^ 103, 0⟩).toSingle.isFinite = false := by
  decide +kernel

end WrittenNumber

end ArcGraph
