import ArcGraph.Proofs.Number.Order
import ArcGraph.Proofs.Number.Pattern

/-!
Numbers of 32 bits as patterns with a sign.

Whatever is no number aside, a number of 32 bits is a sign and a pattern, of
which infinity is the last. The order of the numbers is that of the signed
patterns, in which both zeros are one.
-/

namespace ArcGraph.Binary

open Float.Model (UnpackedFloat)
open Float.Model.UnpackedFloat
open Float.Model.Format (binary32)

/-- The number of a sign, digits and the exponent of the last of them. -/
def ofDigits (sign : Sign) (digits : ℕ) (place : ℤ) : UnpackedFloat :=
  if positive : 0 < digits then .finite sign digits place positive else .zero sign

/-- The number of a sign and a pattern, of any magnitude. -/
def unbounded (sign : Sign) (bits : ℕ) : UnpackedFloat :=
  ofDigits sign (single.significand bits) (single.lastPlace bits)

/-- The number of a sign and a pattern. The patterns past the finite ones are infinite. -/
def signed (sign : Sign) (bits : ℕ) : UnpackedFloat :=
  if bits < single.infinityBits then unbounded sign bits else .infinity sign

theorem infinityBits_single : single.infinityBits = 2139095040 := rfl

theorem value_power (field : ℕ) :
    single.value ((field + 1) * 8388608) = 2 ^ (field - 126 : ℤ) := by
  have split : (field + 1) * 8388608 = field * 2 ^ single.fractionBits + 2 ^ single.fractionBits :=
    Nat.add_one_mul field 8388608
  have value := @Format.value_field_add single field (2 ^ single.fractionBits)
    (Nat.pow_le_pow_right two_pos (Nat.le_succ _)) (.inr le_rfl)
  have place : (field - 126 : ℤ) = (23 : ℕ) + (-149 + field) := by omega
  have scale : (2 : ℚ) ^ ((23 : ℕ) + (-149 + field) : ℤ) = 2 ^ 23 * 2 ^ (-149 + field : ℤ) := by
    rw [zpow_add₀ two_ne_zero, zpow_natCast]
  rw [split, value, place, scale]
  push_cast
  rfl

theorem value_infinityBits : single.value single.infinityBits = 2 ^ 128 := by
  have value := value_power 254
  norm_num at value
  exact value

theorem unbounded_zero (sign : Sign) : unbounded sign 0 = .zero sign := rfl

theorem unbounded_subnormal (sign : Sign) {digits : ℕ} (lt : digits < 8388608) :
    unbounded sign digits = ofDigits sign digits (-149) := by
  have field : digits / 8388608 = 0 := Nat.div_eq_of_lt lt
  have significand : single.significand digits = digits := if_pos field
  have place : single.lastPlace digits = -149 := by
    change (-149 : ℤ) + (digits / 8388608 - 1 : ℕ) = -149
    omega
  rw [unbounded, significand, place]

theorem unbounded_normal (sign : Sign) {field fraction : ℕ} (ne : field ≠ 0)
    (lt : fraction < 8388608) :
    unbounded sign (field * 8388608 + fraction) =
      ofDigits sign (8388608 + fraction) (field - 150) := by
  have quotient : (field * 8388608 + fraction) / 8388608 = field := by omega
  have remainder : (field * 8388608 + fraction) % 8388608 = fraction := by omega
  have significand : single.significand (field * 8388608 + fraction) = 8388608 + fraction := by
    change (if (field * 8388608 + fraction) / 8388608 = 0 then _
      else 8388608 + (field * 8388608 + fraction) % 8388608) = _
    rw [quotient, remainder, if_neg ne]
  have place : single.lastPlace (field * 8388608 + fraction) = field - 150 := by
    change (-149 : ℤ) + ((field * 8388608 + fraction) / 8388608 - 1 : ℕ) = field - 150
    omega
  rw [unbounded, significand, place]

/-! ### Packing -/

/-- The number of the three fields of a pattern. -/
def ofFields (sign : Sign) (field fraction : ℕ) : UnpackedFloat :=
  if field = 255 then if fraction = 0 then .infinity sign else .notANumber
  else unbounded sign (field * 8388608 + fraction)

theorem unpack_eq_ofFields (word : BitVec 32) :
    unpack binary32 word = ofFields (Sign.ofBitVec (@unpackSign binary32 word))
      (@unpackExponent binary32 word).toNat
      (@unpackMantissa binary32 word).toNat := by
  have small : (@unpackMantissa binary32 word).toNat < 8388608 :=
    (@unpackMantissa binary32 word).isLt
  have full : @unpackExponent binary32 word = -BitVec.ofNat _ 1 ↔
      (@unpackExponent binary32 word).toNat = 255 := BitVec.toNat_inj.symm
  have empty : @unpackExponent binary32 word = BitVec.ofNat _ 0 ↔
      (@unpackExponent binary32 word).toNat = 0 := BitVec.toNat_inj.symm
  have zero : @unpackMantissa binary32 word = BitVec.ofNat _ 0 ↔
      (@unpackMantissa binary32 word).toNat = 0 := BitVec.toNat_inj.symm
  unfold unpack ofFields
  dsimp only
  by_cases top : @unpackExponent binary32 word = -BitVec.ofNat _ 1
  · rw [if_pos top, if_pos (full.mp top)]
    exact if_congr zero rfl rfl
  rw [if_neg top, if_neg (mt full.mpr top)]
  by_cases bottom : @unpackExponent binary32 word = BitVec.ofNat _ 0
  · rw [if_pos bottom, empty.mp bottom, zero_mul, zero_add]
    by_cases none : @unpackMantissa binary32 word = BitVec.ofNat _ 0
    · rw [dif_pos none, zero.mp none, unbounded_zero]
    · rw [dif_neg none, unbounded_subnormal _ small]
      exact (dif_pos (Nat.pos_of_ne_zero (mt zero.mpr none))).symm
  · rw [if_neg bottom, unbounded_normal _ (mt empty.mpr bottom) small, ofDigits,
      dif_pos (Nat.add_pos_left (by decide) _)]
    exact (UnpackedFloat.finite.injEq ..).mpr ⟨rfl, toNat_one_append _, rfl⟩

theorem unpackSign_packComponents (sign : Sign) (field : BitVec 8) (fraction : BitVec 23) :
    Sign.ofBitVec (unpackSign (packComponents binary32 sign field fraction)) = sign := by
  unfold unpackSign packComponents BitVec.extractLsb
  rw [BitVec.extractLsb'_append_eq_of_le (by decide),
    BitVec.extractLsb'_append_eq_of_le (by decide)]
  cases sign <;> rfl

theorem unpack_packComponents (sign : Sign) {field fraction : ℕ} (small : field < 256)
    (lt : fraction < 8388608) :
    unpack binary32 (packComponents binary32 sign (.ofNat 8 field) (.ofNat 23 fraction)) =
      ofFields sign field fraction := by
  have split := unpack_eq_ofFields
    (packComponents binary32 sign (.ofNat 8 field) (.ofNat 23 fraction))
  have first : field % 2 ^ binary32.exponentBits = field := Nat.mod_eq_of_lt small
  have last : fraction % 2 ^ binary32.mantissaBitsWithoutImplicit = fraction :=
    Nat.mod_eq_of_lt lt
  rw [unpackSign_packComponents, unpackExponent_packComponents, unpackMantissa_packComponents,
    BitVec.toNat_ofNat, BitVec.toNat_ofNat, first, last] at split
  exact split

theorem ofFields_of_lt (sign : Sign) {field : ℕ} (fraction : ℕ) (lt : field < 255) :
    ofFields sign field fraction = unbounded sign (field * 8388608 + fraction) :=
  if_neg lt.ne

theorem unpack_pack_infinity (sign : Sign) :
    unpack binary32 (pack binary32 (.infinity sign)) = .infinity sign :=
  unpack_packComponents sign (show 255 < 256 by decide) (show 0 < 8388608 by decide)

theorem unpack_pack_notANumber : unpack binary32 (pack binary32 .notANumber) = .notANumber :=
  unpack_packComponents .positive (show 255 < 256 by decide) (show 4194304 < 8388608 by decide)

theorem pack_ofDigits_subnormal (sign : Sign) {digits : ℕ} (lt : digits < 8388608) :
    pack binary32 (ofDigits sign digits (-149)) =
      packComponents binary32 sign (.ofNat 8 0) (.ofNat 23 digits) := by
  rcases Nat.eq_zero_or_pos digits with rfl | positive
  · rfl
  · rw [ofDigits, dif_pos positive]
    exact @pack_subnormal binary32 sign digits (-149) positive (by decide) rfl lt

theorem pack_ofDigits_normal (sign : Sign) {field fraction : ℕ} (lt : fraction < 8388608) :
    pack binary32 (ofDigits sign (8388608 + fraction) (field - 150)) =
      if 255 ≤ field then packComponents binary32 sign (.ofNat 8 255) (.ofNat 23 0)
      else packComponents binary32 sign (.ofNat 8 field) (.ofNat 23 fraction) := by
  have positive : 0 < 8388608 + fraction := Nat.add_pos_left (by decide) _
  have biased : ((field : ℤ) - 150 + (127 : ℕ) + (23 : ℕ)).toNat = field := by omega
  rw [ofDigits, dif_pos positive]
  refine (@pack_normal binary32 sign _ field _ positive fraction biased lt rfl).trans ?_
  exact if_congr Nat.succ_le_succ_iff rfl rfl

/-- Numbers that are too large are packed as infinity. -/
theorem unpack_pack_unbounded (sign : Sign) (bits : ℕ) :
    unpack binary32 (pack binary32 (unbounded sign bits)) = signed sign bits := by
  obtain ⟨field, fraction, lt, rfl⟩ : ∃ field fraction, fraction < 8388608 ∧
      bits = field * 8388608 + fraction :=
    ⟨bits / 8388608, bits % 8388608, by omega, by omega⟩
  have finite : field * 8388608 + fraction < single.infinityBits ↔ ¬255 ≤ field := by
    rw [infinityBits_single]
    omega
  rw [signed]
  rcases Nat.eq_zero_or_pos field with rfl | large
  · rw [if_pos (finite.mpr (by decide)), zero_mul, zero_add]
    rw [unbounded_subnormal sign lt, pack_ofDigits_subnormal sign lt,
      unpack_packComponents sign (by decide) lt, ofFields_of_lt sign fraction (by decide), zero_mul,
      zero_add, unbounded_subnormal sign lt]
  · rw [unbounded_normal sign large.ne' lt, pack_ofDigits_normal sign lt]
    by_cases top : 255 ≤ field
    · rw [if_pos top, if_neg (mt finite.mp (not_not.mpr top))]
      exact unpack_pack_infinity sign
    · rw [if_neg top, if_pos (finite.mpr top), unpack_packComponents sign (by omega) lt,
        ofFields_of_lt sign fraction (by omega), unbounded_normal sign large.ne' lt]

/-! ### The order -/

/-- The place of a number among all numbers. -/
def level (sign : Sign) (bits : ℕ) : ℤ :=
  sign.apply (min bits single.infinityBits : ℕ)

theorem unbounded_pos (sign : Sign) {bits : ℕ} (positive : 0 < single.significand bits) :
    unbounded sign bits =
      .finite sign (single.significand bits) (single.lastPlace bits) positive :=
  dif_pos positive

theorem significand_pos {bits : ℕ} (ne : bits ≠ 0) : 0 < single.significand bits := by
  have split : bits = (bits / 8388608 - 1) * 8388608 + single.significand bits :=
    single.eq_field_add_significand bits
  have normal : bits / 8388608 - 1 = 0 ∨ 8388608 ≤ single.significand bits :=
    single.field_eq_zero_or_le_significand bits
  omega

/-- Whatever the sign, a pattern is that of zero or of digits. -/
theorem unbounded_cases (bits : ℕ) :
    (∀ sign, unbounded sign bits = .zero sign) ∨
      ∃ digits place positive,
        ∀ sign, unbounded sign bits = .finite sign digits place positive := by
  rcases Nat.eq_zero_or_pos bits with rfl | positive
  · exact .inl unbounded_zero
  · exact .inr ⟨_, _, _, fun sign => unbounded_pos sign (significand_pos positive.ne')⟩

/-- Patterns are in the order of their last places, and of their significands in one place. -/
theorem compare_lastPlace_then (bits bits' : ℕ) :
    (compare (single.lastPlace bits) (single.lastPlace bits')).then
      (compare (single.significand bits) (single.significand bits')) =
        compare (bits : ℤ) (bits' : ℤ) := by
  have split : bits = (bits / 8388608 - 1) * 8388608 + single.significand bits :=
    single.eq_field_add_significand bits
  have normal : bits / 8388608 - 1 = 0 ∨ 8388608 ≤ single.significand bits :=
    single.field_eq_zero_or_le_significand bits
  have small : single.significand bits < 16777216 := single.significand_lt bits
  have split' : bits' = (bits' / 8388608 - 1) * 8388608 + single.significand bits' :=
    single.eq_field_add_significand bits'
  have normal' : bits' / 8388608 - 1 = 0 ∨ 8388608 ≤ single.significand bits' :=
    single.field_eq_zero_or_le_significand bits'
  have small' : single.significand bits' < 16777216 := single.significand_lt bits'
  have place : single.lastPlace bits = -149 + (bits / 8388608 - 1 : ℕ) := rfl
  have place' : single.lastPlace bits' = -149 + (bits' / 8388608 - 1 : ℕ) := rfl
  rcases lt_trichotomy (single.lastPlace bits) (single.lastPlace bits') with less | same | more
  · rw [compare_lt_iff_lt.mpr less]
    exact (compare_lt_iff_lt.mpr (by omega)).symm
  · rw [compare_eq_iff_eq.mpr same, Ordering.then]
    rcases lt_trichotomy (single.significand bits) (single.significand bits') with
      less | same | more
    · rw [compare_lt_iff_lt.mpr less]
      exact (compare_lt_iff_lt.mpr (by omega)).symm
    · rw [compare_eq_iff_eq.mpr same]
      exact (compare_eq_iff_eq.mpr (by omega)).symm
    · rw [compare_gt_iff_gt.mpr more]
      exact (compare_gt_iff_gt.mpr (by omega)).symm
  · rw [compare_gt_iff_gt.mpr more]
    exact (compare_gt_iff_gt.mpr (by omega)).symm

theorem compare_neg_neg (a b : ℤ) : compare (-a) (-b) = (compare a b).swap := by
  rw [← Std.OrientedCmp.eq_swap]
  rcases lt_trichotomy a b with less | rfl | more
  · rw [compare_gt_iff_gt.mpr less, compare_gt_iff_gt.mpr (neg_lt_neg less)]
  · rw [compare_eq_iff_eq.mpr rfl, compare_eq_iff_eq.mpr rfl]
  · rw [compare_lt_iff_lt.mpr more, compare_lt_iff_lt.mpr (neg_lt_neg more)]

theorem compare_zero_unbounded (sign sign' : Sign) (bits : ℕ) :
    UnpackedFloat.compare (.zero sign) (unbounded sign' bits) =
      some (compare 0 (sign'.apply bits)) := by
  rcases Nat.eq_zero_or_pos bits with rfl | positive
  · rw [unbounded_zero]
    cases sign' <;> rfl
  · rw [unbounded_pos sign' (significand_pos positive.ne')]
    cases sign' with
    | negative =>
        have more : 0 > Sign.negative.apply bits := by simp [Sign.apply, positive]
        exact congrArg some (compare_gt_iff_gt.mpr more).symm
    | positive =>
        have less : 0 < Sign.positive.apply bits := by simp [Sign.apply, positive]
        exact congrArg some (compare_lt_iff_lt.mpr less).symm

theorem compare_unbounded (sign sign' : Sign) (bits bits' : ℕ) :
    (unbounded sign bits).compare (unbounded sign' bits') =
      some (compare (sign.apply bits) (sign'.apply bits')) := by
  have level (sign : Sign) : sign.apply (0 : ℕ) = 0 := by cases sign <;> rfl
  rcases Nat.eq_zero_or_pos bits with rfl | positive
  · rw [unbounded_zero, compare_zero_unbounded, level]
  rcases Nat.eq_zero_or_pos bits' with rfl | positive'
  · rw [unbounded_zero, ← swap_compare, compare_zero_unbounded, Option.map_some, level,
      ← Std.OrientedCmp.eq_swap]
  rw [unbounded_pos sign (significand_pos positive.ne'),
    unbounded_pos sign' (significand_pos positive'.ne')]
  have order := compare_lastPlace_then bits bits'
  cases sign with
  | negative =>
      cases sign' with
      | negative =>
          rw [Sign.apply, Sign.apply, compare_neg_neg, ← order]
          rfl
      | positive =>
          have less : Sign.negative.apply bits < Sign.positive.apply bits' := by
            simp only [Sign.apply]
            omega
          exact congrArg some (compare_lt_iff_lt.mpr less).symm
  | positive =>
      cases sign' with
      | negative =>
          have more : Sign.positive.apply bits > Sign.negative.apply bits' := by
            simp only [Sign.apply]
            omega
          exact congrArg some (compare_gt_iff_gt.mpr more).symm
      | positive =>
          rw [Sign.apply, Sign.apply, ← order]
          rfl

theorem compare_unbounded_infinity (sign sign' : Sign) {bits : ℕ}
    (lt : bits < single.infinityBits) :
    (unbounded sign bits).compare (.infinity sign') =
      some (compare (sign.apply bits) (sign'.apply single.infinityBits)) := by
  have kind : (unbounded sign bits).compare (.infinity sign') =
      match sign' with
      | .negative => some .gt
      | .positive => some .lt := by
    rcases unbounded_cases bits with zero | ⟨_, _, _, finite⟩
    · rw [zero]
      cases sign' <;> rfl
    · rw [finite]
      cases sign <;> cases sign' <;> rfl
  rw [kind]
  cases sign' with
  | negative =>
      refine congrArg some (compare_gt_iff_gt.mpr ?_).symm
      cases sign <;> simp only [Sign.apply] <;> omega
  | positive =>
      refine congrArg some (compare_lt_iff_lt.mpr ?_).symm
      cases sign <;> simp only [Sign.apply] <;> omega

theorem signed_of_lt (sign : Sign) {bits : ℕ} (lt : bits < single.infinityBits) :
    signed sign bits = unbounded sign bits ∧ level sign bits = sign.apply bits := by
  rw [signed, if_pos lt, level, min_eq_left lt.le]
  exact ⟨rfl, rfl⟩

theorem signed_of_le (sign : Sign) {bits : ℕ} (le : single.infinityBits ≤ bits) :
    signed sign bits = .infinity sign ∧ level sign bits = sign.apply single.infinityBits := by
  rw [signed, if_neg (not_lt.mpr le), level, min_eq_right le]
  exact ⟨rfl, rfl⟩

theorem compare_signed (sign sign' : Sign) (bits bits' : ℕ) :
    (signed sign bits).compare (signed sign' bits') =
      some (compare (level sign bits) (level sign' bits')) := by
  rcases lt_or_ge bits single.infinityBits with finite | infinite
  · obtain ⟨number, place⟩ := signed_of_lt sign finite
    rcases lt_or_ge bits' single.infinityBits with finite' | infinite'
    · obtain ⟨number', place'⟩ := signed_of_lt sign' finite'
      rw [number, number', place, place', compare_unbounded]
    · obtain ⟨number', place'⟩ := signed_of_le sign' infinite'
      rw [number, number', place, place', compare_unbounded_infinity sign sign' finite]
  · obtain ⟨number, place⟩ := signed_of_le sign infinite
    rcases lt_or_ge bits' single.infinityBits with finite' | infinite'
    · obtain ⟨number', place'⟩ := signed_of_lt sign' finite'
      rw [number, number', place, place', ← swap_compare,
        compare_unbounded_infinity sign' sign finite', Option.map_some,
        ← Std.OrientedCmp.eq_swap]
    · obtain ⟨number', place'⟩ := signed_of_le sign' infinite'
      rw [number, number', place, place']
      cases sign <;> cases sign' <;> rfl

/-! ### Numbers of 32 bits -/

/-- The number has the sign and the pattern. -/
def Has (x : Float32) (sign : Sign) (bits : ℕ) : Prop :=
  x.toModel.unpack = signed sign bits

theorem isNaN_or_has (x : Float32) : x.isNaN = true ∨ ∃ sign bits, Has x sign bits := by
  have split := unpack_eq_ofFields x.toModel.toBits.toBitVec
  have small : (@unpackMantissa binary32 x.toModel.toBits.toBitVec).toNat < 8388608 :=
    (@unpackMantissa binary32 x.toModel.toBits.toBitVec).isLt
  have small' : (@unpackExponent binary32 x.toModel.toBits.toBitVec).toNat < 256 :=
    (@unpackExponent binary32 x.toModel.toBits.toBitVec).isLt
  change x.toModel.unpack = _ at split
  change x.toModel.unpack.isNaN = true ∨ _
  unfold ofFields at split
  split at split
  case isTrue =>
    split at split
    case isTrue => exact .inr ⟨_, single.infinityBits, split.trans (signed_of_le _ le_rfl).1.symm⟩
    case isFalse =>
      rw [split]
      exact .inl rfl
  case isFalse below =>
    refine .inr ⟨_, _, split.trans (signed_of_lt _ ?_).1.symm⟩
    rw [infinityBits_single]
    omega

theorem exists_has {x : Float32} (number : x.isNaN = false) : ∃ sign bits, Has x sign bits := by
  rcases isNaN_or_has x with nan | has
  · rw [number] at nan
    cases nan
  · exact has

theorem le_iff_level {a b : Float32} {sign sign' : Sign} {bits bits' : ℕ} (ha : Has a sign bits)
    (hb : Has b sign' bits') : a ≤ b ↔ level sign bits ≤ level sign' bits' := by
  change decide ((a.toModel.unpack.compare b.toModel.unpack).any Ordering.isLE = true) = true ↔ _
  rw [ha, hb, compare_signed, decide_eq_true_iff, Option.any_some]
  exact Std.isLE_compare

theorem lt_iff_level {a b : Float32} {sign sign' : Sign} {bits bits' : ℕ} (ha : Has a sign bits)
    (hb : Has b sign' bits') : a < b ↔ level sign bits < level sign' bits' := by
  change decide ((a.toModel.unpack.compare b.toModel.unpack == some .lt) = true) = true ↔ _
  rw [ha, hb, compare_signed, decide_eq_true_iff, beq_iff_eq, Option.some.injEq]
  exact compare_lt_iff_lt

theorem not_isNaN_of_le {a b : Float32} (le : a ≤ b) : a.isNaN = false ∧ b.isNaN = false := by
  have ordered : (a.toModel.unpack.compare b.toModel.unpack).any Ordering.isLE = true :=
    of_decide_eq_true le
  change a.toModel.unpack.isNaN = false ∧ b.toModel.unpack.isNaN = false
  generalize a.toModel.unpack = number at ordered ⊢
  generalize b.toModel.unpack = number' at ordered ⊢
  constructor
  · cases number <;> first | rfl | cases ordered
  · cases number' <;> first | rfl | (cases number <;> cases ordered)

theorem le_of_lt_single {a b : Float32} (less : a < b) : a ≤ b := by
  have less : a.toModel.unpack.compare b.toModel.unpack = some .lt :=
    beq_iff_eq.mp (of_decide_eq_true less)
  change decide ((a.toModel.unpack.compare b.toModel.unpack).any Ordering.isLE = true) = true
  rw [less]
  rfl

theorem not_isNaN_of_lt {a b : Float32} (less : a < b) : a.isNaN = false ∧ b.isNaN = false :=
  not_isNaN_of_le (le_of_lt_single less)

theorem le_refl_of_number {a : Float32} (number : a.isNaN = false) : a ≤ a := by
  obtain ⟨sign, bits, has⟩ := exists_has number
  exact (le_iff_level has has).mpr le_rfl

theorem le_of_not_lt_single {a b : Float32} (number : a.isNaN = false) (number' : b.isNaN = false)
    (upward : ¬a < b) : b ≤ a := by
  obtain ⟨sign, bits, has⟩ := exists_has number
  obtain ⟨sign', bits', has'⟩ := exists_has number'
  rw [lt_iff_level has has', not_lt] at upward
  exact (le_iff_level has' has).mpr upward

theorem exists_has_of_le {a b : Float32} (le : a ≤ b) : ∃ sign bits sign' bits',
    Has a sign bits ∧ Has b sign' bits' ∧ level sign bits ≤ level sign' bits' := by
  obtain ⟨sign, bits, has⟩ := exists_has (not_isNaN_of_le le).1
  obtain ⟨sign', bits', has'⟩ := exists_has (not_isNaN_of_le le).2
  exact ⟨sign, bits, sign', bits', has, has', (le_iff_level has has').mp le⟩

instance transLe : @Trans Float32 Float32 Float32 (· ≤ ·) (· ≤ ·) (· ≤ ·) where
  trans := by
    intro a b c le le'
    obtain ⟨sign'', bits'', has''⟩ := exists_has (not_isNaN_of_le le').2
    obtain ⟨sign, bits, sign', bits', has, has', le⟩ := exists_has_of_le le
    rw [le_iff_level has' has''] at le'
    exact (le_iff_level has has'').mpr (le.trans le')

instance transLeLt : @Trans Float32 Float32 Float32 (· ≤ ·) (· < ·) (· < ·) where
  trans := by
    intro a b c le less
    obtain ⟨sign'', bits'', has''⟩ := exists_has (not_isNaN_of_lt less).2
    obtain ⟨sign, bits, sign', bits', has, has', le⟩ := exists_has_of_le le
    rw [lt_iff_level has' has''] at less
    exact (lt_iff_level has has'').mpr (le.trans_lt less)

instance transLtLe : @Trans Float32 Float32 Float32 (· < ·) (· ≤ ·) (· < ·) where
  trans := by
    intro a b c less le
    obtain ⟨sign, bits, has⟩ := exists_has (not_isNaN_of_lt less).1
    obtain ⟨sign', bits', sign'', bits'', has', has'', le⟩ := exists_has_of_le le
    rw [lt_iff_level has has'] at less
    exact (lt_iff_level has has'').mpr (less.trans_le le)

theorem lt_trans_single {a b c : Float32} (less : a < b) (less' : b < c) : a < c :=
  Trans.trans less (le_of_lt_single less')

theorem not_lt_of_lt {a b : Float32} (less : a < b) : ¬b < a := fun less' =>
  not_le_of_lt less (le_of_lt_single less')

end ArcGraph.Binary
