import ArcGraph.Number.Numeral
import ArcGraph.Proofs.Number.Rounding

/-!
Patterns with a sign, and the numbers of 32 and of 64 bits.

A pattern and the value it stands for determine each other, except that all
values that are no number share one pattern. So what is unpacked from a pattern
of a number is packed as that pattern again.
-/

namespace ArcGraph.Binary

namespace Format

variable {format : Format} {bits : ℕ}

theorem infinityBits_lt_signBit : format.infinityBits < format.signBit := by
  have positive : 0 < 2 ^ format.fractionBits := by positivity
  have positive' : 0 < 2 ^ format.exponentBits := by positivity
  simp only [infinityBits, topField, signBit, Nat.pow_eq, pow_add]
  rw [mul_comm]
  exact Nat.mul_lt_mul_of_pos_left (by omega) positive

theorem withSign_lt (negative : Bool) (lt : bits < format.signBit) :
    format.withSign negative bits < 2 * format.signBit := by
  rw [withSign]
  split <;> omega

/-- The three fields of a pattern with a sign. -/
theorem fields_withSign (negative : Bool) (lt : bits < format.signBit) :
    format.withSign negative bits % 2 ^ format.fractionBits = bits % 2 ^ format.fractionBits ∧
      format.withSign negative bits / 2 ^ format.fractionBits % 2 ^ format.exponentBits =
        bits / 2 ^ format.fractionBits ∧
      (format.withSign negative bits / format.signBit % 2 = 1 ↔ negative = true) := by
  have positive : 0 < 2 ^ format.fractionBits := by positivity
  have sign : format.signBit = 2 ^ format.fractionBits * 2 ^ format.exponentBits := by
    simp [signBit, pow_add]
  have small : bits / 2 ^ format.fractionBits < 2 ^ format.exponentBits :=
    Nat.div_lt_of_lt_mul (sign ▸ lt)
  have unsigned : bits / format.signBit = 0 := Nat.div_eq_of_lt lt
  rw [sign] at unsigned
  cases negative <;>
    simp [withSign, sign, unsigned, Nat.mul_add_div positive, Nat.mod_eq_of_lt small]

/-- A finite pattern stands for its value, with its sign. -/
theorem decode_withSign (negative : Bool) (finite : bits < format.infinityBits) :
    format.decode (format.withSign negative bits) =
      .finite negative (format.significand bits) (format.lastPlace bits) := by
  have positive : 0 < 2 ^ format.fractionBits := by positivity
  obtain ⟨fraction, field, sign⟩ := fields_withSign negative (finite.trans infinityBits_lt_signBit)
  have below : bits / 2 ^ format.fractionBits ≠ format.topField :=
    (Nat.div_lt_of_lt_mul (by rwa [infinityBits, mul_comm] at finite)).ne
  have split := Nat.div_add_mod bits (2 ^ format.fractionBits)
  simp only [decode, Nat.pow_eq, fraction, field, sign, below, if_false, Bool.decide_eq_true]
  split
  case isTrue zero =>
    rw [zero, mul_zero, zero_add] at split
    simp [significand, lastPlace, zero, split]
  case isFalse ne =>
    simp [significand, lastPlace, ne]

/-- Every pattern has a sign, and a magnitude that the sign bit lies above. -/
theorem exists_withSign (lt : bits < 2 * format.signBit) :
    ∃ negative, ∃ magnitude < format.signBit, bits = format.withSign negative magnitude := by
  rcases lt_or_ge bits format.signBit with plus | minus
  · exact ⟨false, bits, plus, rfl⟩
  · refine ⟨true, bits - format.signBit, by omega, ?_⟩
    simp only [withSign, if_true]
    omega

theorem encode_finite (fine : 0 < format.fractionBits) (negative : Bool) {significand : ℕ}
    {exponent : ℤ} (nearest : format.IsNearest bits (significand * 2 ^ exponent))
    (le : bits ≤ format.infinityBits) :
    format.encode (.finite negative significand exponent) = format.withSign negative bits := by
  rw [encode, roundMagnitude_eq fine _ _ le]
  · simp
  · rw [zpow_eq_div, mul_div_assoc'] at nearest
    simpa using nearest

end Format

section Words

open Float.Model Float.Model.UnpackedFloat

theorem decode_eq_nan_iff {format : Format} {bits : ℕ} :
    format.decode bits = .nan ↔
      bits / 2 ^ format.fractionBits % 2 ^ format.exponentBits = 2 ^ format.exponentBits - 1 ∧
        bits % 2 ^ format.fractionBits ≠ 0 := by
  simp only [Format.decode, Nat.pow_eq, Format.topField]
  split_ifs <;> simp_all

section Fields

variable {format : Float.Model.Format} (word : BitVec format.numBits)

theorem toNat_unpackSign : (unpackSign word).toNat =
    word.toNat / 2 ^ (format.mantissaBitsWithoutImplicit + format.exponentBits) % 2 := by
  unfold unpackSign
  simp only [BitVec.toNat_cast, BitVec.extractLsb_toNat, Nat.shiftRight_eq_div_pow]
  rw [Nat.sub_self, zero_add, pow_one]

theorem toNat_unpackExponent : (unpackExponent word).toNat =
    word.toNat / 2 ^ format.mantissaBitsWithoutImplicit % 2 ^ format.exponentBits := by
  have fieldSome := format.he
  simp only [unpackExponent, BitVec.toNat_cast, BitVec.extractLsb_toNat, Nat.shiftRight_eq_div_pow]
  congr 2
  omega

theorem toNat_unpackMantissa : (unpackMantissa word).toNat =
    word.toNat % 2 ^ format.mantissaBitsWithoutImplicit := by
  have fractionSome := format.hm
  simp only [unpackMantissa, BitVec.toNat_cast, BitVec.extractLsb_toNat, Nat.shiftRight_zero]
  congr 2
  omega

/-- The patterns of no number are those whose exponent field is full and whose fraction is not
empty. -/
theorem decode_toNat_eq_nan_iff :
    Format.decode ⟨format.mantissaBitsWithoutImplicit, format.exponentBits⟩ word.toNat = .nan ↔
      unpackExponent word = -BitVec.ofNat _ 1 ∧ unpackMantissa word ≠ BitVec.ofNat _ 0 := by
  have full : (-BitVec.ofNat format.exponentBits 1).toNat = 2 ^ format.exponentBits - 1 := by
    rw [BitVec.neg_one_eq_allOnes, BitVec.toNat_allOnes]
  rw [decode_eq_nan_iff, ← toNat_unpackExponent, ← toNat_unpackMantissa, ← full, BitVec.toNat_inj,
    Ne, Ne, ← BitVec.toNat_inj (y := BitVec.ofNat _ 0), BitVec.toNat_ofNat, Nat.zero_mod]

theorem toBitVec_ofBitVec (bit : BitVec 1) : (Sign.ofBitVec bit).toBitVec = bit := by
  revert bit
  decide

/-- A pattern consists of its three fields. -/
theorem packComponents_unpack :
    packComponents format (Sign.ofBitVec (unpackSign word)) (unpackExponent word)
      (unpackMantissa word) = word := by
  have small : word.toNat / 2 ^ (format.mantissaBitsWithoutImplicit + format.exponentBits) < 2 := by
    refine Nat.div_lt_of_lt_mul (word.isLt.trans_eq ?_)
    rw [← pow_succ, Float.Model.Format.numBits]
    congr 1
    omega
  have upper := Nat.div_add_mod (word.toNat / 2 ^ format.mantissaBitsWithoutImplicit)
    (2 ^ format.exponentBits)
  have whole := Nat.div_add_mod word.toNat (2 ^ format.mantissaBitsWithoutImplicit)
  rw [Nat.div_div_eq_div_mul, ← pow_add] at upper
  rw [packComponents, toBitVec_ofBitVec, ← BitVec.toNat_inj, BitVec.toNat_append,
    BitVec.toNat_append, ← Nat.shiftLeft_add_eq_or_of_lt (unpackExponent word).isLt,
    ← Nat.shiftLeft_add_eq_or_of_lt (unpackMantissa word).isLt, Nat.shiftLeft_eq, Nat.shiftLeft_eq,
    toNat_unpackSign, toNat_unpackExponent, toNat_unpackMantissa, Nat.mod_eq_of_lt small,
    mul_comm _ (2 ^ format.exponentBits), upper, mul_comm, whole]

end Fields

section Packing

variable {format : Float.Model.Format} (sign : Sign)

variable {digits field : ℕ} {place : ℤ} (positive : 0 < digits)

/-- Digits below the implicit one are packed without an exponent. -/
theorem pack_subnormal (wide : 2 ≤ format.exponentBits)
    (lowest : (place + format.exponentBias + format.mantissaBitsWithoutImplicit).toNat = 1)
    (lt : digits < 2 ^ format.mantissaBitsWithoutImplicit) :
    UnpackedFloat.pack format (.finite sign digits place positive) =
      packComponents format sign (.ofNat _ 0) (.ofNat _ digits) := by
  have finite : ¬2 ^ format.exponentBits ≤ 1 + 1 := by
    have := Nat.pow_le_pow_right two_pos wide
    omega
  have short : digits.log2 + 1 ≠ format.mantissaBits := by
    have := (Nat.log2_lt positive.ne').mpr lt
    unfold Float.Model.Format.mantissaBits
    omega
  unfold UnpackedFloat.pack
  dsimp only
  rw [lowest, if_neg finite, if_neg short]

/-- Digits with the implicit one are packed with their exponent, or as infinity if that one is too
large. -/
theorem pack_normal {fraction : ℕ}
    (biased : (place + format.exponentBias + format.mantissaBitsWithoutImplicit).toNat = field)
    (lt : fraction < 2 ^ format.mantissaBitsWithoutImplicit)
    (split : digits = 2 ^ format.mantissaBitsWithoutImplicit + fraction) :
    UnpackedFloat.pack format (.finite sign digits place positive) =
      if 2 ^ format.exponentBits ≤ field + 1 then packedInfinity format sign
      else packComponents format sign (.ofNat _ field) (.ofNat _ fraction) := by
  have long : digits.log2 + 1 = format.mantissaBits := by
    unfold Float.Model.Format.mantissaBits
    rw [add_comm 1, Nat.add_left_inj, Nat.log2_eq_iff positive.ne', pow_succ]
    omega
  have implicit : BitVec.ofNat format.mantissaBitsWithoutImplicit digits = .ofNat _ fraction := by
    rw [← BitVec.toNat_inj, BitVec.toNat_ofNat, BitVec.toNat_ofNat, split, Nat.add_mod_left]
  unfold UnpackedFloat.pack
  dsimp only
  rw [biased, if_pos long, implicit]

theorem toNat_one_append {width : ℕ} (fraction : BitVec width) :
    (1#1 ++ fraction).toNat = 2 ^ width + fraction.toNat := by
  rw [BitVec.toNat_append, ← Nat.shiftLeft_add_eq_or_of_lt fraction.isLt, Nat.shiftLeft_eq]
  simp

/-- A pattern is packed again as it was unpacked, unless it is one of the many of no number. -/
theorem pack_unpack (wide : 2 ≤ format.exponentBits) {word : BitVec format.numBits}
    (valid : format.Valid word) :
    UnpackedFloat.pack format (UnpackedFloat.unpack format word) = word := by
  have fields := packComponents_unpack word
  have small := (unpackMantissa word).isLt
  unfold UnpackedFloat.unpack
  dsimp only
  by_cases full : unpackExponent word = -BitVec.ofNat _ 1
  · rw [if_pos full]
    by_cases none : unpackMantissa word = BitVec.ofNat _ 0
    · rw [if_pos none]
      rw [full, none] at fields
      exact fields
    · rw [if_neg none]
      exact (valid.eq_packedNaN full none).symm
  rw [if_neg full]
  by_cases bottom : unpackExponent word = BitVec.ofNat _ 0
  · rw [if_pos bottom]
    by_cases none : unpackMantissa word = BitVec.ofNat _ 0
    · rw [dif_pos none]
      rw [bottom, none] at fields
      exact fields
    · have zero : (unpackExponent word).toNat = 0 := by
        rw [bottom, BitVec.toNat_ofNat, Nat.zero_mod]
      rw [dif_neg none, pack_subnormal _ _ wide (by omega) small, BitVec.ofNat_toNat,
        BitVec.setWidth_eq, ← bottom, fields]
  · have finite : ¬2 ^ format.exponentBits ≤ (unpackExponent word).toNat + 1 := by
      have := (unpackExponent word).isLt
      have : (unpackExponent word).toNat ≠ 2 ^ format.exponentBits - 1 := by
        intro top
        refine full (BitVec.toNat_inj.mp ?_)
        rw [top, BitVec.neg_one_eq_allOnes, BitVec.toNat_allOnes]
      omega
    have biased : ((unpackExponent word).toNat - (format.exponentBias +
        format.mantissaBitsWithoutImplicit) + format.exponentBias +
        format.mantissaBitsWithoutImplicit : ℤ).toNat = (unpackExponent word).toNat := by omega
    rw [if_neg bottom, pack_normal _ _ biased small (toNat_one_append _), if_neg finite,
      BitVec.ofNat_toNat, BitVec.ofNat_toNat, BitVec.setWidth_eq, BitVec.setWidth_eq, fields]

end Packing

theorem ofBits_toBits_single (x : Float32) : Float32.ofBits x.toBits = x := by
  obtain ⟨bits, valid⟩ := x
  have word := UInt32.toBitVec_inj.mp (@pack_unpack .binary32 (by decide) _ valid)
  exact congrArg Float32.ofModel ((Float32.Model.mk.injEq ..).mpr word)

theorem ofBits_toBits_double (x : Float) : Float.ofBits x.toBits = x := by
  obtain ⟨bits, valid⟩ := x
  have word := UInt64.toBitVec_inj.mp (@pack_unpack .binary64 (by decide) _ valid)
  exact congrArg Float.ofModel ((Float.Model.mk.injEq ..).mpr word)

/-! ### Values -/

theorem isNaN_of_ofSingle {x : Float32} (nan : ofSingle x = .nan) : x.isNaN = true := by
  obtain ⟨field, fraction⟩ :=
    (@decode_toNat_eq_nan_iff .binary32 x.toBits.toBitVec).1 nan
  change (UnpackedFloat.unpack .binary32 x.toBits.toBitVec).isNaN = true
  unfold UnpackedFloat.unpack
  rw [if_pos field, if_neg fraction]
  rfl

theorem beq_self_of_isNaN_eq_false {x : Float32} (number : x.isNaN = false) :
    (x == x) = true := by
  change x.toModel.unpack.isNaN = false at number
  change (x.toModel.unpack.compare x.toModel.unpack == some .eq) = true
  cases value : x.toModel.unpack with
  | notANumber =>
      rw [value] at number
      contradiction
  | infinity sign => cases sign <;> rfl
  | zero sign => cases sign <;> rfl
  | finite sign significand exponent positive =>
      have same : (compare exponent exponent).then (compare significand significand) = .eq := by
        simp
      cases sign with
      | positive => exact congrArg (fun order => some order == some .eq) same
      | negative => exact congrArg (fun order => some order.swap == some .eq) same

/-- A number of 64 bits keeps every pattern that is one of a number. -/
theorem ofDouble_ofBits {bits : ℕ} (lt : bits < 2 ^ 64) (number : double.decode bits ≠ .nan) :
    ofDouble (.ofBits (.ofNat bits)) = double.decode bits := by
  have toNat : (UInt64.ofNat bits).toNat = bits := UInt64.toNat_ofNat_of_lt' lt
  have valid : Float.Model.Format.binary64.Valid (UInt64.ofNat bits).toBitVec := by
    refine ⟨fun field fraction => absurd ?_ number⟩
    have := (@decode_toNat_eq_nan_iff .binary64 (UInt64.ofNat bits).toBitVec).2
      ⟨field, fraction⟩
    rwa [UInt64.toNat_toBitVec, toNat] at this
  have kept : Float.ofBits (.ofNat bits) = .ofModel ⟨.ofNat bits, valid⟩ :=
    ofBits_toBits_double (.ofModel ⟨.ofNat bits, valid⟩)
  rw [ofDouble, kept]
  exact congrArg double.decode toNat

/-- A number of 32 bits is infinite or finite, and has the pattern of its value. -/
theorem single_cases {x : Float32} (number : x.isNaN = false) :
    (∃ negative, x = toSingle (.infinite negative)) ∨
      ∃ negative, ∃ bits < single.infinityBits, x.toBits = .ofNat (single.withSign negative bits) ∧
        ofSingle x = .finite negative (single.significand bits) (single.lastPlace bits) := by
  obtain ⟨negative, magnitude, lt, eq⟩ := single.exists_withSign x.toBits.toNat_lt
  have pattern : x.toBits = .ofNat (single.withSign negative magnitude) := by
    rw [← eq, UInt32.ofNat_toNat]
  rcases lt_trichotomy magnitude single.infinityBits with finite | rfl | above
  · refine .inr ⟨negative, magnitude, finite, pattern, ?_⟩
    rw [ofSingle, eq, Format.decode_withSign negative finite]
  · refine .inl ⟨negative, ?_⟩
    rw [← ofBits_toBits_single x, pattern]
    rfl
  · have nan : ofSingle x = .nan := by
      obtain ⟨fraction, field, -⟩ := Format.fields_withSign negative lt
      rw [ofSingle, eq, decode_eq_nan_iff, fraction, field]
      simp only [single, Format.infinityBits, Format.topField, Format.signBit,
        Nat.pow_eq] at above lt ⊢
      omega
    rw [isNaN_of_ofSingle nan] at number
    contradiction

end Words

end ArcGraph.Binary
