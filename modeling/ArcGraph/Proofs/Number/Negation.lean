import ArcGraph.Proofs.Number.SumOrder

/-!
Negated numbers of 32 bits.

Every number has one pattern, so numbers that are unpacked alike are equal.
Rounding does not look at the sign, which therefore passes through products and
quotients.
-/

namespace ArcGraph.Binary

open Float.Model (UnpackedFloat)
open Float.Model.UnpackedFloat
open Float.Model.Format (binary32)

/-! ### Patterns -/

theorem eq_of_unpack_eq {a b : Float32} (same : a.toModel.unpack = b.toModel.unpack) : a = b := by
  have word : a.toModel.toBits = b.toModel.toBits := by
    change unpack binary32 a.toModel.toBits.toBitVec = unpack binary32 b.toModel.toBits.toBitVec
      at same
    have wide : 2 ≤ binary32.exponentBits := by decide
    rw [← UInt32.toBitVec_inj, ← pack_unpack wide a.toModel.valid,
      ← pack_unpack wide b.toModel.valid, same]
  obtain ⟨⟨bits, valid⟩⟩ := a
  obtain ⟨⟨bits', valid'⟩⟩ := b
  obtain rfl : bits = bits' := word
  rfl

theorem eq_toSingle_nan {x : Float32} (nan : x.isNaN = true) : x = toSingle .nan := by
  refine eq_of_unpack_eq ?_
  have same : (toSingle .nan).toModel.unpack = .notANumber := rfl
  change x.toModel.unpack.isNaN = true at nan
  rw [same]
  cases eq : x.toModel.unpack with
  | notANumber => rfl
  | infinity | zero | finite =>
      rw [eq] at nan
      cases nan

/-! ### Negation and rounding -/

theorem neg_ofFields (sign : Sign) (field fraction : ℕ) :
    (ofFields sign field fraction).neg = ofFields (-sign) field fraction := by
  unfold ofFields
  split
  case isTrue => split <;> rfl
  case isFalse => exact neg_unbounded sign _

theorem unpack_packComponents_neg (sign : Sign) (exponent : BitVec 8) (mantissa : BitVec 23) :
    unpack binary32 (packComponents binary32 (-sign) exponent mantissa) =
      (unpack binary32 (packComponents binary32 sign exponent mantissa)).neg := by
  rw [unpack_eq_ofFields, unpack_eq_ofFields, neg_ofFields]
  simp only [unpackSign_packComponents, unpackExponent_packComponents,
    unpackMantissa_packComponents]

theorem unpack_pack_neg (number : UnpackedFloat) :
    unpack binary32 (pack binary32 number.neg) = (unpack binary32 (pack binary32 number)).neg := by
  cases number with
  | notANumber =>
      exact unpack_pack_notANumber.trans (congrArg UnpackedFloat.neg unpack_pack_notANumber).symm
  | infinity sign => exact unpack_packComponents_neg sign _ _
  | zero sign => exact unpack_packComponents_neg sign _ _
  | finite sign digits place positive =>
      change unpack binary32 (pack binary32 (.finite (-sign) digits place positive)) = _
      unfold pack packedInfinity
      dsimp only
      split_ifs <;> exact unpack_packComponents_neg sign _ _

theorem roundWithAccuracy_neg (sign : Sign) (digits : ℕ) (place : ℤ) (accuracy : Accuracy) :
    roundWithAccuracy binary32 (-sign) digits place accuracy =
      (roundWithAccuracy binary32 sign digits place accuracy).neg := by
  unfold roundWithAccuracy
  dsimp only
  rw [apply_dite UnpackedFloat.neg]
  rfl

theorem normalize_neg {number : ℤ} (ne : number ≠ 0) (place : ℤ) (sign : Sign) :
    UnpackedFloat.normalize binary32 (-number) place sign =
      (UnpackedFloat.normalize binary32 number place sign).neg := by
  rcases lt_or_gt_of_ne ne with negative | positive
  · rw [UnpackedFloat.normalize, UnpackedFloat.normalize, compare_lt_iff_lt.mpr negative,
      compare_gt_iff_gt.mpr (neg_pos.mpr negative)]
    exact roundWithAccuracy_neg .negative _ _ _
  · rw [UnpackedFloat.normalize, UnpackedFloat.normalize, compare_gt_iff_gt.mpr positive,
      compare_lt_iff_lt.mpr (neg_neg_of_pos positive), neg_neg]
    exact roundWithAccuracy_neg .positive _ _ _

theorem neg_mul_unpacked (number number' : UnpackedFloat) :
    UnpackedFloat.mul binary32 number.neg number' =
      (UnpackedFloat.mul binary32 number number').neg := by
  have signs (sign sign' : Sign) : -sign * sign' = -(sign * sign') := by
    cases sign <;> cases sign' <;> rfl
  cases number <;> cases number' <;> dsimp only [UnpackedFloat.neg, UnpackedFloat.mul] <;>
    rw [signs]
  case finite.finite => exact roundWithAccuracy_neg _ _ _ _

theorem neg_div_unpacked (number number' : UnpackedFloat) :
    UnpackedFloat.div binary32 number.neg number' =
      (UnpackedFloat.div binary32 number number').neg := by
  have signs (sign sign' : Sign) : -sign / sign' = -(sign / sign') := by
    cases sign <;> cases sign' <;> rfl
  cases number <;> cases number' <;> dsimp only [UnpackedFloat.neg, UnpackedFloat.div] <;>
    rw [signs]
  case finite.finite => exact roundWithAccuracy_neg _ _ _ _

theorem mul_comm_unpacked (number number' : UnpackedFloat) :
    UnpackedFloat.mul binary32 number number' = UnpackedFloat.mul binary32 number' number := by
  have signs (sign sign' : Sign) : sign * sign' = sign' * sign := by
    cases sign <;> cases sign' <;> rfl
  cases number <;> cases number' <;> dsimp only [UnpackedFloat.mul] <;> rw [signs]
  case finite.finite digits place _ _ _ _ _ => rw [mul_comm digits, add_comm place]

/-! ### Numbers of 32 bits -/

theorem ofModel_pack_neg (number : UnpackedFloat) :
    Float32.ofModel (.pack number.neg) = -.ofModel (.pack number) := by
  apply eq_of_unpack_eq
  rw [unpack_neg]
  exact unpack_pack_neg number

theorem neg_mul_single (a b : Float32) : -a * b = -(a * b) := by
  have product : -a * b = .ofModel (.pack
      (UnpackedFloat.mul binary32 (-a).toModel.unpack b.toModel.unpack)) := rfl
  rw [product, unpack_neg, neg_mul_unpacked]
  exact ofModel_pack_neg _

theorem neg_div_single (a b : Float32) : -a / b = -(a / b) := by
  have quotient : -a / b = .ofModel (.pack
      (UnpackedFloat.div binary32 (-a).toModel.unpack b.toModel.unpack)) := rfl
  rw [quotient, unpack_neg, neg_div_unpacked]
  exact ofModel_pack_neg _

theorem mul_comm_single (a b : Float32) : a * b = b * a :=
  congrArg (fun product => Float32.ofModel (.pack product)) (mul_comm_unpacked _ _)

theorem mul_neg_single (a b : Float32) : a * -b = -(a * b) := by
  rw [mul_comm_single, neg_mul_single, mul_comm_single]

theorem neg_neg_single (a : Float32) : - -a = a := by
  apply eq_of_unpack_eq
  rw [unpack_neg, unpack_neg]
  cases a.toModel.unpack with
  | notANumber => rfl
  | _ sign => cases sign <;> rfl

end ArcGraph.Binary
