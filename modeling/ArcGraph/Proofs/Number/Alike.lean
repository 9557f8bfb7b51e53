import ArcGraph.Proofs.Number.Negation

/-!
Numbers of 32 bits up to the sign of a zero.

A difference turned round is the opposite difference, except where there is
none: then both are the positive zero. Sums, products and quotients keep such
results alike.
-/

namespace ArcGraph.Binary

open Float.Model (UnpackedFloat)
open Float.Model.UnpackedFloat
open Float.Model.Format (binary32)

/-- The two are the same number. The zeros of both signs are one. -/
def Alike (a b : Float32) : Prop :=
  a = b ∨ (a == b) = true

instance decidableAlike (a b : Float32) : Decidable (Alike a b) :=
  inferInstanceAs (Decidable (a = b ∨ (a == b) = true))

def IsZero (a : Float32) : Prop :=
  ∃ sign, a.toModel.unpack = .zero sign

theorem isZero_zero : IsZero (Float32.ofNat 0) :=
  ⟨.positive, rfl⟩

theorem isZero_iff_of_has {a : Float32} {sign : Sign} {bits : ℕ} (has : Has a sign bits) :
    IsZero a ↔ bits = 0 := by
  constructor
  · rintro ⟨sign', zero⟩
    have same := has.symm.trans zero
    by_contra nonzero
    unfold signed at same
    split at same
    case isTrue =>
      rw [unbounded_pos sign (significand_pos nonzero)] at same
      cases same
    case isFalse => cases same
  · rintro rfl
    exact ⟨sign, has⟩

theorem eq_of_compare_eq {number number' : UnpackedFloat}
    (eq : number.compare number' = some .eq) :
    number = number' ∨ (∃ sign, number = .zero sign) ∧ ∃ sign, number' = .zero sign := by
  cases number with
  | notANumber => cases number' <;> cases eq
  | infinity sign =>
      cases number' with
      | infinity sign' => cases sign <;> cases sign' <;> first | exact .inl rfl | cases eq
      | _ => cases sign <;> cases eq
  | zero sign =>
      cases number' with
      | zero sign' => exact .inr ⟨⟨sign, rfl⟩, sign', rfl⟩
      | infinity sign' => cases sign' <;> cases eq
      | finite sign' => cases sign' <;> cases eq
      | _ => cases eq
  | finite sign digits place =>
      cases number' with
      | finite sign' digits' place' =>
          have same : sign = sign' ∧
              (compare place place').then (compare digits digits') = .eq := by
            cases sign with
            | negative =>
                cases sign' with
                | negative => exact ⟨rfl, Ordering.swap_inj.mp (Option.some.inj eq)⟩
                | positive => cases eq
            | positive =>
                cases sign' with
                | negative => cases eq
                | positive => exact ⟨rfl, Option.some.inj eq⟩
          simp only [Ordering.then_eq_eq, compare_eq_iff_eq] at same
          obtain ⟨rfl, rfl, rfl⟩ := same
          exact .inl rfl
      | infinity sign' => cases sign' <;> cases eq
      | zero => cases sign <;> cases eq
      | notANumber => cases eq

variable {a b c : Float32}

theorem IsZero.neg (zero : IsZero a) : IsZero (-a) := by
  obtain ⟨sign, zero⟩ := zero
  exact ⟨-sign, by rw [unpack_neg, zero]; rfl⟩

theorem unpack_pack_zero (sign : Sign) :
    unpack binary32 (pack binary32 (.zero sign)) = .zero sign := by
  have packed := unpack_pack_unbounded sign 0
  rwa [(signed_of_lt sign (by decide)).1, unbounded_zero] at packed

theorem IsZero.abs (zero : IsZero a) : IsZero a.abs := by
  obtain ⟨sign, zero⟩ := zero
  rw [IsZero, unpack_abs, zero]
  exact ⟨.positive, unpack_pack_zero .positive⟩

theorem IsZero.alike (zero : IsZero a) (zero' : IsZero b) : Alike a b := by
  obtain ⟨sign, zero⟩ := zero
  obtain ⟨sign', zero'⟩ := zero'
  refine .inr ?_
  change a.toModel.unpack.beq b.toModel.unpack = true
  rw [zero, zero']
  rfl

namespace Alike

theorem eq_or_isZero (alike : Alike a b) : a = b ∨ IsZero a ∧ IsZero b := by
  rcases alike with eq | equal
  · exact .inl eq
  · have equal : a.toModel.unpack.compare b.toModel.unpack = some .eq := beq_iff_eq.mp equal
    exact (eq_of_compare_eq equal).imp_left eq_of_unpack_eq

theorem isZero (alike : Alike a (Float32.ofNat 0)) : IsZero a := by
  rcases alike.eq_or_isZero with rfl | ⟨zero, -⟩
  · exact isZero_zero
  · exact zero

theorem refl (a : Float32) : Alike a a :=
  .inl rfl

theorem symm (alike : Alike a b) : Alike b a := by
  rcases alike.eq_or_isZero with rfl | ⟨zero, zero'⟩
  · exact .refl a
  · exact zero'.alike zero

theorem trans (alike : Alike a b) (alike' : Alike b c) : Alike a c := by
  rcases alike.eq_or_isZero with rfl | ⟨zero, zero'⟩
  · exact alike'
  · rcases alike'.eq_or_isZero with rfl | ⟨-, zero''⟩
    · exact alike
    · exact zero.alike zero''

theorem isNaN_eq (alike : Alike a b) : a.isNaN = b.isNaN := by
  rcases alike.eq_or_isZero with rfl | ⟨⟨sign, zero⟩, sign', zero'⟩
  · rfl
  · change a.toModel.unpack.isNaN = b.toModel.unpack.isNaN
    rw [zero, zero']
    rfl

/-! ### Operations -/

theorem of_pack {number number' : UnpackedFloat}
    (same : number = number' ∨ (∃ sign, number = .zero sign) ∧ ∃ sign, number' = .zero sign) :
    Alike (.ofModel (.pack number)) (.ofModel (.pack number')) := by
  rcases same with rfl | ⟨⟨sign, rfl⟩, sign', rfl⟩
  · exact .refl _
  · cases sign <;> cases sign' <;> first | exact .inl rfl | exact .inr rfl

theorem neg (alike : Alike a b) : Alike (-a) (-b) := by
  rcases alike.eq_or_isZero with rfl | ⟨zero, zero'⟩
  · exact .refl _
  · exact zero.neg.alike zero'.neg

theorem add_left (alike : Alike a b) (c : Float32) : Alike (c + a) (c + b) := by
  rcases alike.eq_or_isZero with rfl | ⟨⟨sign, zero⟩, sign', zero'⟩
  · exact .refl _
  apply of_pack
  rw [zero, zero']
  cases c.toModel.unpack with
  | zero sign'' => cases sign'' <;> cases sign <;> cases sign' <;> exact .inr ⟨⟨_, rfl⟩, _, rfl⟩
  | _ => exact .inl rfl

theorem mul_left (alike : Alike a b) (c : Float32) : Alike (c * a) (c * b) := by
  rcases alike.eq_or_isZero with rfl | ⟨⟨sign, zero⟩, sign', zero'⟩
  · exact .refl _
  apply of_pack
  rw [zero, zero']
  cases c.toModel.unpack with
  | zero | finite => exact .inr ⟨⟨_, rfl⟩, _, rfl⟩
  | _ => exact .inl rfl

theorem div_right (alike : Alike a b) (c : Float32) : Alike (a / c) (b / c) := by
  rcases alike.eq_or_isZero with rfl | ⟨⟨sign, zero⟩, sign', zero'⟩
  · exact .refl _
  apply of_pack
  rw [zero, zero']
  cases c.toModel.unpack with
  | infinity | finite => exact .inr ⟨⟨_, rfl⟩, _, rfl⟩
  | _ => exact .inl rfl

theorem mul_self_eq (alike : Alike a (-b)) : a * a = b * b := by
  rcases alike.eq_or_isZero with rfl | ⟨⟨sign, zero⟩, zero'⟩
  · rw [neg_mul_single, mul_neg_single, neg_neg_single]
  · obtain ⟨sign', zero'⟩ := neg_neg_single b ▸ zero'.neg
    have square (sign : Sign) :
        UnpackedFloat.mul binary32 (.zero sign) (.zero sign) = .zero .positive := by
      cases sign <;> rfl
    have squares : UnpackedFloat.mul binary32 a.toModel.unpack a.toModel.unpack =
        UnpackedFloat.mul binary32 b.toModel.unpack b.toModel.unpack := by
      rw [zero, zero', square, square]
    exact congrArg (fun product => Float32.ofModel (.pack product)) squares

theorem add_zero (a : Float32) {zero : Float32} (none : IsZero zero) : Alike (a + zero) a := by
  obtain ⟨sign, none⟩ := none
  have wide : 2 ≤ binary32.exponentBits := by decide
  have packed : a = .ofModel (.pack a.toModel.unpack) :=
    eq_of_unpack_eq (congrArg (unpack binary32) (pack_unpack wide a.toModel.valid)).symm
  nth_rewrite 2 [packed]
  apply of_pack
  rw [none]
  cases a.toModel.unpack with
  | zero sign' => cases sign <;> cases sign' <;> exact .inr ⟨⟨_, rfl⟩, _, rfl⟩
  | _ => exact .inl rfl

end Alike

theorem sub_swap_unpacked (number number' : UnpackedFloat) :
    UnpackedFloat.sub binary32 number' number = (UnpackedFloat.sub binary32 number number').neg ∨
      (∃ sign, UnpackedFloat.sub binary32 number' number = .zero sign) ∧
        ∃ sign, (UnpackedFloat.sub binary32 number number').neg = .zero sign := by
  cases number with
  | notANumber => cases number' <;> exact .inl rfl
  | infinity sign =>
      cases number' with
      | infinity sign' => cases sign <;> cases sign' <;> exact .inl rfl
      | _ => cases sign <;> exact .inl rfl
  | zero sign =>
      cases number' with
      | zero sign' => cases sign <;> cases sign' <;> exact .inr ⟨⟨_, rfl⟩, _, rfl⟩
      | infinity sign' | finite sign' => cases sign' <;> exact .inl rfl
      | _ => exact .inl rfl
  | finite sign digits place =>
      cases number' with
      | finite sign' digits' place' =>
          dsimp only [UnpackedFloat.sub]
          rw [min_comm place, ← neg_sub (sign.apply _)]
          generalize sign.apply _ - sign'.apply _ = difference
          by_cases none : difference = 0
          · subst none
            exact .inr ⟨⟨.positive, rfl⟩, .negative, rfl⟩
          · exact .inl (normalize_neg none _ _)
      | infinity sign' => cases sign' <;> exact .inl rfl
      | _ => cases sign <;> exact .inl rfl

theorem alike_sub_swap (a b : Float32) : Alike (b - a) (-(a - b)) := by
  have negated : -(a - b) = .ofModel (.pack
      (UnpackedFloat.sub binary32 a.toModel.unpack b.toModel.unpack).neg) :=
    (ofModel_pack_neg _).symm
  rw [negated]
  exact .of_pack (sub_swap_unpacked _ _)

instance decidableIsZero (a : Float32) : Decidable (IsZero a) :=
  decidable_of_iff (Alike a (Float32.ofNat 0)) ⟨Alike.isZero, fun zero => zero.alike isZero_zero⟩

/-! ### The order -/

theorem Alike.le (alike : Alike a b) (number : a.isNaN = false) : a ≤ b := by
  rcases alike.eq_or_isZero with rfl | ⟨⟨sign, zero⟩, sign', zero'⟩
  · exact le_refl_of_number number
  · change decide ((a.toModel.unpack.compare b.toModel.unpack).any Ordering.isLE = true) = true
    rw [zero, zero']
    rfl

theorem alike_of_le_of_le (le : a ≤ b) (le' : b ≤ a) : Alike a b := by
  obtain ⟨sign, bits, sign', bits', has, has', le⟩ := exists_has_of_le le
  rw [le_iff_level has' has] at le'
  refine .inr ?_
  change (a.toModel.unpack.compare b.toModel.unpack == some .eq) = true
  rw [has, has', compare_signed, compare_eq_iff_eq.mpr (le_antisymm le le')]
  rfl

theorem lt_or_lt_of_not_alike (number : a.isNaN = false) (number' : b.isNaN = false)
    (apart : ¬Alike a b) : a < b ∨ b < a := by
  by_contra neither
  rw [not_or] at neither
  exact apart (alike_of_le_of_le (le_of_not_lt_single number' number neither.2)
    (le_of_not_lt_single number number' neither.1))

theorem not_lt_of_alike (alike : Alike a b) : ¬a < b := fun less =>
  not_le_of_lt less (alike.symm.le (not_isNaN_of_lt less).2)

theorem IsZero.lt_of_zero_lt (zero : IsZero a) (positive : Float32.ofNat 0 < b) : a < b := by
  have alike := zero.alike isZero_zero
  calc a
      ≤ Float32.ofNat 0 := alike.le (alike.isNaN_eq.trans rfl)
    _ < b := positive

theorem not_isZero_of_not_lt (positive : Float32.ofNat 0 < b) (large : ¬a < b) : ¬IsZero a :=
  fun zero => large (zero.lt_of_zero_lt positive)

theorem not_isZero_of_not_abs_lt (positive : Float32.ofNat 0 < b) (large : ¬a.abs < b) :
    ¬IsZero a := fun zero =>
  not_isZero_of_not_lt positive large zero.abs

theorem not_isZero_of_pos (positive : Float32.ofNat 0 < a) : ¬IsZero a :=
  not_isZero_of_not_lt positive fun less => not_le_of_lt less (le_of_lt_single less)

theorem zero_le_neg_of_lt (negative : a < Float32.ofNat 0) : Float32.ofNat 0 ≤ -a := by
  calc Float32.ofNat 0
      ≤ -Float32.ofNat 0 := (isZero_zero.alike isZero_zero.neg).le rfl
    _ ≤ -a := neg_le_neg_single (le_of_lt_single negative)

theorem alike_neg_add_neg (a b : Float32) : Alike (-a + -b) (-(a + b)) := by
  have swapped := alike_sub_swap a (-b)
  rwa [sub_eq_add_neg_single, sub_eq_add_neg_single, neg_neg_single, add_comm_single] at swapped

/-- A sum and that of the opposite numbers are not both negative. -/
theorem not_neg_add_neg_lt_zero (negative : a + b < Float32.ofNat 0) :
    ¬-a + -b < Float32.ofNat 0 := by
  have opposite := zero_le_neg_of_lt negative
  intro negative'
  apply not_le_of_lt negative'
  calc Float32.ofNat 0
      ≤ -(a + b) := opposite
    _ ≤ -a + -b := (alike_neg_add_neg a b).symm.le (not_isNaN_of_le opposite).2

theorem alike_of_add_alike_add_neg (nonneg : Float32.ofNat 0 ≤ b) (alike : Alike (a + b) (a + -b))
    (number : (a + b).isNaN = false) : Alike (a + b) a := by
  have known := left_isNaN_of_add number
  have same := Alike.add_zero a isZero_zero
  have same' := Alike.add_zero a isZero_zero.neg
  apply alike_of_le_of_le
  · have number' : (a + -b).isNaN = false := alike.isNaN_eq ▸ number
    have zero : (a + -Float32.ofNat 0).isNaN = false := same'.isNaN_eq.trans known
    calc a + b
        ≤ a + -b := alike.le number
      _ ≤ a + -Float32.ofNat 0 :=
          add_le_add_of_number (le_refl_of_number known) (neg_le_neg_single nonneg) number' zero
      _ ≤ a := same'.le zero
  · calc a
        ≤ a + Float32.ofNat 0 := same.symm.le known
      _ ≤ a + b := add_le_add_of_number (le_refl_of_number known) nonneg
          (same.isNaN_eq.trans known) number

/-- What makes no difference between adding it and taking it away is lost in the rounding. -/
theorem alike_of_add_alike_sub (alike : Alike (a + b) (a - b)) (number : (a + b).isNaN = false) :
    Alike (a + b) a := by
  rw [sub_eq_add_neg_single] at alike
  by_cases below : b < Float32.ofNat 0
  · have turned : Alike (a + -b) (a + - -b) := (neg_neg_single b).symm ▸ alike.symm
    exact alike.trans
      (alike_of_add_alike_add_neg (zero_le_neg_of_lt below) turned (alike.isNaN_eq ▸ number))
  · have known : b.isNaN = false := by
      rw [add_comm_single] at number
      exact left_isNaN_of_add number
    exact alike_of_add_alike_add_neg (le_of_not_lt_single known rfl below) alike number

/-! ### Signs of differences -/

section Differences

variable {sign sign' : Sign} {bits bits' : ℕ}

theorem level_eq_of_sized_eq (finite : bits < single.infinityBits)
    (finite' : bits' < single.infinityBits)
    (same : sized sign (single.value bits) = sized sign' (single.value bits')) :
    level sign bits = level sign' bits' := by
  rw [(signed_of_lt sign finite).2, (signed_of_lt sign' finite').2]
  have nonneg := single.value_nonneg bits
  have nonneg' := single.value_nonneg bits'
  have injective := single.value_strictMono.injective
  have zero (bits : ℕ) (value : single.value bits = 0) : bits = 0 :=
    injective (value.trans single.value_zero.symm)
  cases sign with
  | negative =>
      cases sign' with
      | negative => rw [injective (neg_injective same)]
      | positive =>
          simp only [sized] at same
          rw [zero bits (by linarith), zero bits' (by linarith)]
          rfl
  | positive =>
      cases sign' with
      | negative =>
          simp only [sized] at same
          rw [zero bits (by linarith), zero bits' (by linarith)]
          rfl
      | positive => rw [injective same]

theorem lt_iff_sized (has : Has a sign bits) (has' : Has b sign' bits')
    (finite : bits < single.infinityBits) (finite' : bits' < single.infinityBits) :
    a < b ↔ sized sign (single.value bits) < sized sign' (single.value bits') := by
  rw [lt_iff_level has has']
  constructor
  · intro less
    exact (sized_mono less.le finite finite').lt_of_ne fun same =>
      less.ne (level_eq_of_sized_eq finite finite' same)
  · intro less
    by_contra upward
    exact less.not_ge (sized_mono (not_lt.mp upward) finite' finite)

/-- Finite numbers are multiples of the smallest positive one. -/
theorem exists_sized_eq (sign : Sign) (bits : ℕ) :
    ∃ multiple : ℤ, sized sign (single.value bits) = multiple * single.value 1 := by
  have unit : single.value 1 = 2 ^ (-149 : ℤ) := one_mul _
  have place : single.lastPlace bits = -149 + (bits / 8388608 - 1 : ℕ) := rfl
  have value : single.value bits =
      (single.significand bits * 2 ^ (bits / 8388608 - 1) : ℤ) * single.value 1 := by
    rw [Format.value, place, unit, zpow_add₀ two_ne_zero, zpow_natCast]
    push_cast
    ring
  cases sign with
  | negative => exact ⟨-_, by rw [sized, value, Int.cast_neg, neg_mul]⟩
  | positive => exact ⟨_, value⟩

theorem sized_neg (sign : Sign) (size : ℚ) : sized (-sign) size = -sized sign size := by
  cases sign with
  | negative => exact (neg_neg size).symm
  | positive => rfl

/-- A multiple of the smallest positive number is not rounded to zero. -/
theorem bits_pos_iff {size : ℚ} (multiple : ℤ) (nonneg : 0 ≤ size)
    (exact : sized sign size = multiple * single.value 1) (nearest : single.IsNearest bits size) :
    0 < bits ↔ 0 < size := by
  constructor
  · intro some
    refine nonneg.lt_of_ne fun none => some.ne ?_
    exact Format.isNearest_zero.unique (none ▸ nearest)
  · intro positive
    have unit : 0 < single.value 1 := single.value_zero ▸ single.value_strictMono Nat.zero_lt_one
    obtain ⟨whole, rfl⟩ : ∃ whole : ℤ, size = whole * single.value 1 := by
      cases sign with
      | negative => exact ⟨-multiple, by rw [Int.cast_neg, neg_mul, ← exact, sized, neg_neg]⟩
      | positive => exact ⟨multiple, exact⟩
    have one : (1 : ℚ) ≤ whole := by exact_mod_cast pos_of_mul_pos_left positive unit.le
    exact (single.isNearest_value 1).mono nearest (le_mul_of_one_le_left unit.le one)

theorem exists_has_of_isFinite (finite : a.isFinite = true) :
    ∃ sign bits, Has a sign bits ∧ bits < single.infinityBits := by
  rcases isNaN_or_has a with nan | ⟨sign, bits, has⟩
  · rw [isFinite_eq_false_iff.mpr (.inl nan)] at finite
    cases finite
  · exact ⟨sign, bits, has, (isFinite_iff_of_has has).mp finite⟩

theorem isNaN_of_isFinite (finite : a.isFinite = true) : a.isNaN = false := by
  obtain ⟨_, _, has, -⟩ := exists_has_of_isFinite finite
  exact isNaN_of_has has

theorem left_isFinite_of_add (finite : (a + b).isFinite = true) : a.isFinite = true := by
  have number := isNaN_of_isFinite finite
  obtain ⟨sign, bits, has⟩ := exists_has (left_isNaN_of_add number)
  rw [isFinite_iff_of_has has]
  by_contra infinite
  have sum := has_add_of_left has (not_lt.mp infinite) number
  exact infinite ((isFinite_iff_of_has sum).mp finite)

/-- Finite numbers are told apart by the sign of their difference. -/
theorem sub_lt_zero_iff (finite : a.isFinite = true) (finite' : b.isFinite = true) :
    a - b < Float32.ofNat 0 ↔ a < b := by
  obtain ⟨sign, bits, has, finite⟩ := exists_has_of_isFinite finite
  obtain ⟨sign', bits', has', finite'⟩ := exists_has_of_isFinite finite'
  obtain ⟨sign'', size, bits'', nonneg, exact, nearest, difference⟩ :=
    exists_has_add has (has_neg has') finite finite'
  rw [sized_neg, ← sub_eq_add_neg] at exact
  rw [← sub_eq_add_neg_single] at difference
  obtain ⟨multiple, first⟩ := exists_sized_eq sign bits
  obtain ⟨multiple', last⟩ := exists_sized_eq sign' bits'
  have some : 0 < bits'' ↔ 0 < size :=
    bits_pos_iff (multiple - multiple') nonneg
      (by rw [← exact, first, last, ← sub_mul, ← Int.cast_sub]) nearest
  have order : a < b ↔ sized sign'' size < 0 := by
    rw [lt_iff_sized has has' finite finite', ← exact, sub_neg]
  rw [order, lt_iff_level difference has_zero]
  change level sign'' bits'' < 0 ↔ _
  have infinite : 0 < single.infinityBits := by decide
  cases sign'' with
  | negative =>
      simp only [level, Sign.apply, sized, neg_lt_zero, ← some]
      omega
  | positive => exact iff_of_false (Int.natCast_nonneg _).not_gt nonneg.not_gt

end Differences

end ArcGraph.Binary
