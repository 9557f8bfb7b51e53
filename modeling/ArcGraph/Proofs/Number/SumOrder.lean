import ArcGraph.Proofs.Number.Sum

/-!
The order of sums of 32 bits.

Larger summands do not make a sum smaller, as long as the sums are numbers. They
are, unless infinities of both signs meet.
-/

namespace ArcGraph.Binary

open Float.Model (UnpackedFloat)
open Float.Model.UnpackedFloat
open Float.Model.Format (binary32)

theorem level_mono {sign sign' : Sign} {size size' : ℚ} {bits bits' : ℕ} (nonneg : 0 ≤ size)
    (nonneg' : 0 ≤ size') (nearest : single.IsNearest bits size)
    (nearest' : single.IsNearest bits' size') (le : sized sign size ≤ sized sign' size') :
    level sign bits ≤ level sign' bits' := by
  have mono (ordered : size ≤ size') :
      min bits single.infinityBits ≤ min bits' single.infinityBits :=
    min_le_min_right _ (nearest.mono nearest' ordered)
  have antitone (ordered : size' ≤ size) :
      min bits' single.infinityBits ≤ min bits single.infinityBits :=
    min_le_min_right _ (nearest'.mono nearest ordered)
  cases sign with
  | negative =>
      cases sign' with
      | negative =>
          have ordered := antitone (neg_le_neg_iff.mp le)
          simp only [level, Sign.apply]
          omega
      | positive =>
          simp only [level, Sign.apply]
          omega
  | positive =>
      cases sign' with
      | negative =>
          -- Both are zero, and so are the patterns next to them.
          simp only [sized] at le
          have zero : size = 0 := by linarith
          have zero' : size' = 0 := by linarith
          subst zero zero'
          have none := nearest.unique Format.isNearest_zero
          have none' := nearest'.unique Format.isNearest_zero
          simp [level, Sign.apply, none, none']
      | positive => exact Int.ofNat_le.mpr (mono le)

theorem infinity_add (sign : Sign) (number : UnpackedFloat) :
    UnpackedFloat.add binary32 (.infinity sign) number = .infinity sign ∨
      UnpackedFloat.add binary32 (.infinity sign) number = .notANumber := by
  cases number with
  | infinity sign' => cases sign <;> cases sign' <;> first | exact .inl rfl | exact .inr rfl
  | notANumber => exact .inr rfl
  | zero => exact .inl rfl
  | finite => exact .inl rfl

theorem add_comm_unpacked (number number' : UnpackedFloat) :
    UnpackedFloat.add binary32 number number' = UnpackedFloat.add binary32 number' number := by
  cases number with
  | notANumber => cases number' <;> rfl
  | infinity sign =>
      cases number' with
      | infinity sign' => cases sign <;> cases sign' <;> rfl
      | _ => rfl
  | zero sign =>
      cases number' with
      | zero sign' => cases sign <;> cases sign' <;> rfl
      | _ => rfl
  | finite sign digits place =>
      cases number' with
      | finite sign' digits' place' =>
          unfold UnpackedFloat.add
          dsimp only
          rw [min_comm place, add_comm (sign.apply _)]
      | _ => rfl

section Words

variable {a a' b b' : Float32} {sign sign' : Sign} {bits bits' : ℕ}

theorem unpack_add (a b : Float32) : (a + b).toModel.unpack = unpack binary32 (pack binary32
    (UnpackedFloat.add binary32 a.toModel.unpack b.toModel.unpack)) := rfl

theorem add_comm_single (a b : Float32) : a + b = b + a :=
  congrArg (fun sum => Float32.ofModel (.pack sum)) (add_comm_unpacked _ _)

/-- An infinite summand makes the sum infinite, if it is a number at all. -/
theorem has_add_of_left (has : Has a sign bits) (infinite : single.infinityBits ≤ bits)
    (number : (a + b).isNaN = false) : Has (a + b) sign bits := by
  have first : a.toModel.unpack = .infinity sign := has.trans (signed_of_le sign infinite).1
  change (a + b).toModel.unpack.isNaN = false at number
  rw [unpack_add, first] at number
  rw [Has, unpack_add, first, (signed_of_le sign infinite).1]
  rcases infinity_add sign b.toModel.unpack with sum | sum
  · rw [sum, unpack_pack_infinity]
  · rw [sum, unpack_pack_notANumber] at number
    cases number

theorem has_add_of_right (has : Has b sign bits) (infinite : single.infinityBits ≤ bits)
    (number : (a + b).isNaN = false) : Has (a + b) sign bits := by
  rw [add_comm_single] at number ⊢
  exact has_add_of_left has infinite number

theorem exists_has_add (has : Has a sign bits) (has' : Has b sign' bits')
    (finite : bits < single.infinityBits) (finite' : bits' < single.infinityBits) :
    ∃ sign'' size bits'', 0 ≤ size ∧
      sized sign (single.value bits) + sized sign' (single.value bits') = sized sign'' size ∧
      single.IsNearest bits'' size ∧ Has (a + b) sign'' bits'' := by
  have sum := rounds_add sign sign' bits bits'
  rw [← (signed_of_lt sign finite).1, ← (signed_of_lt sign' finite').1, ← has, ← has'] at sum
  exact sum

theorem exists_has_add_of_positive (has : Has a .positive bits) (has' : Has b .positive bits')
    (finite : bits < single.infinityBits) (finite' : bits' < single.infinityBits) :
    ∃ sign sum, single.IsNearest sum (single.value bits + single.value bits') ∧
      Has (a + b) sign sum := by
  obtain ⟨sign, size, sum, nonneg, exact, nearest, total⟩ := exists_has_add has has' finite finite'
  have nonneg' := single.value_nonneg bits
  have nonneg'' := single.value_nonneg bits'
  have same : single.value bits + single.value bits' = size := by
    cases sign with
    | negative =>
        simp only [sized] at exact
        linarith
    | positive => exact exact
  exact ⟨sign, sum, same ▸ nearest, total⟩

theorem sized_mono (le : level sign bits ≤ level sign' bits') (finite : bits < single.infinityBits)
    (finite' : bits' < single.infinityBits) :
    sized sign (single.value bits) ≤ sized sign' (single.value bits') := by
  rw [(signed_of_lt sign finite).2, (signed_of_lt sign' finite').2] at le
  have nonneg := single.value_nonneg bits
  have nonneg' := single.value_nonneg bits'
  cases sign with
  | negative =>
      cases sign' with
      | negative =>
          have ordered : bits' ≤ bits := by simpa [Sign.apply] using le
          exact neg_le_neg (single.value_strictMono.monotone ordered)
      | positive => exact (neg_nonpos.mpr nonneg).trans nonneg'
  | positive =>
      cases sign' with
      | negative =>
          simp only [Sign.apply] at le
          obtain rfl : bits = 0 := by omega
          obtain rfl : bits' = 0 := by omega
          rw [sized_zero, sized_zero]
      | positive => exact single.value_strictMono.monotone (Int.ofNat_le.mp le)

/-- Of two numbers in order, the lower is the lowest of all, or the upper the uppermost, or both
are finite. -/
theorem finite_or_extreme (le : level sign bits ≤ level sign' bits') :
    (bits < single.infinityBits ∧ bits' < single.infinityBits) ∨
      (sign = .negative ∧ single.infinityBits ≤ bits) ∨
      (sign' = .positive ∧ single.infinityBits ≤ bits') := by
  have positive : 0 < single.infinityBits := by decide
  cases sign <;> cases sign' <;>
    simp only [level, Sign.apply, reduceCtorEq, true_and, false_and, false_or, or_false] at le ⊢ <;>
    omega

theorem le_of_has_negative (has : Has a .negative bits) (infinite : single.infinityBits ≤ bits)
    (number : b.isNaN = false) : a ≤ b := by
  obtain ⟨sign', bits', has'⟩ := exists_has number
  rw [le_iff_level has has', (signed_of_le .negative infinite).2]
  cases sign' <;> simp only [level, Sign.apply] <;> omega

theorem le_of_has_positive (has : Has b .positive bits) (infinite : single.infinityBits ≤ bits)
    (number : a.isNaN = false) : a ≤ b := by
  obtain ⟨sign', bits', has'⟩ := exists_has number
  rw [le_iff_level has' has, (signed_of_le .positive infinite).2]
  cases sign' <;> simp only [level, Sign.apply] <;> omega

/-- Larger summands do not make a sum smaller. -/
theorem add_le_add_of_number (le : a ≤ a') (le' : b ≤ b') (number : (a + b).isNaN = false)
    (number' : (a' + b').isNaN = false) : a + b ≤ a' + b' := by
  obtain ⟨sign₁, bits₁, sign₁', bits₁', first, first', le⟩ := exists_has_of_le le
  obtain ⟨sign₂, bits₂, sign₂', bits₂', last, last', le'⟩ := exists_has_of_le le'
  -- An infinite summand makes the lower sum the lowest number, or the upper one the uppermost.
  rcases finite_or_extreme le with ⟨finite₁, finite₁'⟩ | ⟨rfl, infinite⟩ | ⟨rfl, infinite⟩
  · rcases finite_or_extreme le' with ⟨finite₂, finite₂'⟩ | ⟨rfl, infinite⟩ | ⟨rfl, infinite⟩
    · obtain ⟨sign, size, bits, nonneg, exact, nearest, sum⟩ :=
        exists_has_add first last finite₁ finite₂
      obtain ⟨sign', size', bits', nonneg', exact', nearest', sum'⟩ :=
        exists_has_add first' last' finite₁' finite₂'
      have ordered := add_le_add (sized_mono le finite₁ finite₁') (sized_mono le' finite₂ finite₂')
      rw [exact, exact'] at ordered
      exact (le_iff_level sum sum').mpr (level_mono nonneg nonneg' nearest nearest' ordered)
    · exact le_of_has_negative (has_add_of_right last infinite number) infinite number'
    · exact le_of_has_positive (has_add_of_right last' infinite number') infinite number
  · exact le_of_has_negative (has_add_of_left first infinite number) infinite number'
  · exact le_of_has_positive (has_add_of_left first' infinite number') infinite number

/-! ### Sums that are numbers -/

theorem isFinite_iff_of_has (has : Has a sign bits) :
    a.isFinite = true ↔ bits < single.infinityBits := by
  change a.toModel.unpack.isFinite = true ↔ _
  rw [has, signed]
  split
  case isTrue finite =>
    refine iff_of_true ?_ finite
    rcases unbounded_cases bits with number | ⟨_, _, _, number⟩ <;> rw [number] <;> rfl
  case isFalse infinite => exact iff_of_false Bool.false_ne_true infinite

theorem isNaN_signed (sign : Sign) (bits : ℕ) : (signed sign bits).isNaN = false := by
  rw [signed]
  split
  case isTrue =>
    rcases unbounded_cases bits with number | ⟨_, _, _, number⟩ <;> rw [number] <;> rfl
  case isFalse => rfl

theorem isNaN_of_has (has : Has a sign bits) : a.isNaN = false :=
  (congrArg UnpackedFloat.isNaN has).trans (isNaN_signed sign bits)

theorem isNaN_of_add (sum : UnpackedFloat.add binary32 a.toModel.unpack b.toModel.unpack =
    .notANumber) : (a + b).isNaN = true := by
  change (a + b).toModel.unpack.isNaN = true
  rw [unpack_add, sum, unpack_pack_notANumber]
  rfl

theorem isNaN_eq_false_of_add (sign : Sign)
    (sum : UnpackedFloat.add binary32 a.toModel.unpack b.toModel.unpack = .infinity sign) :
    (a + b).isNaN = false := by
  change (a + b).toModel.unpack.isNaN = false
  rw [unpack_add, sum, unpack_pack_infinity]
  rfl

theorem left_isNaN_of_add (number : (a + b).isNaN = false) : a.isNaN = false := by
  change a.toModel.unpack.isNaN = false
  cases first : a.toModel.unpack with
  | notANumber =>
      have nan : (a + b).isNaN = true := isNaN_of_add (by rw [first]; rfl)
      rw [number] at nan
      cases nan
  | _ => rfl

/-- A finite and an infinite number have a sum. -/
theorem isNaN_add_of_infinite (has : Has a sign bits) (has' : Has b sign' bits')
    (finite : bits < single.infinityBits) (infinite : single.infinityBits ≤ bits') :
    (a + b).isNaN = false := by
  apply isNaN_eq_false_of_add sign'
  rw [has, has', (signed_of_lt sign finite).1, (signed_of_le sign' infinite).1]
  rcases unbounded_cases bits with number | ⟨_, _, _, number⟩ <;> rw [number] <;> rfl

/-- A sum of numbers is no number just if it is one of opposite infinities. -/
theorem isNaN_add_eq_false_iff (has : Has a sign bits) (has' : Has b sign' bits') :
    (a + b).isNaN = false ↔
      bits < single.infinityBits ∨ bits' < single.infinityBits ∨ sign = sign' := by
  rcases lt_or_ge bits single.infinityBits with finite | infinite
  · refine iff_of_true ?_ (.inl finite)
    rcases lt_or_ge bits' single.infinityBits with finite' | infinite'
    · obtain ⟨_, _, _, _, _, _, sum⟩ := exists_has_add has has' finite finite'
      exact isNaN_of_has sum
    · exact isNaN_add_of_infinite has has' finite infinite'
  · rcases lt_or_ge bits' single.infinityBits with finite' | infinite'
    · refine iff_of_true ?_ (.inr (.inl finite'))
      rw [add_comm_single]
      exact isNaN_add_of_infinite has' has finite' infinite
    · have sum : UnpackedFloat.add binary32 a.toModel.unpack b.toModel.unpack =
          if sign == sign' then .infinity sign else .notANumber := by
        rw [has, has', (signed_of_le sign infinite).1, (signed_of_le sign' infinite').1]
        rfl
      by_cases same : sign = sign'
      · refine iff_of_true (isNaN_eq_false_of_add sign ?_) (.inr (.inr same))
        rw [sum, same]
        cases sign' <;> rfl
      · refine iff_of_false ?_ ?_
        · rw [isNaN_of_add, Bool.true_eq_false]
          · exact not_false
          · rw [sum]
            cases sign <;> cases sign' <;> first | rfl | exact absurd rfl same
        · rintro (finite | finite | same')
          · exact finite.not_ge infinite
          · exact finite.not_ge infinite'
          · exact same same'

/-! ### Differences -/

theorem unpack_pack_signed (sign : Sign) (bits : ℕ) :
    unpack binary32 (pack binary32 (signed sign bits)) = signed sign bits := by
  rcases lt_or_ge bits single.infinityBits with finite | infinite
  · rw [(signed_of_lt sign finite).1, unpack_pack_unbounded, (signed_of_lt sign finite).1]
  · rw [(signed_of_le sign infinite).1, unpack_pack_infinity]

theorem neg_unbounded (sign : Sign) (bits : ℕ) :
    (unbounded sign bits).neg = unbounded (-sign) bits := by
  rcases unbounded_cases bits with number | ⟨_, _, _, number⟩ <;> rw [number, number] <;> rfl

theorem neg_signed (sign : Sign) (bits : ℕ) : (signed sign bits).neg = signed (-sign) bits := by
  unfold signed
  split
  case isTrue => exact neg_unbounded sign bits
  case isFalse => rfl

theorem unpack_neg (a : Float32) : (-a).toModel.unpack = a.toModel.unpack.neg := by
  have negated : (-a).toModel.unpack = unpack binary32 (pack binary32 a.toModel.unpack.neg) := rfl
  rw [negated]
  rcases isNaN_or_has a with nan | ⟨sign, bits, has⟩
  · change a.toModel.unpack.isNaN = true at nan
    cases number : a.toModel.unpack with
    | notANumber => exact unpack_pack_notANumber
    | _ =>
        rw [number] at nan
        cases nan
  · rw [has, neg_signed, unpack_pack_signed]

theorem has_neg (has : Has a sign bits) : Has (-a) (-sign) bits := by
  rw [Has, unpack_neg, has, neg_signed]

theorem level_neg (sign : Sign) (bits : ℕ) : level (-sign) bits = -level sign bits := by
  cases sign with
  | negative => exact (neg_neg _).symm
  | positive => rfl

theorem neg_le_neg_single (le : a ≤ b) : -b ≤ -a := by
  obtain ⟨sign, bits, sign', bits', has, has', le⟩ := exists_has_of_le le
  rw [le_iff_level (has_neg has') (has_neg has), level_neg, level_neg]
  exact neg_le_neg le

theorem abs_signed (sign : Sign) (bits : ℕ) : (signed sign bits).abs = signed .positive bits := by
  unfold signed
  split
  case isTrue =>
    rcases unbounded_cases bits with number | ⟨_, _, _, number⟩ <;> rw [number, number] <;> rfl
  case isFalse => rfl

theorem unpack_abs (a : Float32) :
    a.abs.toModel.unpack = unpack binary32 (pack binary32 a.toModel.unpack.abs) := rfl

theorem has_abs (has : Has a sign bits) : Has a.abs .positive bits := by
  rw [Has, unpack_abs, has, abs_signed, unpack_pack_signed]

theorem value_le_of_abs_le {field : ℕ} (small : field < 254)
    (power : Has b .positive ((field + 1) * 8388608)) (le : a.abs ≤ b)
    (has : Has a sign bits) : single.value bits ≤ 2 ^ (field - 126 : ℤ) := by
  have finite : (field + 1) * 8388608 < single.infinityBits := by
    rw [infinityBits_single]
    omega
  rw [le_iff_level (has_abs has) power, (signed_of_lt .positive finite).2, level] at le
  rw [← value_power]
  apply single.value_strictMono.monotone
  simp only [Sign.apply] at le
  omega

theorem sub_eq_add_neg_unpacked (number number' : UnpackedFloat) :
    UnpackedFloat.sub binary32 number number' = UnpackedFloat.add binary32 number number'.neg := by
  cases number with
  | notANumber => cases number' <;> rfl
  | infinity sign =>
      cases number' with
      | infinity sign' => cases sign <;> cases sign' <;> rfl
      | _ => rfl
  | zero sign =>
      cases number' with
      | zero sign' => cases sign <;> cases sign' <;> rfl
      | _ => rfl
  | finite sign digits place =>
      cases number' with
      | finite sign' digits' place' =>
          have turned (n : ℤ) : sign'.apply n = -(-sign').apply n := by
            cases sign' with
            | negative => rfl
            | positive => exact (neg_neg n).symm
          dsimp only [UnpackedFloat.sub, UnpackedFloat.add, UnpackedFloat.neg]
          rw [turned, sub_neg_eq_add]
      | _ => rfl

theorem sub_eq_add_neg_single (a b : Float32) : a - b = a + -b := by
  have sum : a + -b = .ofModel (.pack
      (UnpackedFloat.add binary32 a.toModel.unpack (-b).toModel.unpack)) := rfl
  rw [sum, unpack_neg, ← sub_eq_add_neg_unpacked]
  rfl

/-! ### Sums with a number that is not negative -/

theorem has_zero : Has (Float32.ofNat 0) .positive 0 := rfl

theorem sign_of_nonneg (nonneg : Float32.ofNat 0 ≤ a) (has : Has a sign bits)
    (infinite : single.infinityBits ≤ bits) : sign = .positive := by
  rw [le_iff_level has_zero has, (signed_of_le sign infinite).2] at nonneg
  cases sign with
  | negative => cases (by decide : ¬(0 : ℤ) ≤ -single.infinityBits) nonneg
  | positive => rfl

theorem unpack_eq_infinity (nonneg : Float32.ofNat 0 ≤ a) (infinite : a.isFinite = false) :
    a.toModel.unpack = .infinity .positive := by
  obtain ⟨sign, bits, has⟩ := exists_has (not_isNaN_of_le nonneg).2
  have beyond : single.infinityBits ≤ bits := by
    by_contra finite
    rw [(isFinite_iff_of_has has).mpr (not_le.mp finite)] at infinite
    cases infinite
  obtain rfl := sign_of_nonneg nonneg has beyond
  exact has.trans (signed_of_le .positive beyond).1

/-- Above a number that is infinite and not negative there is only itself. -/
theorem exists_has_of_nonneg_le (nonneg : Float32.ofNat 0 ≤ a) (le : a ≤ b) :
    ∃ sign bits sign' bits', Has a sign bits ∧ Has b sign' bits' ∧
      (bits < single.infinityBits ∨ single.infinityBits ≤ bits' ∧ sign = sign') := by
  obtain ⟨sign, bits, sign', bits', has, has', le⟩ := exists_has_of_le le
  refine ⟨sign, bits, sign', bits', has, has', ?_⟩
  rcases lt_or_ge bits single.infinityBits with finite | infinite
  · exact .inl finite
  · obtain rfl := sign_of_nonneg nonneg has infinite
    rcases finite_or_extreme le with ⟨finite, -⟩ | ⟨opposite, -⟩ | ⟨rfl, infinite'⟩
    · exact absurd finite infinite.not_gt
    · cases opposite
    · exact .inr ⟨infinite', rfl⟩

variable {base : Float32}

/-- With a summand that is finite, or the same infinity, a sum remains a number. -/
theorem isNaN_add_eq_false_of_add (has : Has a sign bits) (has' : Has b sign' bits')
    (smaller : bits < single.infinityBits ∨ single.infinityBits ≤ bits' ∧ sign = sign')
    (number : (base + b).isNaN = false) : (base + a).isNaN = false := by
  obtain ⟨sign₀, bits₀, has₀⟩ := exists_has (left_isNaN_of_add number)
  rw [isNaN_add_eq_false_iff has₀ has'] at number
  rw [isNaN_add_eq_false_iff has₀ has]
  rcases smaller with finite | ⟨infinite, rfl⟩
  · exact .inr (.inl finite)
  · exact number.imp_right fun rest => .inr (rest.resolve_left infinite.not_gt)

theorem add_le_add_of_nonneg (nonneg : Float32.ofNat 0 ≤ a) (le : a ≤ b)
    (number : (base + b).isNaN = false) : base + a ≤ base + b := by
  obtain ⟨sign, bits, sign', bits', has, has', smaller⟩ := exists_has_of_nonneg_le nonneg le
  exact add_le_add_of_number (le_refl_of_number (left_isNaN_of_add number)) le
    (isNaN_add_eq_false_of_add has has' smaller number) number

theorem sub_le_sub_of_nonneg (nonneg : Float32.ofNat 0 ≤ a) (le : a ≤ b)
    (number : (base - b).isNaN = false) : base - b ≤ base - a := by
  rw [sub_eq_add_neg_single, sub_eq_add_neg_single] at *
  obtain ⟨sign, bits, sign', bits', has, has', smaller⟩ := exists_has_of_nonneg_le nonneg le
  have smaller' := smaller.imp_right fun same => same.imp_right (congrArg Neg.neg)
  exact add_le_add_of_number (le_refl_of_number (left_isNaN_of_add number))
    (neg_le_neg_single le) number
    (isNaN_add_eq_false_of_add (has_neg has) (has_neg has') smaller' number)

theorem lt_sub_of_lt_sub {x : Float32} (nonneg : Float32.ofNat 0 ≤ a) (le : a ≤ b)
    (less : x < base - b) : x < base - a := by
  calc x
      < base - b := less
    _ ≤ base - a := sub_le_sub_of_nonneg nonneg le (not_isNaN_of_lt less).2

theorem add_lt_of_add_lt {x : Float32} (nonneg : Float32.ofNat 0 ≤ a) (le : a ≤ b)
    (less : base + b < x) : base + a < x := by
  calc base + a
      ≤ base + b := add_le_add_of_nonneg nonneg le (not_isNaN_of_lt less).1
    _ < x := less

theorem isNaN_add_of_nonneg (nonneg : Float32.ofNat 0 ≤ a) (nonneg' : Float32.ofNat 0 ≤ b) :
    (a + b).isNaN = false := by
  obtain ⟨sign, bits, has⟩ := exists_has (not_isNaN_of_le nonneg).2
  obtain ⟨sign', bits', has'⟩ := exists_has (not_isNaN_of_le nonneg').2
  rw [isNaN_add_eq_false_iff has has']
  rcases lt_or_ge bits single.infinityBits with finite | infinite
  · exact .inl finite
  rcases lt_or_ge bits' single.infinityBits with finite' | infinite'
  · exact .inr (.inl finite')
  · obtain rfl := sign_of_nonneg nonneg has infinite
    obtain rfl := sign_of_nonneg nonneg' has' infinite'
    exact .inr (.inr rfl)

theorem nonneg_add (nonneg : Float32.ofNat 0 ≤ a) (nonneg' : Float32.ofNat 0 ≤ b) :
    Float32.ofNat 0 ≤ a + b := by
  have zero : Float32.ofNat 0 + Float32.ofNat 0 = Float32.ofNat 0 := rfl
  have sum := add_le_add_of_number nonneg nonneg' (isNaN_of_has has_zero)
    (isNaN_add_of_nonneg nonneg nonneg')
  rwa [zero] at sum

theorem isFinite_of_le (nonneg : Float32.ofNat 0 ≤ a) (le : a ≤ b) (finite : b.isFinite = true) :
    a.isFinite = true := by
  obtain ⟨sign, bits, sign', bits', has, has', smaller⟩ := exists_has_of_nonneg_le nonneg le
  rw [isFinite_iff_of_has has'] at finite
  rw [isFinite_iff_of_has has]
  rcases smaller with finite' | ⟨infinite, -⟩
  · exact finite'
  · exact absurd finite infinite.not_gt

end Words

end ArcGraph.Binary
