import ArcGraph.Proofs.Number.Negation
import ArcGraph.Proofs.Number.Numeral
import ArcGraph.Proofs.Number.Spelling
import ArcGraph.Style.File
import Mathlib.Tactic.IntervalCases

/-!
Numbers as they stand in a file.

A finite number is written with digits on both sides of a point, and without a
superfluous zero. Such a text is no date, no time and no whole number, so it is
read as the numeral that its digits make.
-/

namespace ArcGraph

/-- Digits with a point among them. -/
structure Fractional where
  whole : List Char
  fraction : List Char
  isDigit_whole : ∀ c ∈ whole, c.isDigit = true
  isDigit_fraction : ∀ c ∈ fraction, c.isDigit = true
  whole_ne_nil : whole ≠ []
  fraction_ne_nil : fraction ≠ []
  noLeadingZero : whole.head? = some '0' → whole.length = 1

namespace Fractional

variable (written : Fractional)

def text : List Char :=
  written.whole ++ '.' :: written.fraction

def numeral (negative : Bool) : Numeral :=
  ⟨negative, Digits.toNat (written.whole ++ written.fraction), -written.fraction.length⟩

theorem mem_text {c : Char} (member : c ∈ written.text) : c = '.' ∨ c.isDigit = true := by
  rw [text, List.mem_append, List.mem_cons] at member
  rcases member with whole | rfl | fraction
  · exact .inr (written.isDigit_whole c whole)
  · exact .inl rfl
  · exact .inr (written.isDigit_fraction c fraction)

theorem exists_text_eq_cons : ∃ c rest, written.text = c :: rest ∧ c.isDigit = true := by
  obtain ⟨c, rest, eq⟩ := List.exists_cons_of_ne_nil written.whole_ne_nil
  refine ⟨c, rest ++ '.' :: written.fraction, by rw [text, eq]; rfl, ?_⟩
  exact written.isDigit_whole c (by simp [eq])

end Fractional

section Writing

theorem head?_toDigits {n : ℕ} (nonzero : n ≠ 0) : (Nat.toDigits 10 n).head? ≠ some '0' := by
  induction n using Nat.strong_induction_on with
  | h n inductionHypothesis =>
      rw [Nat.toDigits_eq_if (by norm_num)]
      split
      case isTrue small =>
        interval_cases n <;> simp_all [Nat.digitChar]
      case isFalse large =>
        rw [List.head?_append_of_ne_nil _ Nat.toDigits_ne_nil]
        exact inductionHypothesis (n / 10) (by omega) (by omega)

theorem toNat_toDigits (n : ℕ) : Digits.toNat (Nat.toDigits 10 n) = n :=
  Nat.ofDigitChars_ten_toDigits

theorem toNat_append_replicate (digits : List Char) (count : ℕ) :
    Digits.toNat (digits ++ List.replicate count '0') = Digits.toNat digits * 10 ^ count := by
  have step := Nat.ofDigitChars_append (b := 10) (l := digits) (m := List.replicate count '0') 0
  rw [Nat.ofDigitChars_replicate_zero, mul_comm] at step
  exact step

theorem toNat_replicate_append (digits : List Char) (count : ℕ) :
    Digits.toNat (List.replicate count '0' ++ digits) = Digits.toNat digits := by
  have step := Nat.ofDigitChars_append (b := 10) (l := List.replicate count '0') (m := digits) 0
  rw [Nat.ofDigitChars_replicate_zero, mul_zero] at step
  exact step

theorem isDigit_of_mem_toDigits {n : ℕ} {c : Char} (member : c ∈ Nat.toDigits 10 n) :
    c.isDigit = true :=
  Nat.isDigit_of_mem_toDigits (by norm_num) (by norm_num) member

theorem isDigit_of_mem_replicate {count : ℕ} {c : Char} (member : c ∈ List.replicate count '0') :
    c.isDigit = true := by
  rw [List.eq_of_mem_replicate member]
  rfl

/-- The digits and the zeros up to the point, and a single zero behind it. -/
theorem exists_fractional_of_nonneg {digits : ℕ} (nonzero : digits ≠ 0) (power : ℕ) :
    ∃ written : Fractional,
      (Shortest.positional digits power ++ ".0").toList = written.text ∧
        written.fraction.length = 1 ∧
        ∀ negative, (written.numeral negative).ratio = digits * 10 ^ power := by
  refine ⟨{
    whole := Nat.toDigits 10 digits ++ List.replicate power '0'
    fraction := ['0']
    isDigit_whole := fun c member =>
      (List.mem_append.1 member).elim isDigit_of_mem_toDigits isDigit_of_mem_replicate
    isDigit_fraction := by simp
    whole_ne_nil := by simp
    fraction_ne_nil := by simp
    noLeadingZero := ?_ }, ?_, rfl, ?_⟩
  · rw [List.head?_append_of_ne_nil _ Nat.toDigits_ne_nil]
    exact fun zero => absurd zero (head?_toDigits nonzero)
  · simp [Shortest.positional, Fractional.text]
  · intro negative
    have shifted := toNat_append_replicate (Nat.toDigits 10 digits) (power + 1)
    rw [List.replicate_succ', ← List.append_assoc, toNat_toDigits] at shifted
    simp only [Numeral.ratio, Fractional.numeral, shifted, List.length_singleton]
    push_cast
    rw [zpow_neg_one, pow_succ]
    field_simp

/-- The last digits stand behind the point, after zeros where there are too few of them. -/
theorem exists_fractional_of_neg {digits : ℕ} (nonzero : digits ≠ 0) {places : ℕ}
    (ne : places ≠ 0) :
    ∃ written : Fractional,
      (Shortest.positional digits (-places)).toList = written.text ∧
        written.fraction.length = places ∧
        ∀ negative, (written.numeral negative).ratio = digits * 10 ^ (-places : ℤ) := by
  set padded := List.replicate (places + 1 - (Nat.toDigits 10 digits).length) '0' ++
    Nat.toDigits 10 digits with paddedDef
  have isDigit : ∀ c ∈ padded, c.isDigit = true := fun c member =>
    (List.mem_append.1 member).elim isDigit_of_mem_replicate isDigit_of_mem_toDigits
  have length : padded.length = max (places + 1) (Nat.toDigits 10 digits).length := by
    simp only [paddedDef, List.length_append, List.length_replicate]
    omega
  refine ⟨{
    whole := padded.take (padded.length - places)
    fraction := padded.drop (padded.length - places)
    isDigit_whole := fun c member => isDigit c (List.mem_of_mem_take member)
    isDigit_fraction := fun c member => isDigit c (List.mem_of_mem_drop member)
    whole_ne_nil := ?_
    fraction_ne_nil := ?_
    noLeadingZero := ?_ }, ?_, ?_, ?_⟩
  · rw [← List.length_pos_iff, List.length_take]
    omega
  · rw [← List.length_pos_iff, List.length_drop]
    omega
  · intro zero
    rcases Nat.lt_or_ge places (Nat.toDigits 10 digits).length with enough | few
    · have unpadded : padded = Nat.toDigits 10 digits := by
        rw [paddedDef, Nat.sub_eq_zero_of_le enough]
        rfl
      rw [List.head?_take, if_neg (by omega), unpadded] at zero
      exact absurd zero (head?_toDigits nonzero)
    · rw [List.length_take]
      omega
  · have below : ¬ (0 : ℤ) ≤ -places := by omega
    have count : (- -(places : ℤ)).toNat = places := by omega
    simp only [Shortest.positional, if_neg below, count, Nat.toList_repr, ← paddedDef,
      Fractional.text, String.toList_ofList]
  · simp only [List.length_drop]
    omega
  · intro negative
    have value : Digits.toNat padded = digits := by
      rw [paddedDef, toNat_replicate_append, toNat_toDigits]
    simp only [Numeral.ratio, Fractional.numeral, List.take_append_drop, value, List.length_drop]
    congr 2
    omega

/-- A positive decimal is written with digits on both sides of a point. -/
theorem exists_fractional {digits : ℕ} (nonzero : digits ≠ 0) (power : ℤ) :
    ∃ written : Fractional,
      (Shortest.positional digits power ++ if 0 ≤ power then ".0" else "").toList =
          written.text ∧
        (written.fraction.length : ℤ) = max 1 (-power) ∧
        ∀ negative, (written.numeral negative).ratio = digits * 10 ^ power := by
  rcases le_or_gt 0 power with nonneg | negative
  · lift power to ℕ using nonneg
    obtain ⟨written, text, length, ratio⟩ := exists_fractional_of_nonneg nonzero power
    rw [if_pos (Int.natCast_nonneg power)]
    refine ⟨written, text, by omega, fun negative => ?_⟩
    rw [ratio, zpow_natCast]
  · obtain ⟨places, rfl⟩ : ∃ places : ℕ, power = -places := ⟨(-power).toNat, by omega⟩
    obtain ⟨written, text, length, ratio⟩ :=
      exists_fractional_of_neg nonzero (show places ≠ 0 by omega)
    rw [if_neg (by omega), String.append_empty]
    exact ⟨written, text, by omega, ratio⟩

/-- Zero is written in the same way. -/
def Fractional.zero : Fractional where
  whole := ['0']
  fraction := ['0']
  isDigit_whole := by simp
  isDigit_fraction := by simp
  whole_ne_nil := by simp
  fraction_ne_nil := by simp
  noLeadingZero := by simp

end Writing

namespace Toml

section Moments

open Moment

theorem eq_append_of_digits? {count : ℕ} {text rest : List Char} {value : ℕ}
    (read : digits? count text = some (value, rest)) :
    ∃ taken, taken.length = count ∧ text = taken ++ rest := by
  simp only [digits?, Option.ite_none_right_eq_some] at read
  obtain ⟨⟨length, -⟩, eq⟩ := read
  cases eq
  exact ⟨text.take count, length, (List.take_append_drop count text).symm⟩

theorem eq_cons_of_mark? {c : Char} {text rest : List Char} (read : mark? c text = some rest) :
    text = c :: rest := by
  cases text with
  | nil => contradiction
  | cons first others =>
      simp only [mark?, Option.ite_none_right_eq_some] at read
      obtain ⟨rfl, eq⟩ := read
      cases eq
      rfl

/-- A date has a dash behind its first character. -/
theorem mem_tail_of_date? {text rest : List Char} (read : date? text = some rest) :
    '-' ∈ text.tail := by
  simp only [date?, Option.bind_eq_bind, Option.bind_eq_some_iff] at read
  obtain ⟨⟨year, behindYear⟩, year?, behindDash, dash?, -⟩ := read
  obtain ⟨taken, length, rfl⟩ := eq_append_of_digits? year?
  obtain rfl : behindYear = '-' :: behindDash := eq_cons_of_mark? dash?
  obtain ⟨c, others, rfl⟩ := List.exists_cons_of_length_pos (show 0 < taken.length by omega)
  simp

/-- A time has a colon. -/
theorem mem_of_time? {text rest : List Char} (read : time? text = some rest) : ':' ∈ text := by
  simp only [time?, field?, Option.bind_eq_bind, Option.bind_eq_some_iff] at read
  obtain ⟨behindHour, ⟨⟨hour, rest'⟩, hour?, eq⟩, behindColon, colon?, -⟩ := read
  obtain ⟨taken, length, rfl⟩ := eq_append_of_digits? hour?
  simp only [Option.ite_none_right_eq_some] at eq
  cases eq.2
  rw [eq_cons_of_mark? colon?]
  simp

theorem isMoment_eq_false {text : List Char} (dash : '-' ∉ text.tail) (colon : ':' ∉ text) :
    isMoment text = false := by
  have date : date? text = none := by
    cases read : date? text with
    | none => rfl
    | some rest => exact absurd (mem_tail_of_date? read) dash
  have time : time? text ≠ some [] := fun read => colon (mem_of_time? read)
  simp [isMoment, date, time]

end Moments

section Numbers

open Number

theorem ungroup?_eq_self {isDigit : Char → Bool} {text : List Char}
    (digits : ∀ c ∈ text, isDigit c = true) (plain : '_' ∉ text) (nonempty : text ≠ []) :
    ungroup? isDigit text = some text := by
  fun_induction ungroup? isDigit text with
  | case1 => contradiction
  | case2 c digit => rfl
  | case3 c other => exact absurd (digits c (by simp)) other
  | case4 c rest digit inductionHypothesis => simp at plain
  | case5 c rest other => simp at plain
  | case6 c rest single _ digit inductionHypothesis =>
      rw [inductionHypothesis (fun c member => digits c (by simp [member])) (by simp_all)
        (by rintro rfl; exact single rfl)]
      rfl
  | case7 c rest _ _ other => exact absurd (digits c (by simp)) other

theorem mem_of_ungroup? {isDigit : Char → Bool} {text digits : List Char}
    (read : ungroup? isDigit text = some digits) {c : Char} (member : c ∈ text) :
    isDigit c = true ∨ c = '_' := by
  fun_induction ungroup? isDigit text generalizing digits with
  | case1 => contradiction
  | case2 c' digit =>
      rw [List.mem_singleton.1 member]
      exact .inl digit
  | case3 => contradiction
  | case4 c' rest digit inductionHypothesis =>
      obtain ⟨digits', read', -⟩ := Option.map_eq_some_iff.1 read
      rcases List.mem_cons.1 member with rfl | member
      · exact .inl digit
      rcases List.mem_cons.1 member with rfl | member
      · exact .inr rfl
      · exact inductionHypothesis read' member
  | case5 => contradiction
  | case6 c' rest _ _ digit inductionHypothesis =>
      obtain ⟨digits', read', -⟩ := Option.map_eq_some_iff.1 read
      rcases List.mem_cons.1 member with rfl | member
      · exact .inl digit
      · exact inductionHypothesis read' member
  | case7 => contradiction

variable (written : Fractional)

theorem notMem_text {c : Char} (point : c ≠ '.') (other : c.isDigit = false) :
    c ∉ written.text := by
  intro member
  rcases written.mem_text member with rfl | digit
  · contradiction
  · rw [digit] at other
    contradiction

/-- Behind its sign a number has the characters of its text only. -/
def signed (negative : Bool) (text : List Char) : List Char :=
  if negative then '-' :: text else text

theorem splitSign_text (negative : Bool) :
    WrittenNumber.splitSign (signed negative written.text) = (negative, written.text) := by
  obtain ⟨c, rest, eq, digit⟩ := written.exists_text_eq_cons
  have unsigned : WrittenNumber.IsUnsigned written.text := by
    rw [eq]
    rintro c' ⟨⟩
    exact (WrittenNumber.start_of_isDigit digit).2
  cases negative with
  | false => exact WrittenNumber.splitSign_append .absent unsigned
  | true => exact WrittenNumber.splitSign_append .minus unsigned

theorem whole?_eq : whole? written.whole = some written.whole := by
  have plain : '_' ∉ written.whole := fun member =>
    absurd (written.isDigit_whole _ member) (by decide)
  rw [whole?, ungroup?_eq_self written.isDigit_whole plain written.whole_ne_nil]
  have := written.noLeadingZero
  simp only [Option.filter_some]
  split <;> simp_all

theorem decimal?_text (negative : Bool) :
    decimal? negative written.text = some (written.numeral negative) := by
  have mantissa : ∀ c ∈ written.text, (!(c = 'e' || c = 'E')) = true := by
    intro c member
    rcases written.mem_text member with rfl | digit
    · rfl
    · simp
      constructor <;> rintro rfl <;> contradiction
  have before : ∀ c ∈ written.whole, decide (c ≠ '.') = true := by
    intro c member
    refine decide_eq_true ?_
    rintro rfl
    exact absurd (written.isDigit_whole _ member) (by decide)
  have whole : written.text.takeWhile (· ≠ '.') = written.whole := by
    rw [Fractional.text, List.takeWhile_append_of_pos before,
      List.takeWhile_cons_of_neg (by decide), List.append_nil]
  have fraction : written.text.dropWhile (· ≠ '.') = '.' :: written.fraction := by
    rw [Fractional.text, List.dropWhile_append_of_pos before,
      List.dropWhile_cons_of_neg (by decide)]
  have plain : '_' ∉ written.fraction := fun member =>
    absurd (written.isDigit_fraction _ member) (by decide)
  have fraction? : Number.fraction? ('.' :: written.fraction) = some written.fraction :=
    ungroup?_eq_self written.isDigit_fraction plain written.fraction_ne_nil
  simp only [decimal?, List.takeWhile_eq_self_iff.2 mantissa, List.dropWhile_eq_nil_iff.2 mantissa,
    whole, fraction, whole?_eq, fraction?]
  simp [Number.exponent?, Fractional.numeral]

theorem read?_signed (negative : Bool) :
    Number.read? (signed negative written.text) = some (.decimal (written.numeral negative)) := by
  obtain ⟨c, rest, eq, digit⟩ := written.exists_text_eq_cons
  have notWord {letter : Char} (other : letter.isDigit = false) (others : List Char) :
      written.text ≠ letter :: others := by
    rw [eq]
    rintro ⟨⟩
    rw [digit] at other
    contradiction
  have notInfinite := notWord (show Char.isDigit 'i' = false by decide) ['n', 'f']
  have notNumber := notWord (show Char.isDigit 'n' = false by decide) ['a', 'n']
  rw [Number.read?, splitSign_text]
  simp [decimal?_text, notInfinite, notNumber]

theorem based?_signed (negative : Bool) : based? (signed negative written.text) = none := by
  unfold based?
  split
  case h_2 => rfl
  case h_1 letter rest eq =>
    obtain ⟨c, others, whole⟩ := List.exists_cons_of_ne_nil written.whole_ne_nil
    have single := written.noLeadingZero
    cases negative
    · rw [signed, if_neg (by decide), Fractional.text, whole, List.cons_append,
        List.cons.injEq] at eq
      obtain ⟨rfl, behind⟩ := eq
      rw [whole] at single
      obtain rfl : others = [] := by simpa using single rfl
      cases behind
      rfl
    · cases eq

theorem integer?_signed (negative : Bool) :
    Number.integer? (signed negative written.text) = none := by
  have point : '.' ∈ written.text := by simp [Fractional.text]
  have ungrouped : ungroup? Char.isDigit written.text = none := by
    cases read : ungroup? Char.isDigit written.text with
    | none => rfl
    | some digits =>
        rcases mem_of_ungroup? read point with digit | underscore <;> contradiction
  rw [Number.integer?, based?_signed, splitSign_text]
  simp [whole?, ungrouped]

/-- A number as it is written is read as its numeral. -/
theorem ofToken?_signed (negative : Bool) :
    ofToken? (signed negative written.text) =
      some (.number (.decimal (written.numeral negative))) := by
  obtain ⟨c, rest, eq, digit⟩ := written.exists_text_eq_cons
  have notWord {letter : Char} (other : letter.isDigit = false) (minus : letter ≠ '-')
      (others : List Char) : signed negative written.text ≠ letter :: others := by
    cases negative
    · rw [signed, if_neg (by decide), eq]
      rintro ⟨⟩
      rw [digit] at other
      contradiction
    · rintro ⟨⟩
      contradiction
  have moment : Moment.isMoment (signed negative written.text) = false := by
    have dash := notMem_text written (c := '-') (by decide) (by decide)
    have colon := notMem_text written (c := ':') (by decide) (by decide)
    cases negative
    · refine isMoment_eq_false (fun member => dash ?_) colon
      exact List.mem_of_mem_tail member
    · refine isMoment_eq_false dash ?_
      simp [signed, colon]
  have notTrue := notWord (show Char.isDigit 't' = false by decide) (by decide) ['r', 'u', 'e']
  have notFalse := notWord (show Char.isDigit 'f' = false by decide) (by decide)
    ['a', 'l', 's', 'e']
  rw [ofToken?, if_neg notTrue, if_neg notFalse, moment, integer?_signed, read?_signed]
  rfl

end Numbers

section Style

open Binary Binary.Format

/-- A finite number is written with a point. Its numeral, read by way of 64 bits, is the number
again unless that is one of the two stray ones. -/
theorem exists_fractional_of_finite {x : Float32} {negative : Bool} {bits : ℕ}
    (finite : bits < single.infinityBits)
    (pattern : x.toBits = .ofNat (single.withSign negative bits))
    (value : ofSingle x = .finite negative (single.significand bits) (single.lastPlace bits)) :
    ∃ written : Fractional, Style.writeNumber x = signed negative written.text ∧
      (WrittenNumber.decimal (written.numeral negative)).double?.map narrow = some (reread x) := by
  by_cases zero : bits = 0
  · subst zero
    refine ⟨.zero, ?_, ?_⟩
    · rw [Style.writeNumber, NumberStyle.writeSingle, value]
      cases negative <;> rfl
    · rw [← ofBits_recovered finite pattern]
      have ratio : (Fractional.zero.numeral negative).ratio = 0 := by
        have digits : (Fractional.zero.numeral negative).digits = 0 := rfl
        rw [Numeral.ratio, digits, Nat.cast_zero, zero_mul]
      have least : -Numeral.farExponent ≤ (Fractional.zero.numeral negative).exponent :=
        show (-400 : ℤ) ≤ -1 by decide
      have most : (Fractional.zero.numeral negative).exponent ≤ Numeral.farExponent :=
        show (-1 : ℤ) ≤ 400 by decide
      refine Numeral.narrow_double? least most ?_ (by decide) fun nearest => ?_
      · rw [ratio]
        positivity
      · rw [ratio] at nearest
        rw [nearest.unique isNearest_zero, value_zero]
        exact isNearest_zero
  · obtain ⟨digits, power, shortest⟩ : ∃ digits power, Shortest.decimal single
        (single.significand bits) (single.lastPlace bits) = (digits, power) := ⟨_, _, rfl⟩
    obtain ⟨lower, rfl⟩ := Nat.exists_eq_succ_of_ne_zero zero
    obtain ⟨coarse, near⟩ := spec_of_shortest finite shortest
    obtain ⟨field, -, place, -⟩ := exists_lastPlace_single ((Nat.lt_succ_self lower).trans finite)
    have nonzero : digits ≠ 0 := by
      rintro rfl
      rw [Nat.cast_zero, zero_mul] at near
      exact zero (near.unique isNearest_zero)
    obtain ⟨written, text, length, ratio⟩ := exists_fractional nonzero power
    refine ⟨written, ?_, ?_⟩
    · have significand : single.significand (lower + 1) ≠ 0 :=
        (Shortest.significand_pos (Nat.succ_ne_zero lower)).ne'
      rw [Style.writeNumber, NumberStyle.writeSingle, value, signed, ← text]
      simp only [NumberStyle.write, NumberStyle.magnitude, if_neg significand, shortest]
      cases negative <;> simp [NumberStyle.inFile]
    · have exponent : (written.numeral negative).exponent = -written.fraction.length := rfl
      have far : Numeral.farExponent = 400 := rfl
      rw [NearMiss.grid] at coarse
      have least : -Numeral.farExponent ≤ (written.numeral negative).exponent := by omega
      have most : (written.numeral negative).exponent ≤ Numeral.farExponent := by omega
      rw [← ofBits_recovered finite pattern]
      refine Numeral.narrow_double? least most ?_ (recovered_le finite) fun nearest => ?_
      · rw [ratio]
        exact near.le_midpoint.trans (Numeral.midpoint_le_of_lt finite)
      · rw [ratio] at nearest
        exact isNearest_recovered zero finite shortest nearest

/-- The characters that numbers are written with. -/
def isNumberPart (c : Char) : Bool :=
  c.isAlphanum || c = '-' || c = '.'

/-- The number is written so that it is read as a number, up to the two stray ones. -/
structure IsReread (x : Float32) : Prop where
  ofToken? : ∃ written, ofToken? (Style.writeNumber x) = some (.number written) ∧
    (Datum.number written).single? = some (reread x)
  ne_nil : Style.writeNumber x ≠ []
  isNumberPart : ∀ c ∈ Style.writeNumber x, isNumberPart c = true

theorem isReread_nan : IsReread (toSingle .nan) := by
  have text : Style.writeNumber (toSingle .nan) = ['n', 'a', 'n'] := rfl
  have back : narrow (WrittenNumber.toDouble .nan) = reread (toSingle .nan) := by decide
  refine ⟨⟨.nan, by rw [text]; rfl, congrArg some back⟩, ?_, ?_⟩
  · simp [text]
  · simp [text, isNumberPart]

theorem isReread_infinite (negative : Bool) : IsReread (toSingle (.infinite negative)) := by
  have text : Style.writeNumber (toSingle (.infinite negative)) =
      signed negative ['i', 'n', 'f'] := by cases negative <;> rfl
  have back : narrow (WrittenNumber.toDouble (.infinite negative)) =
      reread (toSingle (.infinite negative)) := by cases negative <;> decide
  refine ⟨⟨.infinite negative, ?_, congrArg some back⟩, ?_, ?_⟩
  · rw [text]
    cases negative <;> rfl
  · cases negative <;> simp [text, signed]
  · cases negative <;> simp [text, signed, isNumberPart]

theorem isReread_of_fractional {x : Float32} {negative : Bool} {written : Fractional}
    (text : Style.writeNumber x = signed negative written.text)
    (read : (WrittenNumber.decimal (written.numeral negative)).double?.map narrow =
      some (reread x)) : IsReread x := by
  obtain ⟨c, rest, eq, -⟩ := written.exists_text_eq_cons
  refine ⟨⟨_, by rw [text]; exact ofToken?_signed written negative, read⟩, ?_, ?_⟩
  · cases negative <;> simp [text, signed, eq]
  · intro c member
    rw [text] at member
    have part : c ∈ written.text → isNumberPart c = true := by
      intro member
      rcases written.mem_text member with rfl | digit
      · rfl
      · simp [isNumberPart, Char.isAlphanum, digit]
    cases negative
    · exact part member
    · rcases List.mem_cons.1 member with rfl | member
      · rfl
      · exact part member

theorem isReread (x : Float32) : IsReread x := by
  cases number : x.isNaN with
  | true =>
      rw [eq_toSingle_nan number]
      exact isReread_nan
  | false =>
      rcases single_cases number with ⟨negative, rfl⟩ | ⟨negative, bits, finite, pattern, value⟩
      · exact isReread_infinite negative
      · obtain ⟨written, text, read⟩ := exists_fractional_of_finite finite pattern value
        exact isReread_of_fractional text read

end Style

end Toml

end ArcGraph
