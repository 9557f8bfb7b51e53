import ArcGraph.Number.Numeral
import Mathlib.Data.Int.Notation
import Mathlib.Data.List.TakeWhile

/-!
What written numbers look like.

A number is a sign, which may be missing, and then a word or digits. The digits
may have a point anywhere among them and a power of ten behind them. The reader
accepts just these texts, as a whole, and finds what they spell.
-/

namespace ArcGraph.WrittenNumber

/-- A sign, and whether it is that of negative numbers. -/
inductive SpellsSign : Bool → List Char → Prop where
  | absent : SpellsSign false []
  | plus : SpellsSign false ['+']
  | minus : SpellsSign true ['-']

/-- Digits with or without a point among them. There is at least one, on either side of it. -/
inductive SpellsDigits (whole : List Char) : List Char → List Char → Prop where
  | plain : whole ≠ [] → (∀ c ∈ whole, c.isDigit = true) → SpellsDigits whole [] whole
  | pointed {fraction} : whole ++ fraction ≠ [] → (∀ c ∈ whole, c.isDigit = true) →
      (∀ c ∈ fraction, c.isDigit = true) → SpellsDigits whole fraction (whole ++ '.' :: fraction)

/-- A power of ten behind the digits, or nothing. -/
inductive SpellsPower : ℤ → List Char → Prop where
  | absent : SpellsPower 0 []
  | present {mark negative sign digits} : mark = 'e' ∨ mark = 'E' → SpellsSign negative sign →
      digits ≠ [] → (∀ c ∈ digits, c.isDigit = true) →
      SpellsPower (if negative then -(Digits.toNat digits : ℤ) else Digits.toNat digits)
        (mark :: (sign ++ digits))

/-- A number behind its sign. The letters of a word may be of both cases. -/
inductive SpellsUnsigned (negative : Bool) : WrittenNumber → List Char → Prop where
  | nan {word} : word.map Char.toLower = "nan".toList → SpellsUnsigned negative .nan word
  | infinite {word} :
      word.map Char.toLower = "inf".toList ∨ word.map Char.toLower = "infinity".toList →
      SpellsUnsigned negative (.infinite negative) word
  | decimal {whole fraction digits exponent power} :
      SpellsDigits whole fraction digits → SpellsPower exponent power →
      SpellsUnsigned negative
        (.decimal ⟨negative, Digits.toNat (whole ++ fraction), exponent - fraction.length⟩)
        (digits ++ power)

/-- The text spells the number. -/
def Spells (number : WrittenNumber) (text : List Char) : Prop :=
  ∃ negative sign body, SpellsSign negative sign ∧ SpellsUnsigned negative number body ∧
    text = sign ++ body

section Sign

variable {negative : Bool} {sign body : List Char}

/-- The text does not start with a sign. -/
def IsUnsigned (body : List Char) : Prop :=
  ∀ c ∈ body.head?, c ≠ '+' ∧ c ≠ '-'

theorem splitSign_append (spelled : SpellsSign negative sign) (unsigned : IsUnsigned body) :
    splitSign (sign ++ body) = (negative, body) := by
  cases spelled with
  | plus => rfl
  | minus => rfl
  | absent =>
      rw [List.nil_append]
      unfold splitSign
      split
      case h_1 => exact absurd rfl (unsigned '-' rfl).2
      case h_2 => exact absurd rfl (unsigned '+' rfl).1
      case h_3 => rfl

theorem exists_spellsSign (text : List Char) :
    ∃ sign, SpellsSign (splitSign text).1 sign ∧ text = sign ++ (splitSign text).2 := by
  unfold splitSign
  split
  case h_1 rest => exact ⟨['-'], .minus, rfl⟩
  case h_2 rest => exact ⟨['+'], .plus, rfl⟩
  case h_3 => exact ⟨[], .absent, rfl⟩

/-- A digit is neither a letter nor a sign. -/
theorem start_of_isDigit {c : Char} (digit : c.isDigit = true) :
    c.isAlpha = false ∧ c ≠ '+' ∧ c ≠ '-' := by
  refine ⟨?_, ?_, ?_⟩
  · refine Bool.eq_false_iff.mpr fun alpha => ?_
    simp only [Char.isDigit, Bool.and_eq_true, decide_eq_true_eq, ge_iff_le,
      UInt32.le_iff_toNat_le] at digit
    unfold Char.isAlpha Char.isUpper Char.isLower at alpha
    simp only [Bool.or_eq_true, Bool.and_eq_true, decide_eq_true_eq, ge_iff_le,
      UInt32.le_iff_toNat_le] at alpha
    change 48 ≤ c.toNat ∧ c.toNat ≤ 57 at digit
    change 65 ≤ c.toNat ∧ c.toNat ≤ 90 ∨ 97 ≤ c.toNat ∧ c.toNat ≤ 122 at alpha
    omega
  · rintro rfl
    cases digit
  · rintro rfl
    cases digit

theorem isUnsigned_of_forall_isDigit {digits : List Char}
    (isDigit : ∀ c ∈ digits, c.isDigit = true) : IsUnsigned digits :=
  fun c member => (start_of_isDigit (isDigit c (List.mem_of_mem_head? member))).2

end Sign

section Decimal

variable {negative : Bool} {whole fraction digits power text : List Char} {exponent : ℤ}
  {number : WrittenNumber}

theorem exponent?_eq_some_iff : exponent? text = some exponent ↔ SpellsPower exponent text := by
  constructor
  · intro read
    cases text with
    | nil =>
        cases read
        exact .absent
    | cons mark rest =>
        simp only [exponent?, Option.ite_none_right_eq_some, Option.some.injEq, List.all_eq_true]
          at read
        obtain ⟨isMark, ⟨ne, isDigit⟩, rfl⟩ := read
        obtain ⟨sign, spelled, eq⟩ := exists_spellsSign rest
        have power := SpellsPower.present isMark spelled ne isDigit
        rwa [← eq] at power
  · intro spelled
    cases spelled with
    | absent => rfl
    | present isMark spelled ne isDigit =>
        have split := splitSign_append spelled (isUnsigned_of_forall_isDigit isDigit)
        simp only [exponent?, if_pos isMark, split, List.all_eq_true]
        rw [if_pos ⟨ne, isDigit⟩]

theorem span_append (isDigit : ∀ c ∈ digits, c.isDigit = true)
    (ended : ∀ c ∈ text.head?, c.isDigit = false) :
    Digits.span (digits ++ text) = (digits, text) := by
  have none : text.takeWhile Char.isDigit = [] ∧ text.dropWhile Char.isDigit = text := by
    cases text with
    | nil => exact ⟨rfl, rfl⟩
    | cons c rest => simp [ended c rfl]
  rw [Digits.span, List.takeWhile_append_of_pos isDigit, List.dropWhile_append_of_pos isDigit,
    none.1, none.2, List.append_nil]

theorem span_spec (text : List Char) :
    (∀ c ∈ (Digits.span text).1, c.isDigit = true) ∧
      (Digits.span text).1 ++ (Digits.span text).2 = text :=
  ⟨fun _ => List.mem_takeWhile_imp, List.takeWhile_append_dropWhile⟩

/-- A power of ten does not look as if the digits went on. -/
theorem SpellsPower.ends (spelled : SpellsPower exponent power) :
    ∀ c ∈ power.head?, c.isDigit = false ∧ c ≠ '.' := by
  cases spelled with
  | absent => simp
  | present isMark => rcases isMark with rfl | rfl <;> simp

theorem splitFraction_span (spelled : SpellsDigits whole fraction digits)
    (behind : SpellsPower exponent power) :
    (Digits.span (digits ++ power)).1 = whole ∧
      splitFraction (Digits.span (digits ++ power)).2 = (fraction, power) := by
  have ended : ∀ c ∈ power.head?, c.isDigit = false := fun c member => (behind.ends c member).1
  cases spelled with
  | plain ne isDigit =>
      rw [span_append isDigit ended]
      refine ⟨rfl, ?_⟩
      dsimp only
      unfold splitFraction
      split
      case h_1 rest => exact absurd rfl (behind.ends '.' rfl).2
      case h_2 => rfl
  | pointed ne isDigit isDigit' =>
      rw [List.append_assoc, List.cons_append, span_append isDigit (by simp)]
      exact ⟨rfl, span_append isDigit' ended⟩

/-- The converse: what is found on both sides of a point, or in front of anything else, are the
digits at the start of the text. -/
theorem exists_spellsDigits (split : splitFraction (Digits.span text).2 = (fraction, power))
    (some : (Digits.span text).1 ++ fraction ≠ []) :
    ∃ digits, SpellsDigits (Digits.span text).1 fraction digits ∧ text = digits ++ power := by
  obtain ⟨isDigit, joined⟩ := span_spec text
  unfold splitFraction at split
  split at split
  case h_1 rest eq =>
    obtain ⟨isDigit', joined'⟩ := span_spec rest
    rw [split] at isDigit' joined'
    refine ⟨_, .pointed some isDigit isDigit', ?_⟩
    rw [List.append_assoc, List.cons_append, joined', ← eq, joined]
  case h_2 =>
    cases split
    rw [List.append_nil] at some
    exact ⟨_, .plain some isDigit, joined.symm⟩

theorem magnitude?_eq_some_iff :
    magnitude? negative text = some number ↔
      ∃ whole fraction digits exponent power, SpellsDigits whole fraction digits ∧
        SpellsPower exponent power ∧ text = digits ++ power ∧
        number = .decimal ⟨negative, Digits.toNat (whole ++ fraction),
          exponent - fraction.length⟩ := by
  constructor
  · intro read
    simp only [magnitude?, Option.ite_none_left_eq_some, Option.map_eq_some_iff] at read
    obtain ⟨some, exponent, behind, rfl⟩ := read
    rw [← List.append_eq_nil_iff] at some
    obtain ⟨digits, spelled, eq⟩ := exists_spellsDigits rfl some
    exact ⟨_, _, digits, exponent, _, spelled, exponent?_eq_some_iff.mp behind, eq, rfl⟩
  · rintro ⟨whole, fraction, digits, exponent, power, spelled, behind, rfl, rfl⟩
    obtain ⟨before, after⟩ := splitFraction_span spelled behind
    have some : ¬(whole = [] ∧ fraction = []) := by
      rw [← List.append_eq_nil_iff]
      cases spelled with
      | plain ne => rwa [List.append_nil]
      | pointed ne => exact ne
    simp only [magnitude?, before, after, if_neg some, exponent?_eq_some_iff.mpr behind,
      Option.map_some]

end Decimal

section Unsigned

variable {negative : Bool} {whole fraction digits text body : List Char} {number : WrittenNumber}

/-- Digits start with a digit or with the point, and with no letter. -/
theorem SpellsDigits.exists_eq_cons (spelled : SpellsDigits whole fraction digits) :
    ∃ c rest, digits = c :: rest ∧ c.isAlpha = false ∧ c ≠ '+' ∧ c ≠ '-' := by
  cases whole with
  | nil =>
      cases spelled with
      | plain ne => exact absurd rfl ne
      | @pointed fraction =>
          have point : Char.isAlpha '.' = false := by decide
          exact ⟨'.', fraction, List.nil_append _, point, by decide, by decide⟩
  | cons c rest =>
      cases spelled with
      | plain ne isDigit => exact ⟨c, rest, rfl, start_of_isDigit (isDigit c (by simp))⟩
      | pointed ne isDigit => exact ⟨c, _, rfl, start_of_isDigit (isDigit c (by simp))⟩

theorem isAlpha_of_isAlpha_toLower {c : Char} (alpha : c.toLower.isAlpha = true) :
    c.isAlpha = true := by
  by_cases upper : c.isUpper = true
  · exact (Bool.or_eq_true ..).mpr (.inl upper)
  · have kept : c.toLower = c := by
      exact dif_neg fun range => upper (decide_eq_true range)
    rwa [kept] at alpha

/-- A word starts with a letter. -/
theorem exists_eq_cons_of_map_toLower {letter : Char} {letters : List Char}
    (alpha : letter.isAlpha = true) (word : body.map Char.toLower = letter :: letters) :
    ∃ c rest, body = c :: rest ∧ c.isAlpha = true := by
  obtain ⟨c, rest, rfl, rfl, -⟩ := List.map_eq_cons_iff.mp word
  exact ⟨c, rest, rfl, isAlpha_of_isAlpha_toLower alpha⟩

theorem SpellsDigits.map_toLower_ne (spelled : SpellsDigits whole fraction digits)
    (power : List Char) {letter : Char} (alpha : letter.isAlpha = true) (letters : List Char) :
    (digits ++ power).map Char.toLower ≠ letter :: letters := by
  intro word
  obtain ⟨c, rest, rfl, other, -⟩ := spelled.exists_eq_cons
  obtain ⟨c', rest', eq, alpha'⟩ := exists_eq_cons_of_map_toLower alpha word
  obtain ⟨rfl, -⟩ := List.cons.inj eq
  rw [other] at alpha'
  contradiction

theorem SpellsUnsigned.isUnsigned (spelled : SpellsUnsigned negative number body) :
    IsUnsigned body := by
  have unsigned {letter : Char} {letters : List Char} (alpha : letter.isAlpha = true)
      (word : body.map Char.toLower = letter :: letters) : IsUnsigned body := by
    obtain ⟨c, rest, rfl, alpha'⟩ := exists_eq_cons_of_map_toLower alpha word
    rintro c' ⟨⟩
    constructor <;> rintro rfl <;> cases alpha'
  cases spelled with
  | nan word => exact unsigned (by decide) word
  | infinite word => exact word.elim (unsigned (by decide)) (unsigned (by decide))
  | decimal spelled =>
      obtain ⟨c, rest, rfl, -, other⟩ := spelled.exists_eq_cons
      rintro c' ⟨⟩
      exact other

theorem read?_eq_some_iff_unsigned :
    read? text = some number ↔ SpellsUnsigned (splitSign text).1 number (splitSign text).2 := by
  simp only [read?]
  generalize (splitSign text).1 = negative
  generalize (splitSign text).2 = body
  constructor
  · intro read
    split at read
    case isTrue word =>
      cases read
      exact .infinite word
    case isFalse =>
      split at read
      case isTrue word =>
        cases read
        exact .nan word
      case isFalse =>
        obtain ⟨whole, fraction, digits, exponent, power, spelled, behind, rfl, rfl⟩ :=
          magnitude?_eq_some_iff.mp read
        exact .decimal spelled behind
  · intro spelled
    cases spelled with
    | nan word =>
        rw [word]
        rfl
    | infinite word => rw [if_pos word]
    | @decimal _ _ _ _ power spelled behind =>
        have initial : 'i'.isAlpha = true ∧ 'n'.isAlpha = true := by decide
        split
        case isTrue word =>
          rcases word with word | word
          · exact absurd word (spelled.map_toLower_ne power initial.1 _)
          · exact absurd word (spelled.map_toLower_ne power initial.1 _)
        case isFalse =>
          split
          case isTrue word => exact absurd word (spelled.map_toLower_ne power initial.2 _)
          case isFalse =>
            exact magnitude?_eq_some_iff.mpr ⟨_, _, _, _, _, spelled, behind, rfl, rfl⟩

theorem read?_eq_some_iff : read? text = some number ↔ Spells number text := by
  rw [read?_eq_some_iff_unsigned]
  constructor
  · intro spelled
    obtain ⟨sign, spelledSign, eq⟩ := exists_spellsSign text
    exact ⟨_, sign, _, spelledSign, spelled, eq⟩
  · rintro ⟨negative, sign, body, spelledSign, spelled, rfl⟩
    rw [splitSign_append spelledSign spelled.isUnsigned]
    exact spelled

end Unsigned

end ArcGraph.WrittenNumber
