import ArcGraph.Canvas.Painter
import ArcGraph.Proofs.Number.Reading
import ArcGraph.Proofs.Number.Spelling
import ArcGraph.Proofs.Text.Words

/-!
Sizes of fonts.

The size of a font is that of the first word of its description that is a
positive number with a unit behind it. Nothing keeps that number from being read
as infinity, and a painter then asks for letters of infinite size.
-/

namespace ArcGraph

namespace Text

theorem dropEnding?_eq_some_iff {ending word rest : List Char} :
    dropEnding? ending word = some rest ↔ word = rest ++ ending := by
  rw [dropEnding?, Option.ite_none_right_eq_some, List.isSuffixOf_iff_suffix]
  constructor
  · rintro ⟨⟨before, rfl⟩, eq⟩
    simp only [List.length_append, Nat.add_sub_cancel, List.take_left, Option.some.injEq] at eq
    rw [eq]
  · rintro rfl
    exact ⟨List.suffix_append rest ending, by simp⟩

end Text

namespace FontSize

/-- The word spells the number, with points or pixels as its unit. -/
def IsMeasure (word : List Char) (number : WrittenNumber) : Prop :=
  ∃ text, number.Spells text ∧ (word = text ++ ['p', 't'] ∨ word = text ++ ['p', 'x'])

/-- The word is a number with a unit that is read as the size, and the size is positive. -/
structure Gives (word : List Char) (number : WrittenNumber) (size : Float32) : Prop where
  isMeasure : IsMeasure word number
  isReadAs : number.IsReadAs size
  positive : 0 < size

/-- The number is that of the first word of the description to give a size. -/
def IsSizeOf (size : Float32) (number : WrittenNumber) (description : String) : Prop :=
  ∃ earlier word later, Text.IsRow description.toList (earlier ++ word :: later) ∧
    Gives word number size ∧ ∀ other ∈ earlier, ∀ number' size', ¬Gives other number' size'

section Word

variable {word : List Char} {number : WrittenNumber} {size : Float32}

theorem or_dropEnding?_eq_some_iff {text : List Char} :
    (Text.dropEnding? ['p', 't'] word).or (Text.dropEnding? ['p', 'x'] word) = some text ↔
      word = text ++ ['p', 't'] ∨ word = text ++ ['p', 'x'] := by
  rw [Option.or_eq_some_iff, Text.dropEnding?_eq_some_iff, Text.dropEnding?_eq_some_iff]
  -- no word ends in both units, so it does not matter which is looked for first
  refine or_congr_right (and_iff_right_of_imp ?_)
  rintro rfl
  refine Option.eq_none_iff_forall_ne_some.mpr fun rest found => ?_
  obtain ⟨-, units⟩ := List.append_inj' (Text.dropEnding?_eq_some_iff.mp found) rfl
  cases units

theorem ofWord?_eq_some_iff : ofWord? word = some size ↔ ∃ number, Gives word number size := by
  simp only [ofWord?, Option.bind_eq_bind, Option.bind_eq_some_iff, or_dropEnding?_eq_some_iff,
    WrittenNumber.read?_eq_some_iff, Option.ite_none_right_eq_some, Option.some.injEq]
  constructor
  · rintro ⟨text, measure, number, spells, positive, rfl⟩
    exact ⟨number, ⟨text, spells, measure⟩, number.isReadAs_toSingle, positive⟩
  · rintro ⟨number, ⟨text, spells, measure⟩, read, positive⟩
    obtain rfl := WrittenNumber.toSingle_eq_iff.mpr read
    exact ⟨text, measure, number, spells, positive, rfl⟩

theorem ofWord?_eq_none_iff : ofWord? word = none ↔ ∀ number size, ¬Gives word number size := by
  simp only [Option.eq_none_iff_forall_ne_some, Ne, ofWord?_eq_some_iff, not_exists]
  exact forall_comm

theorem exists_gives_iff :
    (∃ size, Gives word number size) ↔ IsMeasure word number ∧ number.IsPositive := by
  constructor
  · rintro ⟨size, measure, read, positive⟩
    exact ⟨measure, read.zero_lt_iff.mp positive⟩
  · rintro ⟨measure, positive⟩
    have read := number.isReadAs_toSingle
    exact ⟨number.toSingle, measure, read, read.zero_lt_iff.mpr positive⟩

theorem Gives.isFinite_eq_false_iff (gives : Gives word number size) :
    size.isFinite = false ↔ number.IsBoundless := by
  refine gives.isReadAs.isFinite_eq_false_iff ?_
  rintro rfl
  exact gives.isReadAs.zero_lt_iff.mp gives.positive

end Word

section Description

variable {description : String} {number : WrittenNumber} {size : Float32}

theorem ofDescription?_eq_some_iff :
    ofDescription? description = some size ↔ ∃ number, IsSizeOf size number description := by
  rw [ofDescription?, List.findSome?_eq_some_iff]
  simp only [Text.words_eq_iff, ofWord?_eq_some_iff, ofWord?_eq_none_iff]
  constructor
  · rintro ⟨earlier, word, later, row, ⟨number, gives⟩, skipped⟩
    exact ⟨number, earlier, word, later, row, gives, skipped⟩
  · rintro ⟨number, earlier, word, later, row, gives, skipped⟩
    exact ⟨earlier, word, later, row, ⟨number, gives⟩, skipped⟩

theorem exists_ofDescription?_iff :
    (∃ size, ofDescription? description = some size) ↔
      ∃ row, Text.IsRow description.toList row ∧
        ∃ word ∈ row, ∃ number, IsMeasure word number ∧ number.IsPositive := by
  have found : (∃ size, ofDescription? description = some size) ↔
      ∃ word ∈ Text.words description.toList, ∃ size number, Gives word number size := by
    rw [ofDescription?, ← Option.isSome_iff_exists, List.findSome?_isSome_iff]
    simp only [Option.isSome_iff_exists, ofWord?_eq_some_iff]
  rw [found]
  simp only [← Text.words_eq_iff, exists_eq_left', @exists_comm Float32, exists_gives_iff]

theorem IsSizeOf.bounds (isSize : IsSizeOf size number description) :
    0 < size ∧ (size.isFinite = false ↔ number.IsBoundless) := by
  obtain ⟨earlier, word, later, -, gives, -⟩ := isSize
  exact ⟨gives.positive, gives.isFinite_eq_false_iff⟩

end Description

end FontSize

/-- The font that a command sets. -/
def Command.font? {α : Type} : Command α → Option String
  | .setFont font => some font
  | _ => none

namespace Painter

variable {α : Type} [Scalar α]

/-- The size of letters in a font. -/
def fontSizeOf (font : String) : Float32 :=
  (FontSize.ofDescription? font).getD standardFontSize

theorem fontSize_step (painter : Painter α) (command : Command α) :
    (painter.step command).1.fontSize = command.font?.elim painter.fontSize fontSizeOf := by
  cases command <;> rfl

/-- The size of letters is that of the last font. -/
theorem fontSize_run (painter : Painter α) (history : List (Command α)) :
    (painter.run history).1.fontSize =
      (history.filterMap Command.font?).getLast?.elim painter.fontSize fontSizeOf := by
  induction history generalizing painter with
  | nil => rfl
  | cons command rest inductionHypothesis =>
      rw [run_cons, inductionHypothesis, fontSize_step]
      cases set : command.font? with
      | none => rw [List.filterMap_cons_none set, Option.elim_none]
      | some font =>
          rw [List.filterMap_cons_some set, List.getLast?_cons, Option.elim_some, Option.elim_some]
          cases (rest.filterMap Command.font?).getLast? <;> rfl

theorem bounds_standardFontSize : 0 < standardFontSize ∧ standardFontSize.isFinite = true := by
  decide +kernel

theorem bounds_fontSizeOf (font : String) :
    0 < fontSizeOf font ∧ ((fontSizeOf font).isFinite = false ↔
      ∃ number, FontSize.IsSizeOf (fontSizeOf font) number font ∧ number.IsBoundless) := by
  unfold fontSizeOf
  cases found : FontSize.ofDescription? font with
  | none =>
      rw [Option.getD_none, bounds_standardFontSize.2]
      refine ⟨bounds_standardFontSize.1, iff_of_false Bool.noConfusion ?_⟩
      rintro ⟨number, isSize, -⟩
      rw [FontSize.ofDescription?_eq_some_iff.mpr ⟨number, isSize⟩] at found
      cases found
  | some size =>
      obtain ⟨number, isSize⟩ := FontSize.ofDescription?_eq_some_iff.mp found
      obtain ⟨positive, infinite_iff⟩ := isSize.bounds
      refine ⟨positive, fun infinite => ⟨number, isSize, infinite_iff.mp infinite⟩, ?_⟩
      rintro ⟨number', isSize', boundless⟩
      exact isSize'.bounds.2.mpr boundless

/-- Letters have a positive size. It is infinite if that of the last font is. -/
theorem bounds_fontSize_run (offset : Vec α) (history : List (Command α)) {size : Float32}
    (eq : ((fresh offset).run history).1.fontSize = size) :
    0 < size ∧ (size.isFinite = false ↔
      ∃ font number, (history.filterMap Command.font?).getLast? = some font ∧
        FontSize.IsSizeOf size number font ∧ number.IsBoundless) := by
  rw [fontSize_run] at eq
  subst eq
  cases (history.filterMap Command.font?).getLast? with
  | none =>
      rw [Option.elim_none, fresh, bounds_standardFontSize.2]
      exact ⟨bounds_standardFontSize.1, iff_of_false Bool.noConfusion (by simp)⟩
  | some font => simpa using bounds_fontSizeOf font

end Painter

namespace FontSize

open Painter

/-- A description gives a size just if one of its words is a positive number with a unit, and the
size is that of the first such word. It is positive, and it is finite unless the number lies beyond
all finite ones. So it is with the size of a text on a painter, which is that of the last font. -/
theorem size_of_first_measure {α : Type} [Scalar α] (description : String) (offset : Vec α)
    (history : List (Command α)) :
    (∀ size, ofDescription? description = some size ↔
      ∃ number, IsSizeOf size number description) ∧
    ((∃ size, ofDescription? description = some size) ↔
      ∃ row, Text.IsRow description.toList row ∧
        ∃ word ∈ row, ∃ number, IsMeasure word number ∧ number.IsPositive) ∧
    (∀ size number, IsSizeOf size number description →
      0 < size ∧ (size.isFinite = false ↔ number.IsBoundless)) ∧
    ∀ text p shape, ((fresh offset).run (history ++ [.fillText text p])).2 =
        ((fresh offset).run history).2 ++ [shape] →
      ∃ horizontal vertical place size fill,
        shape = .text text horizontal vertical place size fill ∧ 0 < size ∧
        (size.isFinite = false ↔
          ∃ font number, (history.filterMap Command.font?).getLast? = some font ∧
            IsSizeOf size number font ∧ number.IsBoundless) := by
  refine ⟨fun size => ofDescription?_eq_some_iff, exists_ofDescription?_iff,
    fun size number isSize => isSize.bounds, ?_⟩
  intro text p shape added
  have bounds := @bounds_fontSize_run α _ offset history _ rfl
  rw [run_append, List.append_cancel_left_eq, run_cons, run_nil, List.append_nil, step,
    textShapes] at added
  split at added
  case isTrue => cases added
  case isFalse =>
    obtain rfl := (List.cons.inj added).1
    exact ⟨_, _, _, _, _, rfl, bounds⟩

/-- A size behind words that are no measures or no numbers, and behind numbers that are not positive
or too small to be told from zero. -/
def crowded : String :=
  "bold inf 1epx 0pt nanpx -3pt 1e-400px 12px 9pt"

/-- An infinite size that gives way to a finite one. -/
def twoFonts : List (Command Float32) :=
  [.setFont "infpt", .setFont crowded]

theorem size_of_first_measure_crowded :
    ofDescription? crowded = some 12 ∧
      (∃ number, IsSizeOf 12 number crowded ∧ ¬number.IsBoundless) ∧
      ((fresh .zero).run (twoFonts ++ [.fillText "a" .zero])).2 =
        ((fresh .zero).run twoFonts).2 ++ [.text "a" .start .finish .zero 12 .black] ∧
      ¬∃ font number, (twoFonts.filterMap Command.font?).getLast? = some font ∧
        IsSizeOf 12 number font ∧ number.IsBoundless := by
  obtain ⟨found, -, bounds, shown⟩ := size_of_first_measure crowded (.zero : Vec Float32) twoFonts
  have read : ofDescription? crowded = some 12 := by decide +kernel
  have drawn : ((fresh .zero).run (twoFonts ++ [.fillText "a" .zero])).2 =
      ((fresh .zero).run twoFonts).2 ++ [.text "a" .start .finish .zero 12 .black] := by
    decide +kernel
  have finite : (12 : Float32).isFinite = true := by decide +kernel
  obtain ⟨number, isSize⟩ := (found 12).mp read
  obtain ⟨_, infinite_iff⟩ := bounds 12 number isSize
  obtain ⟨_, _, _, _, _, eq, _, infinite_iff'⟩ := shown _ _ _ drawn
  obtain ⟨-, -, -, -, rfl, -⟩ := Shape.text.inj eq
  rw [finite] at infinite_iff infinite_iff'
  exact ⟨read, ⟨number, isSize, mt infinite_iff.mpr Bool.noConfusion⟩, drawn,
    mt infinite_iff'.mpr Bool.noConfusion⟩

/-- The word for infinity is read as a number, and a size is not asked to be finite. -/
theorem infinite_size_of_word :
    ∃ size, ofDescription? "infpt Arial" = some size ∧ size.isFinite = false ∧
      ((fresh (.zero : Vec Float32)).run [.setFont "infpt Arial", .fillText "a" .zero]).2 =
        [.text "a" .start .finish .zero size .black] :=
  ⟨Binary.toSingle (.infinite false), by decide +kernel, by decide +kernel, by decide +kernel⟩

end FontSize

end ArcGraph
