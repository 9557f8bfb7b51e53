import ArcGraph.Proofs.Toml.Number
import ArcGraph.Proofs.Toml.Quoted

/-!
Entries as they are written.

A value that is written on its own is read up to the end of its line, and a line
of a bare key and such a value is read as an entry.
-/

namespace ArcGraph.Toml

section Characters

variable {c : Char} {rest : List Char}

theorem opened?_eq_none (double : c ≠ '"') (single : c ≠ '\x27') :
    Quoted.opened? (c :: rest) = none := by
  simp [Quoted.opened?, Quoted.Form.delimiter, Quoted.Form.isBlock, Quoted.Form.mark,
    List.isPrefixOf, Ne.symm double, Ne.symm single]

theorem takeWhile_append_cons {p : Char → Bool} {text : List Char}
    (all : ∀ c ∈ text, p c = true) (stop : p c = false) (rest : List Char) :
    (text ++ c :: rest).takeWhile p = text ∧ (text ++ c :: rest).dropWhile p = c :: rest := by
  have stop' : ¬ p c = true := by simp [stop]
  rw [List.takeWhile_append_of_pos all, List.dropWhile_append_of_pos all,
    List.takeWhile_cons_of_neg stop', List.dropWhile_cons_of_neg stop', List.append_nil]
  exact ⟨rfl, rfl⟩

theorem skipBlanks_of_not_isBlank (ink : isBlank c = false) :
    skipBlanks (c :: rest) = c :: rest := by
  rw [skipBlanks, List.dropWhile_cons_of_neg (by simp [ink])]

theorem skipTrivia_of_ne (ink : isBlank c = false) (line : c ≠ '\n') (line' : c ≠ '\r')
    (comment : c ≠ '#') : skipTrivia false (c :: rest) = c :: rest := by
  simp [skipTrivia, isBreak, ink, line, line', comment]

theorem skipTrivia_lineEnd (rest : List Char) :
    skipTrivia false ('\n' :: rest) = skipTrivia false rest := by
  simp [skipTrivia, isBreak]

end Characters

/-- The text is a value of its own, which is read up to the end of its line. -/
structure IsValue (text : List Char) (datum : Datum) : Prop where
  starts : ∃ c rest, text = c :: rest ∧ isBlank c = false
  value? : ∀ depth rest, value? (depth + 1) (text ++ '\n' :: rest) = some (datum, '\n' :: rest)

section Values

theorem value?_eq_scalar? {c : Char} {rest : List Char} (list : c ≠ '[') (record : c ≠ '\x7b')
    (depth : ℕ) : value? depth (c :: rest) = scalar? (c :: rest) := by
  unfold value?
  split
  case h_1 eq => cases eq; contradiction
  case h_2 eq => cases eq; contradiction
  case h_3 => rfl

/-- The datum that a written number stands for. -/
def numberDatum (x : Float32) : Datum :=
  (ofToken? (Style.writeNumber x)).getD .null

variable (x : Float32)

theorem ofToken?_writeNumber : ofToken? (Style.writeNumber x) = some (numberDatum x) := by
  obtain ⟨written, read, -⟩ := (isReread x).ofToken?
  simp [numberDatum, read]

theorem single?_numberDatum : (numberDatum x).single? = some (reread x) := by
  obtain ⟨written, read, back⟩ := (isReread x).ofToken?
  simpa [numberDatum, read] using back

theorem ne_of_isNumberPart {c mark : Char} (part : isNumberPart c = true)
    (other : isNumberPart mark = false) : c ≠ mark := by
  rintro rfl
  rw [part] at other
  contradiction

theorem exists_writeNumber_eq_cons :
    ∃ c rest, Style.writeNumber x = c :: rest ∧ isNumberPart c = true := by
  obtain ⟨c, rest, eq⟩ := List.exists_cons_of_ne_nil (isReread x).ne_nil
  exact ⟨c, rest, eq, (isReread x).isNumberPart c (by simp [eq])⟩

theorem isTokenPart_of_isNumberPart {c : Char} (part : isNumberPart c = true) :
    isTokenPart c = true := by
  refine decide_eq_true fun member => ?_
  simp only [List.mem_cons, List.not_mem_nil, or_false] at member
  rcases member with rfl | rfl | rfl | rfl | rfl | rfl | rfl | rfl | rfl <;> contradiction

theorem isBlank_of_isNumberPart {c : Char} (part : isNumberPart c = true) : isBlank c = false := by
  by_contra blank
  simp only [isBlank, Bool.not_eq_false, Bool.or_eq_true, decide_eq_true_eq] at blank
  rcases blank with rfl | rfl <;> contradiction

theorem dropBlanksBehind_eq_self {text : List Char} (ink : ∀ c ∈ text, isBlank c = false) :
    dropBlanksBehind text = text := by
  have none : text.reverse.dropWhile isBlank = text.reverse := by
    cases eq : text.reverse with
    | nil => rfl
    | cons c rest =>
        have member : c ∈ text := by
          rw [← List.mem_reverse, eq]
          exact List.mem_cons_self
        rw [List.dropWhile_cons_of_neg (by simp [ink c member])]
  rw [dropBlanksBehind, none, List.reverse_reverse]

/-- A number is read up to what cannot belong to one. -/
theorem value?_writeNumber {c : Char} (stop : isTokenPart c = false) (depth : ℕ)
    (rest : List Char) :
    value? depth (Style.writeNumber x ++ c :: rest) = some (numberDatum x, c :: rest) := by
  obtain ⟨first, others, eq, part⟩ := exists_writeNumber_eq_cons x
  have token := takeWhile_append_cons
    (fun c member => isTokenPart_of_isNumberPart ((isReread x).isNumberPart c member)) stop rest
  have ink := dropBlanksBehind_eq_self fun c member =>
    isBlank_of_isNumberPart ((isReread x).isNumberPart c member)
  have unquoted : Quoted.opened? (Style.writeNumber x ++ c :: rest) = none := by
    rw [eq, List.cons_append]
    exact opened?_eq_none (ne_of_isNumberPart part (by decide))
      (ne_of_isNumberPart part (by decide))
  have scalar : value? depth (Style.writeNumber x ++ c :: rest) =
      scalar? (Style.writeNumber x ++ c :: rest) := by
    rw [eq, List.cons_append]
    exact value?_eq_scalar? (ne_of_isNumberPart part (by decide))
      (ne_of_isNumberPart part (by decide)) depth
  rw [scalar, scalar?, unquoted, token.1, token.2, ink, ofToken?_writeNumber]
  rfl

theorem isValue_writeNumber : IsValue (Style.writeNumber x) (numberDatum x) where
  starts := by
    obtain ⟨first, others, eq, part⟩ := exists_writeNumber_eq_cons x
    exact ⟨first, others, eq, isBlank_of_isNumberPart part⟩
  value? depth rest := value?_writeNumber x (by decide) (depth + 1) rest

theorem isValue_write (text : List Char) :
    IsValue (Quoted.write text) (.text (String.ofList text)) where
  starts := by
    rw [Quoted.write]
    cases Quoted.formFor text <;> exact ⟨_, _, rfl, by decide⟩
  value? depth rest := by
    have read : Quoted.read? (Quoted.write text ++ '\n' :: rest) = some (text, '\n' :: rest) :=
      Quoted.read?_write text (by simp) (by simp)
    have opened : (Quoted.opened? (Quoted.write text ++ '\n' :: rest)).isSome = true := by
      rw [Quoted.read?] at read
      obtain ⟨form, opened, -⟩ := Option.bind_eq_some_iff.1 read
      rw [opened]
      rfl
    have scalar : value? (depth + 1) (Quoted.write text ++ '\n' :: rest) =
        scalar? (Quoted.write text ++ '\n' :: rest) := by
      rw [Quoted.write]
      cases Quoted.formFor text <;> exact value?_eq_scalar? (by decide) (by decide) (depth + 1)
    rw [scalar, scalar?, if_pos opened, read]
    rfl

end Values

section Colors

/-- The numbers of a list, each on a line of its own. -/
def numberLine (x : Float32) : List Char :=
  "    ".toList ++ Style.writeNumber x ++ [',', '\n']

theorem skipTrivia_numberLine (x : Float32) (rest : List Char) :
    skipTrivia false (numberLine x ++ rest) = Style.writeNumber x ++ ',' :: '\n' :: rest := by
  obtain ⟨first, others, eq, part⟩ := exists_writeNumber_eq_cons x
  have indent (text : List Char) :
      skipTrivia false ("    ".toList ++ text) = skipTrivia false text := by
    simp [skipTrivia, isBreak, isBlank]
  rw [numberLine, List.append_assoc, List.append_assoc, indent, eq]
  exact skipTrivia_of_ne (isBlank_of_isNumberPart part) (ne_of_isNumberPart part (by decide))
    (ne_of_isNumberPart part (by decide)) (ne_of_isNumberPart part (by decide))

theorem series?_numberLines (numbers : List Float32) (depth : ℕ) {bound : ℕ}
    (enough : numbers.length < bound) (rest : List Char) :
    series? ']' (value? depth) bound
        (skipTrivia false (numbers.flatMap numberLine ++ ']' :: rest)) =
      some (numbers.map numberDatum, rest) := by
  induction numbers generalizing bound with
  | nil =>
      obtain ⟨steps, rfl⟩ := Nat.exists_eq_succ_of_ne_zero (Nat.ne_zero_of_lt enough)
      rw [List.flatMap_nil, List.nil_append, skipTrivia_of_ne (by decide) (by decide) (by decide)
        (by decide), series?]
      rfl
  | cons x numbers inductionHypothesis =>
      obtain ⟨steps, rfl⟩ := Nat.exists_eq_succ_of_ne_zero (Nat.ne_zero_of_lt enough)
      obtain ⟨first, others, eq, part⟩ := exists_writeNumber_eq_cons x
      have notClosing : first ≠ ']' := ne_of_isNumberPart part (by decide)
      have others := inductionHypothesis (Nat.lt_of_succ_lt_succ enough)
      have behind (rest : List Char) : skipTrivia false (',' :: rest) = ',' :: rest :=
        skipTrivia_of_ne (by decide) (by decide) (by decide) (by decide)
      rw [List.flatMap_cons, List.append_assoc, skipTrivia_numberLine, series?,
        value?_writeNumber x (by decide), if_neg (by simp [eq, notClosing])]
      simp only [Option.bind_eq_bind, Option.bind_some, behind, skipTrivia_lineEnd, others]
      rfl

def colorDatum (color : Color) : Datum :=
  .list ([color.red, color.green, color.blue, color.alpha].map numberDatum)

theorem isValue_writeColor (color : Color) :
    IsValue (Style.writeColor color) (colorDatum color) where
  starts := ⟨'[', _, rfl, by decide⟩
  value? depth rest := by
    set numbers := [color.red, color.green, color.blue, color.alpha] with numbersDef
    have text : Style.writeColor color ++ '\n' :: rest =
        '[' :: '\n' :: (numbers.flatMap numberLine ++ ']' :: '\n' :: rest) := by
      simp [Style.writeColor, numbersDef, numberLine]
    have enough : numbers.length <
        ('\n' :: (numbers.flatMap numberLine ++ ']' :: '\n' :: rest)).length + 1 := by
      simp [numbersDef, numberLine]
    rw [text, Toml.value?, skipTrivia_lineEnd, series?_numberLines numbers depth enough]
    rfl

end Colors

section Lines

/-- The characters of a key that is written without marks. -/
def IsBareKey (name : String) : Prop :=
  name.toList ≠ [] ∧ ∀ c ∈ name.toList, isBare c = true

/-- A line of a key and a value. -/
def line (name : String) (value : List Char) : List Char :=
  name.toList ++ [' ', '=', ' '] ++ value ++ ['\n']

theorem IsBareKey.exists_eq_cons {name : String} (bare : IsBareKey name) :
    ∃ first others, name.toList = first :: others ∧
      ∀ {mark}, isBare mark = false → first ≠ mark := by
  obtain ⟨first, others, eq⟩ := List.exists_cons_of_ne_nil bare.1
  refine ⟨first, others, eq, fun other => ?_⟩
  rintro rfl
  rw [bare.2 first (by simp [eq])] at other
  contradiction

theorem key?_bare {name : String} (bare : IsBareKey name) {c : Char} (stop : isBare c = false)
    (rest : List Char) : key? (name.toList ++ c :: rest) = some (name, c :: rest) := by
  obtain ⟨first, others, eq, ne⟩ := bare.exists_eq_cons
  have unquoted : Quoted.opened? (name.toList ++ c :: rest) = none := by
    rw [eq, List.cons_append]
    exact opened?_eq_none (ne (by decide)) (ne (by decide))
  have taken := takeWhile_append_cons bare.2 stop rest
  rw [key?, unquoted, taken.1, taken.2]
  simp [bare.1]

theorem statement?_line {name : String} {value : List Char} {datum : Datum} (bare : IsBareKey name)
    (isValue : IsValue value datum) (rest : List Char) :
    statement? (line name value ++ rest) = some (.entry [name] datum, '\n' :: rest) := by
  obtain ⟨first, others, eq, ne⟩ := bare.exists_eq_cons
  obtain ⟨start, behind, valueEq, ink⟩ := isValue.starts
  have text : line name value ++ rest =
      name.toList ++ ' ' :: '=' :: ' ' :: (value ++ '\n' :: rest) := by
    simp [line]
  have path : path? greatestDepth (line name value ++ rest) =
      some ([name], '=' :: ' ' :: (value ++ '\n' :: rest)) := by
    rw [text, greatestDepth, path?, key?_bare bare (by decide)]
    rfl
  have assignment : assignment? skipBlanks (value? greatestDepth) (line name value ++ rest) =
      some (([name], datum), '\n' :: rest) := by
    have blank : skipBlanks (' ' :: (value ++ '\n' :: rest)) = value ++ '\n' :: rest := by
      rw [skipBlanks, List.dropWhile_cons_of_pos (by decide), valueEq]
      exact skipBlanks_of_not_isBlank ink
    have equals : skipBlanks ('=' :: ' ' :: (value ++ '\n' :: rest)) =
        '=' :: ' ' :: (value ++ '\n' :: rest) := skipBlanks_of_not_isBlank (by decide)
    rw [assignment?, path]
    simp only [Option.bind_eq_bind, Option.bind_some, equals, blank, greatestDepth,
      isValue.value?]
  unfold statement?
  split
  case h_1 start =>
    rw [text, eq] at start
    exact absurd (List.cons.inj start).1 (ne (by decide))
  case h_2 start =>
    rw [text, eq] at start
    exact absurd (List.cons.inj start).1 (ne (by decide))
  case h_3 =>
    rw [assignment]
    rfl

theorem skipTrivia_line {name : String} (bare : IsBareKey name) (value rest : List Char) :
    skipTrivia false (line name value ++ rest) = line name value ++ rest ∧
      line name value ++ rest ≠ [] := by
  obtain ⟨first, others, eq, ne⟩ := bare.exists_eq_cons
  rw [line, eq]
  have blank : first ≠ ' ' := ne (by decide)
  have tab : first ≠ '\t' := ne (by decide)
  refine ⟨skipTrivia_of_ne ?_ (ne (by decide)) (ne (by decide)) (ne (by decide)), by simp⟩
  simp [isBlank, blank, tab]

end Lines

end ArcGraph.Toml
