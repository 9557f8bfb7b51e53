import ArcGraph.Toml.Quoted.Reader
import ArcGraph.Toml.Quoted.Writer
import Mathlib.Tactic.IntervalCases

/-!
Every text can be written and read.

A character is written as itself or as an escape, and is read as itself in both
cases unless it closes the text. In a block of several lines a mark closes the
text only where three stand in a row, which the writer takes care of by escapes
or by its choice of the form.
-/

namespace ArcGraph.Toml.Quoted

variable {form : Form} {c : Char} {text rest : List Char}

section Characters

theorem close?_of_ne_mark (ne : c ≠ form.mark) : close? form (c :: rest) = none := by
  simp [close?, ne]

/-- What a character means among those that stand for themselves. -/
theorem readContent?_plain (c : Char) (rest : List Char) :
    readContent? form .plain (c :: rest) =
      match close? form (c :: rest) with
      | some done => some done
      | none =>
          if c = '\\' && !form.isLiteral then readContent? form .escape rest
          else if admits form c rest then (readContent? form .plain rest).map (before c)
          else none := by
  rw [readContent?]
  · cases close? form (c :: rest) <;> simp [Mode.skip?]
  · nofun
  · nofun

theorem readContent?_cons (inside : close? form (c :: rest) = none)
    (itself : (c = '\\' && !form.isLiteral) = false) (admitted : admits form c rest = true) :
    readContent? form .plain (c :: rest) = (readContent? form .plain rest).map (before c) := by
  rw [readContent?_plain, inside]
  simp [itself, admitted]

theorem digitValue?_hexDigit {n : Nat} (lt : n < 16) : digitValue? (hexDigit n) = some n := by
  interval_cases n <;> decide

theorem ofCode?_toNat (c : Char) : ofCode? c.toNat = some c := by
  have valid : c.toNat.isValidChar := c.valid
  rw [ofCode?, dif_pos valid]
  congr 1

/-- What needs an escape is written with a letter, or as a code of two digits. -/
theorem escape_cases (needed : c = '"' ∨ c = '\\' ∨ c = '\t' ∨ isPlain c = false) :
    (∃ letter, escape c = ['\\', letter] ∧ ofLetter? letter = some c) ∨
      escape c = ['\\', 'u', '0', '0', hexDigit (c.toNat / 16), hexDigit (c.toNat % 16)] ∧
        c.toNat < 128 := by
  rw [escape]
  split
  case h_1 other letter found =>
    left
    refine ⟨letter, rfl, ?_⟩
    obtain rfl : other = c := by simpa using List.find?_some found
    have member := List.mem_of_find?_eq_some found
    simp only [letters, List.mem_cons, Prod.mk.injEq, List.not_mem_nil, or_false] at member
    rcases member with ⟨rfl, rfl⟩ | ⟨rfl, rfl⟩ | ⟨rfl, rfl⟩ | ⟨rfl, rfl⟩ | ⟨rfl, rfl⟩ | ⟨rfl, rfl⟩ |
      ⟨rfl, rfl⟩ <;> rfl
  case h_2 =>
    right
    refine ⟨rfl, ?_⟩
    rcases needed with rfl | rfl | rfl | control
    · decide
    · decide
    · decide
    · simp [isPlain] at control
      omega

theorem exists_escape_eq_cons (c : Char) : ∃ others, escape c = '\\' :: others := by
  rw [escape]
  split <;> exact ⟨_, rfl⟩

/-- An escape stands for its character. -/
theorem readContent?_escape (escapes : form.isLiteral = false)
    (needed : c = '"' ∨ c = '\\' ∨ c = '\t' ∨ isPlain c = false) :
    readContent? form .plain (escape c ++ rest) =
      (readContent? form .plain rest).map (before c) := by
  have backslash (rest : List Char) : readContent? form .plain ('\\' :: rest) =
      readContent? form .escape rest := by
    have mark : '\\' ≠ form.mark := by cases form <;> decide
    rw [readContent?_plain, close?_of_ne_mark mark]
    simp [escapes]
  rcases escape_cases needed with ⟨letter, eq, meant⟩ | ⟨eq, small⟩
  · rw [eq, List.cons_append, backslash, List.cons_append, readContent?, meant]
    rfl
  · have whole : 16 * (c.toNat / 16) + c.toNat % 16 = c.toNat := Nat.div_add_mod c.toNat 16
    have letter : ofLetter? 'u' = none := rfl
    have count : digitCount? 'u' = some 4 := rfl
    have zero : digitValue? '0' = some 0 := rfl
    have high : digitValue? (hexDigit (c.toNat / 16)) = some (c.toNat / 16) :=
      digitValue?_hexDigit (by omega)
    have low : digitValue? (hexDigit (c.toNat % 16)) = some (c.toNat % 16) :=
      digitValue?_hexDigit (by omega)
    rw [eq]
    simp only [List.cons_append, List.nil_append, backslash]
    simp [readContent?, letter, count, zero, high, low, whole, ofCode?_toNat]

end Characters

section Lines

/-- A character that is written begins with no mark and with no end of a line. -/
theorem exists_inLine_eq_cons (c : Char) :
    ∃ first others, inLine c = first :: others ∧ first ≠ '"' ∧ isPlain first = true := by
  rw [inLine]
  split
  case isTrue =>
    obtain ⟨others, eq⟩ := exists_escape_eq_cons c
    exact ⟨_, others, eq, by decide, by decide⟩
  case isFalse itself =>
    simp only [Bool.or_eq_true, decide_eq_true_eq, Bool.not_eq_true', not_or, Bool.not_eq_false]
      at itself
    exact ⟨c, [], rfl, itself.1.1.1, itself.2⟩

theorem readContent?_inLine (escapes : form.isLiteral = false) (c : Char) (rest : List Char) :
    readContent? form .plain (inLine c ++ rest) =
      (readContent? form .plain rest).map (before c) := by
  rw [inLine]
  split
  case isTrue needed => exact readContent?_escape escapes (by simpa [or_assoc] using needed)
  case isFalse itself =>
    simp only [Bool.or_eq_true, decide_eq_true_eq, Bool.not_eq_true', not_or, Bool.not_eq_false]
      at itself
    have mark : c ≠ form.mark := by cases form <;> first | contradiction | exact itself.1.1.1
    refine readContent?_cons (close?_of_ne_mark mark) ?_ ?_
    · simp [itself.1.1.2]
    · simp [admits, itself.2]

theorem readContent?_line (text rest : List Char) :
    readContent? .line .plain (text.flatMap inLine ++ '"' :: rest) = some (text, rest) := by
  induction text with
  | nil =>
      rw [List.flatMap_nil, List.nil_append, readContent?_plain]
      simp [close?, Form.mark, Form.isBlock]
  | cons c text inductionHypothesis =>
      rw [List.flatMap_cons, List.append_assoc, readContent?_inLine rfl, inductionHypothesis]
      rfl

theorem readContent?_literalLine {text : List Char} (suited : suits text .literalLine = true)
    (rest : List Char) :
    readContent? .literalLine .plain (text ++ '\x27' :: rest) = some (text, rest) := by
  induction text with
  | nil =>
      rw [List.nil_append, readContent?_plain]
      simp [close?, Form.mark, Form.isBlock]
  | cons c text inductionHypothesis =>
      simp only [suits, List.all_cons, Bool.and_eq_true] at suited
      obtain ⟨⟨⟨plain, mark⟩, line⟩, others⟩ := suited
      have admitted : admits .literalLine c (text ++ '\x27' :: rest) = true := by
        simp_all [admits, needsEscape]
      rw [List.cons_append, readContent?_cons (close?_of_ne_mark (by simpa [Form.mark] using mark))
        (by simp [Form.isLiteral]) admitted, inductionHypothesis others]
      rfl

end Lines

section Blocks

/-- How many marks a text starts with. -/
def markCount (form : Form) (text : List Char) : Nat :=
  (text.takeWhile (· = form.mark)).length

theorem markCount_of_ne_mark (ne : c ≠ form.mark) : markCount form (c :: rest) = 0 := by
  simp [markCount, ne]

theorem markCount_mark (rest : List Char) :
    markCount form (form.mark :: rest) = markCount form rest + 1 := by
  simp [markCount]

variable (form) in
theorem close?_of_markCount_le (block : form.isBlock = true) (le : markCount form text ≤ 2) :
    close? form text = none := by
  rw [markCount] at le
  simp only [close?, block, if_true]
  rw [if_neg (by omega)]

theorem readContent?_of_close? {done : List Char × List Char}
    (closed : close? form text = some done) : readContent? form .plain text = some done := by
  cases text with
  | nil => cases form <;> cases closed
  | cons c rest => rw [readContent?_plain, closed]

theorem markCount_append (count : Nat) (next : rest.head? ≠ some form.mark) :
    markCount form (List.replicate count form.mark ++ rest) = count := by
  have none : rest.takeWhile (· = form.mark) = [] := by
    cases rest with
    | nil => rfl
    | cons c rest => exact List.takeWhile_cons_of_neg (by simpa using next)
  rw [markCount, List.takeWhile_append_of_pos (by simp +contextual [List.mem_replicate]), none]
  simp

theorem delimiter_of_isBlock (block : form.isBlock = true) :
    form.delimiter = List.replicate 3 form.mark := by
  rw [Form.delimiter, if_pos block]

variable (form) in
/-- Marks before the closing ones belong to the text, up to two of them. -/
theorem close?_append_delimiter (block : form.isBlock = true) {count : Nat} (few : count ≤ 2)
    (next : rest.head? ≠ some form.mark) :
    close? form (List.replicate count form.mark ++ (form.delimiter ++ rest)) =
      some (List.replicate count form.mark, rest) := by
  have total := markCount_append (count + 3) next
  rw [markCount] at total
  rw [delimiter_of_isBlock block, ← List.append_assoc,
    List.replicate_append_replicate]
  simp only [close?, block, if_true, total]
  rw [if_pos (by omega), Nat.min_eq_left (by omega), Nat.add_sub_cancel, List.drop_left']
  simp

variable (text rest) in
/-- The escapes leave at most two marks before anything but the end of the text. -/
theorem markCount_inBlock {run : Nat} (few : run ≤ 2) :
    (∃ count, run + count ≤ 2 ∧ text = List.replicate count '"' ∧
        inBlock run text = List.replicate count '"') ∨
      run + markCount .block (inBlock run text ++ (Form.delimiter .block ++ rest)) ≤ 2 := by
  induction text generalizing run with
  | nil => exact .inl ⟨0, few, rfl, rfl⟩
  | cons c text inductionHypothesis =>
      rw [inBlock]
      split_ifs with mark full line
      · right
        subst mark full
        obtain ⟨others, eq⟩ := exists_escape_eq_cons '"'
        rw [eq, List.cons_append, List.cons_append, markCount_of_ne_mark (by decide)]
      · subst mark
        rcases inductionHypothesis (show run + 1 ≤ 2 by omega) with
          ⟨count, le, rfl, same⟩ | le
        · refine .inl ⟨count + 1, by omega, rfl, ?_⟩
          rw [same]
          rfl
        · right
          rw [List.cons_append, show '"' = Form.mark .block from rfl, markCount_mark]
          omega
      · right
        rw [List.cons_append, markCount_of_ne_mark mark]
        omega
      · right
        obtain ⟨first, others, eq, other, -⟩ := exists_inLine_eq_cons c
        rw [eq, List.cons_append, List.cons_append, markCount_of_ne_mark other]
        omega

theorem readContent?_block (next : rest.head? ≠ some '"') (text : List Char) {run : Nat}
    (few : run ≤ 2) :
    readContent? .block .plain (inBlock run text ++ (Form.delimiter .block ++ rest)) =
      some (text, rest) := by
  induction text generalizing run with
  | nil =>
      refine readContent?_of_close? ?_
      exact close?_append_delimiter .block rfl (Nat.zero_le 2) next
  | cons c text inductionHypothesis =>
      rcases markCount_inBlock (c :: text) rest few with ⟨count, le, eq, same⟩ | le
      · rw [same, eq]
        refine readContent?_of_close? ?_
        exact close?_append_delimiter .block rfl (by omega) next
      -- nothing closes the block here, so the character is read and the run of marks goes on or
      -- ends
      have inside := close?_of_markCount_le .block rfl ((Nat.le_add_left _ run).trans le)
      revert inside
      rw [inBlock]
      split_ifs with mark full line
      · intro
        rw [List.append_assoc, readContent?_escape rfl (.inl mark), inductionHypothesis (by omega)]
        rfl
      · intro inside
        have admitted (rest : List Char) : admits .block c rest = true := by
          rw [mark]
          rfl
        rw [List.cons_append] at inside ⊢
        rw [readContent?_cons inside (by simp [mark]) (admitted _), inductionHypothesis (by omega)]
        rfl
      · intro inside
        rw [List.cons_append] at inside ⊢
        rw [readContent?_cons inside (by simp [line])
          (by simp [admits, line, isBreak, Form.isBlock]), inductionHypothesis (by omega)]
        rfl
      · intro
        rw [List.append_assoc, readContent?_inLine rfl, inductionHypothesis (by omega)]
        rfl

theorem takeWhile_eq_replicate (text : List Char) :
    text.takeWhile (· = form.mark) = List.replicate (markCount form text) form.mark := by
  refine List.eq_replicate_iff.2 ⟨rfl, fun c member => ?_⟩
  exact of_decide_eq_true (List.all_eq_true.1 (List.all_takeWhile (p := (· = form.mark))) c member)

/-- A text without three marks in a row starts with at most two. -/
theorem markCount_le_of_hasTriple (single : hasTriple form.mark text = false) :
    markCount form text ≤ 2 := by
  by_contra many
  have start : List.replicate 3 form.mark <+: text := by
    refine List.IsPrefix.trans ?_ (List.takeWhile_prefix fun c => decide (c = form.mark))
    rw [takeWhile_eq_replicate]
    exact ⟨List.replicate (markCount form text - 3) form.mark, by
      rw [List.replicate_append_replicate]; congr 1; omega⟩
  cases text with
  | nil => simp [markCount] at many
  | cons c text =>
      rw [hasTriple, Bool.or_eq_false_iff] at single
      rw [← List.isPrefixOf_iff_prefix, single.1] at start
      contradiction

variable (form) in
theorem markCount_append_of_hasTriple (single : hasTriple form.mark text = false)
    (rest : List Char) :
    (∃ count ≤ 2, text = List.replicate count form.mark) ∨
      markCount form (text ++ rest) ≤ 2 := by
  have few := markCount_le_of_hasTriple single
  by_cases marks : markCount form text = text.length
  · left
    refine ⟨markCount form text, few, ?_⟩
    rw [← takeWhile_eq_replicate]
    exact ((List.takeWhile_prefix _).eq_of_length marks).symm
  · right
    rw [markCount] at marks
    rwa [markCount, List.takeWhile_append, if_neg marks]

theorem readContent?_literalBlock (next : rest.head? ≠ some '\x27') {text : List Char}
    (suited : suits text .literalBlock = true) :
    readContent? .literalBlock .plain (text ++ (Form.delimiter .literalBlock ++ rest)) =
      some (text, rest) := by
  induction text with
  | nil =>
      refine readContent?_of_close? ?_
      exact close?_append_delimiter .literalBlock rfl (Nat.zero_le 2) next
  | cons c text inductionHypothesis =>
      simp only [suits, Bool.and_eq_true, List.all_cons, Bool.not_eq_true'] at suited
      obtain ⟨⟨plain, others⟩, single⟩ := suited
      rcases markCount_append_of_hasTriple .literalBlock single
        (Form.delimiter .literalBlock ++ rest) with ⟨count, le, eq⟩ | le
      · rw [eq]
        refine readContent?_of_close? ?_
        exact close?_append_delimiter .literalBlock rfl le next
      have inside := close?_of_markCount_le .literalBlock rfl le
      have admitted (rest : List Char) : admits .literalBlock c rest = true := by
        simp only [needsEscape, Bool.and_eq_false_iff, Bool.not_eq_false', decide_eq_false_iff_not,
          not_not] at plain
        rcases plain with plain | rfl
        · simp [admits, plain]
        · simp [admits, isBreak, Form.isBlock]
      rw [List.cons_append] at inside ⊢
      rw [readContent?_cons inside (by simp [Form.isLiteral]) (admitted _), inductionHypothesis]
      · rfl
      · rw [hasTriple, Bool.or_eq_false_iff] at single
        simp only [suits, others, single.2]
        rfl

end Blocks

section Texts

theorem opened?_block (block : form.isBlock = true) (text : List Char) :
    opened? (form.delimiter ++ text) = some form := by
  cases form <;> first | contradiction | rfl

theorem opened?_line (line : form.isBlock = false)
    (next : (List.replicate 2 form.mark).isPrefixOf text = false) :
    opened? (form.delimiter ++ text) = some form := by
  cases form with
  | block => contradiction
  | literalBlock => contradiction
  | line =>
      rw [Form.mark] at next
      simp_all [opened?, Form.delimiter, Form.isBlock, Form.mark, List.isPrefixOf]
  | literalLine =>
      rw [Form.mark] at next
      simp_all [opened?, Form.delimiter, Form.isBlock, Form.mark, List.isPrefixOf]

theorem suits_formFor (literal : (formFor text).isLiteral = true) :
    suits text (formFor text) = true := by
  revert literal
  rw [formFor]
  split
  case h_1 form found => exact fun _ => List.find?_some found
  case h_2 => split <;> exact fun literal => absurd literal (by decide)

theorem dropBreak_of_isPlain (plain : isPlain c = true) : dropBreak (c :: rest) = c :: rest := by
  unfold dropBreak
  split
  case h_1 eq => cases eq; contradiction
  case h_2 eq => cases eq; contradiction
  case h_3 => rfl

/-- A line end before a block is there only where the block holds one. -/
theorem dropBreak_lead (block : form.isBlock = true)
    (suited : form.isLiteral = true → suits text form = true) (rest : List Char) :
    dropBreak (lead form text ++ (content text form ++ (form.delimiter ++ rest))) =
      content text form ++ (form.delimiter ++ rest) := by
  by_cases line : '\n' ∈ text
  · rw [lead, block, decide_eq_true line]
    rfl
  have noLead : lead form text = [] := by
    rw [lead, decide_eq_false line, Bool.and_false]
    rfl
  rw [noLead, List.nil_append]
  cases form with
  | line => contradiction
  | literalLine => contradiction
  | block =>
      cases text with
      | nil => exact dropBreak_of_isPlain (c := '"') rfl
      | cons c text =>
          simp only [List.mem_cons, not_or] at line
          obtain ⟨first, others, eq, -, plain⟩ := exists_inLine_eq_cons c
          rw [content, inBlock]
          split
          case isTrue mark => exact dropBreak_of_isPlain (by rw [mark]; rfl)
          case isFalse =>
            rw [if_neg (Ne.symm line.1), eq]
            exact dropBreak_of_isPlain plain
  | literalBlock =>
      cases text with
      | nil => exact dropBreak_of_isPlain (c := '\x27') rfl
      | cons c text =>
          have suited := suited rfl
          simp only [List.mem_cons, not_or] at line
          simp only [suits, Bool.and_eq_true, List.all_cons] at suited
          refine dropBreak_of_isPlain ?_
          simpa [needsEscape, Ne.symm line.1] using suited.1.1

/-- What is written between the marks is read as the text. -/
theorem readBody?_content (suited : form.isLiteral = true → suits text form = true)
    (next : rest.head? ≠ some form.mark) :
    readBody? form (lead form text ++ (content text form ++ (form.delimiter ++ rest))) =
      some (text, rest) := by
  rw [readBody?]
  cases form with
  | line => exact readContent?_line text rest
  | literalLine => exact readContent?_literalLine (suited rfl) rest
  | block =>
      rw [if_pos (show Form.isBlock .block = true from rfl), dropBreak_lead rfl suited]
      exact readContent?_block next text (Nat.zero_le 2)
  | literalBlock =>
      rw [if_pos (show Form.isBlock .literalBlock = true from rfl), dropBreak_lead rfl suited]
      exact readContent?_literalBlock next (suited rfl)

/-- A line that is written does not start like a block. -/
theorem isPrefixOf_content (line : form.isBlock = false)
    (suited : form.isLiteral = true → suits text form = true)
    (next : rest.head? ≠ some form.mark) :
    (List.replicate 2 form.mark).isPrefixOf
      (lead form text ++ (content text form ++ (form.delimiter ++ rest))) = false := by
  have noLead : lead form text = [] := by
    rw [lead, line]
    rfl
  have start {first : Char} {others : List Char} (ne : first ≠ form.mark) :
      (List.replicate 2 form.mark).isPrefixOf (first :: others) = false := by
    simp [List.replicate_succ, List.isPrefixOf, Ne.symm ne]
  rw [noLead, List.nil_append]
  cases text with
  | nil =>
      have empty : content [] form = [] := by cases form <;> rfl
      have delimiter : form.delimiter = [form.mark] := by
        rw [Form.delimiter, line]
        rfl
      rw [empty, delimiter]
      cases rest with
      | nil => simp [List.replicate_succ, List.isPrefixOf]
      | cons c rest =>
          have ne : c ≠ form.mark := by simpa using next
          simp [List.replicate_succ, List.isPrefixOf, Ne.symm ne]
  | cons c text =>
      cases form with
      | block => contradiction
      | literalBlock => contradiction
      | line =>
          obtain ⟨first, others, eq, other, -⟩ := exists_inLine_eq_cons c
          rw [content, List.flatMap_cons, eq]
          exact start other
      | literalLine =>
          have suited := suited rfl
          simp only [suits, Bool.and_eq_true, List.all_cons] at suited
          exact start (by simpa [Form.mark] using suited.1.1.2)

/-- Every text is read as it was written. -/
theorem read?_write (text : List Char) (double : rest.head? ≠ some '"')
    (single : rest.head? ≠ some '\x27') : read? (write text ++ rest) = some (text, rest) := by
  have next : rest.head? ≠ some (formFor text).mark := by
    cases formFor text <;> assumption
  have opened : opened? (write text ++ rest) = some (formFor text) := by
    simp only [write, List.append_assoc]
    cases line : (formFor text).isBlock
    · exact opened?_line line (isPrefixOf_content line suits_formFor next)
    · exact opened?_block line _
  rw [read?, opened, write]
  simp only [List.append_assoc, Option.bind_some, List.drop_left]
  exact readBody?_content suits_formFor next

end Texts

end ArcGraph.Toml.Quoted
