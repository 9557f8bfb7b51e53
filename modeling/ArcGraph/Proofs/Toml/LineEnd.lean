import ArcGraph.Toml.Reader
import Mathlib.Data.List.Basic

/-!
Readers that do not look past the end of a line.

A reader may look a few characters ahead, but never past the end of a line that
it does not take. So what it makes of a text that ends a line does not depend on
what follows. Blanks, comments and quoted texts come first.
-/

namespace ArcGraph.Toml

/-- The last character ends a line. -/
def EndsLine (text : List Char) : Prop :=
  text.getLast? = some '\n'

/-- The reader leaves an end of a line, and it reads the same if more text follows. -/
def IsLocal {α : Type} (read? : List Char → Option (α × List Char)) : Prop :=
  ∀ ⦃text x rest⦄, EndsLine text → read? text = some (x, rest) →
    EndsLine rest ∧ ∀ more, read? (text ++ more) = some (x, rest ++ more)

/-- All is skipped, or the same is skipped if more text follows. -/
def IsLocalSkip (skip : List Char → List Char) : Prop :=
  ∀ ⦃text⦄, EndsLine text →
    skip text = [] ∨ EndsLine (skip text) ∧ ∀ more, skip (text ++ more) = skip text ++ more

section Lines

variable {c : Char} {text rest before mark : List Char}

theorem not_endsLine_nil : ¬EndsLine [] := by
  simp [EndsLine]

theorem endsLine_singleton : EndsLine [c] ↔ c = '\n' := by
  simp [EndsLine]

theorem endsLine_cons_cons {d : Char} : EndsLine (c :: d :: rest) ↔ EndsLine (d :: rest) := by
  rw [EndsLine, List.getLast?_cons_cons, EndsLine]

theorem EndsLine.tail (ends : EndsLine (c :: rest)) : c = '\n' ∧ rest = [] ∨ EndsLine rest := by
  cases rest with
  | nil => exact .inl ⟨endsLine_singleton.mp ends, rfl⟩
  | cons d rest => exact .inr (endsLine_cons_cons.mp ends)

theorem EndsLine.tail_of_ne (ends : EndsLine (c :: rest)) (ne : c ≠ '\n') : EndsLine rest :=
  ends.tail.resolve_left fun last => ne last.1

theorem EndsLine.of_append (ends : EndsLine (before ++ rest)) (inLine : '\n' ∉ before) :
    EndsLine rest := by
  induction before with
  | nil => exact ends
  | cons c before inductionHypothesis =>
      rw [List.mem_cons, not_or] at inLine
      exact inductionHypothesis (ends.tail_of_ne (Ne.symm inLine.1)) inLine.2

theorem EndsLine.prepend (ends : EndsLine rest) (before : List Char) :
    EndsLine (before ++ rest) := by
  rw [EndsLine] at *
  rw [List.getLast?_append, ends, Option.some_or]

theorem EndsLine.dropWhile {p : Char → Bool} (ends : EndsLine text) (stop : p '\n' = false) :
    EndsLine (text.dropWhile p) ∧ ∀ more,
      (text ++ more).takeWhile p = text.takeWhile p ∧
        (text ++ more).dropWhile p = text.dropWhile p ++ more := by
  induction text with
  | nil => exact absurd ends not_endsLine_nil
  | cons c text inductionHypothesis =>
      cases part : p c with
      | false => simpa [part] using ends
      | true =>
          have ne : c ≠ '\n' := by
            rintro rfl
            rw [part] at stop
            cases stop
          simpa [part] using inductionHypothesis (ends.tail_of_ne ne)

theorem EndsLine.isPrefixOf_append (ends : EndsLine text) (inLine : '\n' ∉ mark)
    (more : List Char) : mark.isPrefixOf (text ++ more) = mark.isPrefixOf text := by
  induction mark generalizing text with
  | nil => simp
  | cons m mark inductionHypothesis =>
      rw [List.mem_cons, not_or] at inLine
      cases text with
      | nil => exact absurd ends not_endsLine_nil
      | cons c text =>
          rw [List.cons_append, List.isPrefixOf_cons_cons, List.isPrefixOf_cons_cons]
          rcases ends.tail with ⟨rfl, rfl⟩ | ends
          · have other : (m == '\n') = false := beq_false_of_ne (Ne.symm inLine.1)
            rw [other, Bool.false_and, Bool.false_and]
          · rw [inductionHypothesis ends inLine.2]

theorem EndsLine.isBreak_append (ends : EndsLine rest) (c : Char) (more : List Char) :
    isBreak c (rest ++ more) = isBreak c rest := by
  cases rest with
  | nil => exact absurd ends not_endsLine_nil
  | cons => rfl

end Lines

/-! ### Blanks and comments -/

section Trivia

theorem skipBlanks_local {text : List Char} (ends : EndsLine text) :
    EndsLine (skipBlanks text) ∧ ∀ more, skipBlanks (text ++ more) = skipBlanks text ++ more := by
  obtain ⟨rest, extended⟩ := ends.dropWhile (p := isBlank) rfl
  exact ⟨rest, fun more => (extended more).2⟩

theorem isLocalSkip_skipBlanks : IsLocalSkip skipBlanks := fun _ ends =>
  .inr (skipBlanks_local ends)

theorem skipTrivia_append {text : List Char} (ends : EndsLine text) (inComment : Bool) :
    skipTrivia inComment text = [] ∧
        (∀ more, skipTrivia inComment (text ++ more) = skipTrivia false more) ∨
      EndsLine (skipTrivia inComment text) ∧
        ∀ more, skipTrivia inComment (text ++ more) = skipTrivia inComment text ++ more := by
  induction text generalizing inComment with
  | nil => exact absurd ends not_endsLine_nil
  | cons c text inductionHypothesis =>
      rcases ends.tail with ⟨rfl, rfl⟩ | tail
      · exact .inl ⟨rfl, fun more => by simp [skipTrivia, isBreak]⟩
      · simp only [List.cons_append, skipTrivia, tail.isBreak_append]
        split_ifs with lineEnd comment plain blank mark
        · exact inductionHypothesis tail false
        · exact inductionHypothesis tail true
        · exact .inr ⟨ends, fun more => rfl⟩
        · exact inductionHypothesis tail false
        · exact inductionHypothesis tail true
        · exact .inr ⟨ends, fun more => rfl⟩

theorem isLocalSkip_skipTrivia : IsLocalSkip (skipTrivia false) := fun _ ends =>
  (skipTrivia_append ends false).imp_left And.left

theorem skipComment_local {text : List Char} (ends : EndsLine text) :
    EndsLine (skipComment text) ∧
      ∀ more, skipComment (text ++ more) = skipComment text ++ more := by
  cases text with
  | nil => exact absurd ends not_endsLine_nil
  | cons c text =>
      by_cases comment : c = '#'
      · subst comment
        obtain ⟨rest, extended⟩ := (ends.tail_of_ne (by decide)).dropWhile (p := isPlain) rfl
        exact ⟨rest, fun more => (extended more).2⟩
      · have kept (rest : List Char) : skipComment (c :: rest) = c :: rest := by
          unfold skipComment
          split
          case h_1 start => exact absurd (List.cons.inj start).1 comment
          case h_2 => rfl
        rw [kept]
        exact ⟨ends, fun more => kept _⟩

theorem lineEnd?_local {text rest : List Char} (ends : EndsLine text)
    (read : lineEnd? text = some rest) :
    (rest = [] ∨ EndsLine rest) ∧ ∀ more, lineEnd? (text ++ more) = some (rest ++ more) := by
  obtain ⟨blank, blanks⟩ := skipBlanks_local ends
  obtain ⟨ends, extended⟩ := skipComment_local blank
  simp only [lineEnd?, blanks, extended]
  rw [lineEnd?] at read
  generalize skipComment (skipBlanks text) = text at read ends
  split at read
  case h_1 => exact absurd ends not_endsLine_nil
  case h_2 =>
    cases read
    exact ⟨ends.tail.imp_left And.right, fun more => rfl⟩
  case h_3 =>
    cases read
    exact ⟨(ends.tail_of_ne (by decide)).tail.imp_left And.right, fun more => rfl⟩
  case h_4 => cases read

end Trivia

/-! ### Quoted texts -/

namespace Quoted

variable {form : Form} {mode : Mode} {c : Char} {text rest : List Char}

theorem mark_ne (form : Form) : form.mark ≠ '\n' := by
  cases form <;> decide

theorem notMem_delimiter (form : Form) : '\n' ∉ form.delimiter := fun member =>
  mark_ne form (List.eq_of_mem_replicate member).symm

theorem opened?_append (ends : EndsLine text) (more : List Char) :
    opened? (text ++ more) = opened? text := by
  simp only [opened?, ends.isPrefixOf_append (notMem_delimiter _)]

/-- Behind the marks there is an end of a line, so none are missed. -/
theorem close?_append (ends : EndsLine text) (form : Form) (more : List Char) :
    close? form (text ++ more) =
      (close? form text).map fun (inside, rest) => (inside, rest ++ more) := by
  have taken := ((ends.dropWhile (p := (· = form.mark)) (by simp [(mark_ne form).symm])).2 more).1
  have dropped {count : ℕ} (le : count ≤ (text.takeWhile (· = form.mark)).length) :
      (text ++ more).drop count = text.drop count ++ more :=
    List.drop_append_of_le_length (Nat.le_trans le (List.takeWhile_prefix _).length_le)
  simp only [close?, taken]
  split_ifs with block few one
  · rw [dropped (Nat.min_le_left _ _)]
    rfl
  · rfl
  · rw [dropped one]
    rfl
  · rfl

theorem endsLine_of_close? {inside : List Char} (ends : EndsLine text)
    (closed : close? form text = some (inside, rest)) : EndsLine rest := by
  obtain ⟨behind, -⟩ := ends.dropWhile (p := (· = form.mark)) (by simp [(mark_ne form).symm])
  have left {count : ℕ} (le : count ≤ (text.takeWhile (· = form.mark)).length) :
      EndsLine (text.drop count) := by
    rw [← List.takeWhile_append_dropWhile (p := (· = form.mark)) (l := text),
      List.drop_append_of_le_length le]
    exact behind.prepend _
  simp only [close?] at closed
  split_ifs at closed with block few one
  · cases closed
    exact left (Nat.min_le_left _ _)
  · cases closed
    exact left one

theorem readContent?_lineEnd (form : Form) (mode : Mode) :
    readContent? form mode ['\n'] = none := by
  cases mode with
  | escape => cases form <;> rfl
  | code more value => rw [readContent?]; rfl
  | plain => cases form <;> rfl
  | gap ended => cases form <;> cases ended <;> rfl

theorem Mode.skip?_append (mode : Mode) (c : Char) (ends : EndsLine text) (more : List Char) :
    mode.skip? c (text ++ more) = mode.skip? c text := by
  cases mode <;> simp only [skip?, ends.isBreak_append]

theorem admits_append (form : Form) (c : Char) (ends : EndsLine text) (more : List Char) :
    admits form c (text ++ more) = admits form c text := by
  rw [admits, admits, ends.isBreak_append]

theorem readContent?_passing (other : mode ≠ .escape)
    (other' : ∀ more value, mode ≠ .code more value) (c : Char) (rest : List Char) :
    readContent? form mode (c :: rest) =
      match mode.skip? c rest, close? form (c :: rest) with
      | some next, _ => readContent? form next rest
      | none, some done => if mode = .gap false then none else some done
      | none, none =>
          if mode = .gap false then none
          else if c = '\\' && !form.isLiteral then readContent? form .escape rest
          else if admits form c rest then (readContent? form .plain rest).map (before c)
          else none := by
  refine (readContent?.eq_6 form mode c rest other other').trans ?_
  cases mode.skip? c rest <;> cases close? form (c :: rest) <;> rfl

theorem readContent?_local (form : Form) (mode : Mode) : IsLocal (readContent? form mode) := by
  intro text
  induction text generalizing mode with
  | nil => exact fun _ _ ends => absurd ends not_endsLine_nil
  | cons c text inductionHypothesis =>
      intro x rest ends read
      have tail : EndsLine text := by
        refine ends.tail.resolve_left ?_
        rintro ⟨rfl, rfl⟩
        rw [readContent?_lineEnd] at read
        cases read
      have mapped {mode : Mode} {meant : Char}
          (read : (readContent? form mode text).map (before meant) = some (x, rest)) :
          EndsLine rest ∧ ∀ more, (readContent? form mode (text ++ more)).map (before meant) =
            some (x, rest ++ more) := by
        obtain ⟨⟨y, rest'⟩, read', eq⟩ := Option.map_eq_some_iff.mp read
        obtain ⟨ends', extended⟩ := inductionHypothesis mode tail read'
        cases eq
        exact ⟨ends', fun more => by rw [extended]; rfl⟩
      have passing (mode : Mode) (other : mode ≠ .escape)
          (other' : ∀ more value, mode ≠ .code more value)
          (read : readContent? form mode (c :: text) = some (x, rest)) :
          EndsLine rest ∧
            ∀ more, readContent? form mode (c :: text ++ more) = some (x, rest ++ more) := by
        have closed (more : List Char) := close?_append ends form more
        simp only [List.cons_append] at closed ⊢
        simp only [readContent?_passing other other', mode.skip?_append c tail, closed,
          admits_append form c tail] at read ⊢
        cases skipped : mode.skip? c text with
        | some next =>
            simp only [skipped] at read ⊢
            exact inductionHypothesis next tail read
        | none =>
            cases done : close? form (c :: text) with
            | some done =>
                simp only [skipped, done, Option.map_some] at read ⊢
                split_ifs at read ⊢
                cases read
                exact ⟨endsLine_of_close? ends ‹_›, fun more => rfl⟩
            | none =>
                simp only [skipped, done, Option.map_none] at read ⊢
                split_ifs at read ⊢ with between escape admitted
                · exact inductionHypothesis _ tail read
                · exact mapped read
      cases mode with
      | escape => 
          simp only [List.cons_append, readContent?, tail.isBreak_append] at read ⊢
          cases meant : ofLetter? c with
          | some meant => 
              simp only [meant] at read ⊢
              exact mapped read
          | none =>
              cases count : digitCount? c with
              | some count =>
                  simp only [meant, count] at read ⊢
                  exact inductionHypothesis _ tail read
              | none =>
                  simp only [meant, count] at read ⊢
                  split_ifs at read ⊢ 
                  exact inductionHypothesis _ tail read
      | code more value =>
          cases digit : digitValue? c with
          | none =>
              rw [readContent?.eq_3 _ _ _ _ _ digit] at read
              cases read
          | some digit' =>
              cases more with
              | succ more =>
                  simp only [List.cons_append, readContent?.eq_4 _ _ _ _ _ _ digit] at read ⊢
                  exact inductionHypothesis _ tail read
              | zero =>
                  simp only [List.cons_append, readContent?.eq_5 _ _ _ _ _ digit] at read ⊢
                  cases meant : ofCode? (16 * value + digit') with
                  | none =>
                      simp only [meant] at read
                      cases read
                  | some meant' =>
                      simp only [meant] at read ⊢
                      exact mapped read
      | plain => exact passing .plain nofun nofun read
      | gap ended => exact passing (.gap ended) nofun nofun read

theorem isLocalSkip_dropBreak : IsLocalSkip dropBreak := by
  intro text ends
  unfold dropBreak
  split
  case h_1 rest => exact ends.tail.imp And.right fun tail => ⟨tail, fun more => rfl⟩
  case h_2 rest =>
    exact (ends.tail_of_ne (by decide)).tail.imp And.right fun tail => ⟨tail, fun more => rfl⟩
  case h_3 other other' =>
    refine .inr ⟨ends, fun more => ?_⟩
    cases text with
    | nil => exact absurd ends not_endsLine_nil
    | cons c text =>
        cases text with
        | nil =>
            rw [endsLine_singleton.mp ends] at other
            exact absurd rfl (other [])
        | cons d text =>
            split
            case h_1 rest start =>
              rw [List.cons_append, List.cons.injEq] at start
              exact absurd (congrArg (· :: d :: text) start.1) (other _)
            case h_2 rest start =>
              simp only [List.cons_append, List.cons.injEq] at start
              exact absurd (by rw [start.1, start.2.1]) (other' text)
            case h_3 => rfl

theorem readBody?_local (form : Form) : IsLocal (readBody? form) := by
  intro text x rest ends read
  rw [readBody?] at read
  by_cases block : form.isBlock = true
  · rw [if_pos block] at read
    rcases isLocalSkip_dropBreak ends with none | ⟨ends', dropped⟩
    · rw [none, readContent?] at read
      cases read
    · obtain ⟨ends', extended⟩ := readContent?_local form .plain ends' read
      refine ⟨ends', fun more => ?_⟩
      rw [readBody?, if_pos block, dropped, extended]
  · rw [if_neg block] at read
    obtain ⟨ends', extended⟩ := readContent?_local form .plain ends read
    refine ⟨ends', fun more => ?_⟩
    rw [readBody?, if_neg block, extended]

theorem read?_local : IsLocal Quoted.read? := by
  intro text x rest ends read
  obtain ⟨form, opened, read⟩ := Option.bind_eq_some_iff.mp read
  have start := List.find?_some (p := fun form : Form => form.delimiter.isPrefixOf text) opened
  obtain ⟨body, rfl⟩ := List.isPrefixOf_iff_prefix.mp start
  have inside := ends.of_append (notMem_delimiter form)
  rw [List.drop_left] at read
  obtain ⟨ends', extended⟩ := readBody?_local form inside read
  refine ⟨ends', fun more => ?_⟩
  rw [Quoted.read?, opened?_append ends, opened, Option.bind_some, List.append_assoc,
    List.drop_left, extended]

end Quoted

end ArcGraph.Toml
