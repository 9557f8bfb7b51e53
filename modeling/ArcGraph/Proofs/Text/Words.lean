import ArcGraph.Text.Blank

/-!
The words of a text.

A text is a row of words with blanks before, between and behind them, and that
in one way only. Cutting it at its blanks finds the row.
-/

namespace ArcGraph.Text

/-- The text consists of the words of the row, in order, and of blanks. There are blanks between any
two words, and there may be some before the first and behind the last one. -/
inductive IsRow : List Char → List (List Char) → Prop where
  | blank {blanks} : (∀ c ∈ blanks, isBlank c = true) → IsRow blanks []
  | word {blanks word behind others} :
      (∀ c ∈ blanks, isBlank c = true) → word ≠ [] → (∀ c ∈ word, isBlank c = false) →
      (∀ c ∈ behind.head?, isBlank c = true) → IsRow behind others →
      IsRow (blanks ++ word ++ behind) (word :: others)

theorem pieces_eq_splitOnP (text : List Char) : pieces text = text.splitOnP isBlank := by
  induction text with
  | nil => rfl
  | cons c rest inductionHypothesis =>
      rw [pieces, inductionHypothesis, List.splitOnP_cons_eq_if_modifyHead]
      obtain ⟨piece, others, eq⟩ := List.exists_cons_of_ne_nil (List.splitOnP_ne_nil isBlank rest)
      rw [eq, List.modifyHead_cons]

@[simp] theorem words_nil : words [] = [] := rfl

section Words

variable {c : Char} {blanks word behind : List Char}

/-- No word goes on over a blank. -/
theorem words_append_blank (blank : isBlank c = true) (before behind : List Char) :
    words (before ++ c :: behind) = words before ++ words behind := by
  simp only [words, pieces_eq_splitOnP, List.splitOnP_append_cons before behind blank,
    List.filter_append]

theorem words_cons_blank (blank : isBlank c = true) (behind : List Char) :
    words (c :: behind) = words behind :=
  words_append_blank blank [] behind

theorem words_blanks_append (blank : ∀ c ∈ blanks, isBlank c = true) (behind : List Char) :
    words (blanks ++ behind) = words behind := by
  induction blanks with
  | nil => rfl
  | cons c blanks inductionHypothesis =>
      obtain ⟨first, others⟩ := List.forall_mem_cons.mp blank
      rw [List.cons_append, words_cons_blank first, inductionHypothesis others]

theorem words_of_solid (ne : word ≠ []) (solid : ∀ c ∈ word, isBlank c = false) :
    words word = [word] := by
  simp [words, pieces_eq_splitOnP, List.splitOnP_eq_singleton solid, ne]

theorem words_solid_append (ne : word ≠ []) (solid : ∀ c ∈ word, isBlank c = false)
    (closed : ∀ c ∈ behind.head?, isBlank c = true) :
    words (word ++ behind) = word :: words behind := by
  cases behind with
  | nil => rw [List.append_nil, words_of_solid ne solid, words_nil]
  | cons c rest =>
      have blank : isBlank c = true := closed c rfl
      rw [words_append_blank blank, words_of_solid ne solid, words_cons_blank blank,
        List.singleton_append]

end Words

section Row

variable {c : Char} {text word behind : List Char} {row : List (List Char)}

theorem IsRow.words_eq (isRow : IsRow text row) : words text = row := by
  induction isRow with
  | @blank blanks blank =>
      have all := words_blanks_append blank []
      rwa [List.append_nil, words_nil] at all
  | word blank ne solid closed _ inductionHypothesis =>
      rw [List.append_assoc, words_blanks_append blank, words_solid_append ne solid closed,
        inductionHypothesis]

theorem IsRow.cons_blank (blank : isBlank c = true) (isRow : IsRow text row) :
    IsRow (c :: text) row := by
  cases isRow with
  | blank blanks => exact .blank (List.forall_mem_cons.mpr ⟨blank, blanks⟩)
  | word blanks ne solid closed others =>
      exact .word (List.forall_mem_cons.mpr ⟨blank, blanks⟩) ne solid closed others

theorem IsRow.words_solid_append (ne : word ≠ []) (solid : ∀ c ∈ word, isBlank c = false)
    (closed : ∀ c ∈ behind.head?, isBlank c = true) (isRow : IsRow behind (words behind)) :
    IsRow (word ++ behind) (words (word ++ behind)) := by
  rw [Text.words_solid_append ne solid closed]
  exact @IsRow.word [] word behind _ (by simp) ne solid closed isRow

/-- The induction is on what follows the start of a word, so that it can go on character by
character. -/
theorem isRow_words_append {start : List Char} (solid : ∀ c ∈ start, isBlank c = false)
    (text : List Char) : IsRow (start ++ text) (words (start ++ text)) := by
  induction text generalizing start with
  | nil =>
      by_cases ne : start = []
      · subst ne
        exact .blank (by simp)
      · exact .words_solid_append ne solid (by simp) (.blank (by simp))
  | cons c rest inductionHypothesis =>
      cases kind : isBlank c with
      | false =>
          have longer : ∀ c' ∈ start ++ [c], isBlank c' = false := by
            simpa [or_imp, forall_and, kind] using solid
          simpa using inductionHypothesis longer
      | true =>
          have behind : IsRow (c :: rest) (words (c :: rest)) := by
            rw [words_cons_blank kind]
            exact (@inductionHypothesis [] (by simp)).cons_blank kind
          by_cases ne : start = []
          · subst ne
            exact behind
          · exact .words_solid_append ne solid (by simpa using kind) behind

theorem words_eq_iff : words text = row ↔ IsRow text row := by
  constructor
  · rintro rfl
    exact @isRow_words_append [] (by simp) text
  · exact IsRow.words_eq

end Row

end ArcGraph.Text
