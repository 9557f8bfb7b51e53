import ArcGraph.Proofs.Toml.Document
import ArcGraph.Proofs.Toml.LineEnd

/-!
Statements one after the other.

Keys, values and whole statements are read without a look past the end of their
last line. The statements of two texts are therefore those of the one and then
those of the other, if the first text ends a line.
-/

namespace ArcGraph.Toml

/-! ### Keys and values -/

theorem key?_local : IsLocal key? := by
  intro text x rest ends read
  simp only [key?, Quoted.opened?_append ends] at read ⊢
  split at read
  case h_1 form opened =>
    split_ifs at read ⊢ with block
    obtain ⟨⟨content, rest'⟩, read', eq⟩ := Option.map_eq_some_iff.mp read
    obtain ⟨ends', extended⟩ := Quoted.read?_local ends read'
    cases eq
    exact ⟨ends', fun more => by rw [extended]; rfl⟩
  case h_2 opened =>
    split_ifs at read with none
    obtain ⟨ends', extended⟩ := ends.dropWhile (p := isBare) rfl
    cases read
    refine ⟨ends', fun more => ?_⟩
    rw [(extended more).1, (extended more).2, if_neg none]

theorem path?_local (count : ℕ) : IsLocal (path? count) := by
  induction count with
  | zero => exact fun _ _ _ _ read => nomatch read
  | succ count inductionHypothesis =>
      intro text x rest ends read
      simp only [path?, Option.bind_eq_bind, Option.bind_eq_some_iff] at read
      obtain ⟨⟨key, behind⟩, key?, read⟩ := read
      obtain ⟨ends, keys⟩ := key?_local ends key?
      obtain ⟨ends, blanks⟩ := skipBlanks_local ends
      simp only [path?, keys, Option.bind_eq_bind, Option.bind_some, blanks]
      cases next : skipBlanks behind with
      | nil => exact absurd (next ▸ ends) not_endsLine_nil
      | cons c inner =>
          rw [next] at ends
          simp only [next, List.cons_append] at read ⊢
          by_cases dot : c = '.'
          · subst dot
            obtain ⟨ends, blanks⟩ := skipBlanks_local (ends.tail_of_ne (by decide))
            obtain ⟨⟨path, rest'⟩, path?, eq⟩ := Option.bind_eq_some_iff.mp read
            obtain ⟨ends, paths⟩ := inductionHypothesis ends path?
            cases eq
            exact ⟨ends, fun more => by simp only [blanks, paths, Option.bind_some]⟩
          · split at read
            case h_1 start => exact absurd (List.cons.inj start).1 dot
            case h_2 =>
              cases read
              refine ⟨ends, fun more => ?_⟩
              split
              case h_1 start => exact absurd (List.cons.inj start).1 dot
              case h_2 => rfl

theorem scalar?_local : IsLocal scalar? := by
  intro text x rest ends read
  simp only [scalar?, Quoted.opened?_append ends] at read ⊢
  split_ifs at read ⊢ with opened
  · obtain ⟨⟨content, rest'⟩, read', eq⟩ := Option.map_eq_some_iff.mp read
    obtain ⟨ends, extended⟩ := Quoted.read?_local ends read'
    cases eq
    exact ⟨ends, fun more => by rw [extended]; rfl⟩
  · obtain ⟨ends, extended⟩ := ends.dropWhile (p := isTokenPart) rfl
    obtain ⟨datum, token, eq⟩ := Option.map_eq_some_iff.mp read
    cases eq
    exact ⟨ends, fun more => by rw [(extended more).1, (extended more).2, token]; rfl⟩

section Values

variable {skip : List Char → List Char} {value? : List Char → Option (Datum × List Char)}

theorem assignment?_local (isSkip : IsLocalSkip skip) (isLocal : IsLocal value?)
    (none : value? [] = none) : IsLocal (assignment? skip value?) := by
  intro text x rest ends read
  simp only [assignment?, Option.bind_eq_bind, Option.bind_eq_some_iff] at read
  obtain ⟨⟨path, behind⟩, path?, read⟩ := read
  obtain ⟨ends, paths⟩ := path?_local greatestDepth ends path?
  simp only [assignment?, paths, Option.bind_eq_bind, Option.bind_some]
  rcases isSkip ends with skipped | ⟨ends, skips⟩
  · rw [skipped] at read
    cases read
  simp only [skips]
  cases next : skip behind with
  | nil => exact absurd (next ▸ ends) not_endsLine_nil
  | cons c inner =>
      rw [next] at ends
      simp only [next, List.cons_append] at read ⊢
      by_cases equals : c = '='
      · subst equals
        obtain ⟨⟨value, rest'⟩, read', eq⟩ := Option.bind_eq_some_iff.mp read
        rcases isSkip (ends.tail_of_ne (by decide)) with skipped | ⟨ends, skips⟩
        · rw [skipped, none] at read'
          cases read'
        · obtain ⟨ends, values⟩ := isLocal ends read'
          cases eq
          exact ⟨ends, fun more => by simp only [skips, values, Option.bind_some]⟩
      · split at read
        case h_1 start => exact absurd (List.cons.inj start).1 equals
        case h_2 => cases read

variable {α : Type} {item? : List Char → Option (α × List Char)} {closing : Char}

theorem series?_nil (none : item? [] = none) (bound : ℕ) :
    series? closing item? bound [] = .none := by
  cases bound with
  | zero => rfl
  | succ bound => simp [series?, none]

theorem series?_local (inLine : closing ≠ '\n') (isLocal : IsLocal item?) (none : item? [] = none)
    {bound bound' : ℕ} (le : bound ≤ bound') {text rest : List Char} {items : List α}
    (ends : EndsLine text) (read : series? closing item? bound text = some (items, rest)) :
    EndsLine rest ∧
      ∀ more, series? closing item? bound' (text ++ more) = some (items, rest ++ more) := by
  induction bound generalizing bound' text items with
  | zero => cases read
  | succ bound inductionHypothesis =>
      obtain ⟨bound', rfl⟩ : ∃ smaller, bound' = smaller + 1 := ⟨bound' - 1, by omega⟩
      cases text with
      | nil => exact absurd ends not_endsLine_nil
      | cons c text =>
          simp only [List.cons_append, series?, List.head?_cons, Option.some.injEq] at read ⊢
          by_cases last : c = closing
          · rw [if_pos last] at read
            cases read
            exact ⟨ends.tail_of_ne (last ▸ inLine), fun more => by rw [if_pos last]; rfl⟩
          · rw [if_neg last] at read
            simp only [if_neg last]
            obtain ⟨⟨item, behind⟩, item?, read⟩ := Option.bind_eq_some_iff.mp read
            obtain ⟨ends, first⟩ := isLocal ends item?
            simp only [List.cons_append] at first
            simp only [first, Option.bind_eq_bind, Option.bind_some]
            rcases isLocalSkip_skipTrivia ends with skipped | ⟨ends, skips⟩
            · rw [skipped] at read
              cases read
            simp only [skips]
            cases next : skipTrivia false behind with
            | nil => exact absurd (next ▸ ends) not_endsLine_nil
            | cons d inner =>
                rw [next] at ends
                simp only [next, List.cons_append] at read ⊢
                by_cases comma : d = ','
                · subst comma
                  obtain ⟨⟨others, rest'⟩, read', eq⟩ := Option.bind_eq_some_iff.mp read
                  rcases isLocalSkip_skipTrivia (ends.tail_of_ne (by decide)) with
                    skipped | ⟨ends, skips⟩
                  · rw [skipped, series?_nil none] at read'
                    cases read'
                  · cases eq
                    obtain ⟨ends, series⟩ :=
                      inductionHypothesis (Nat.le_of_succ_le_succ le) ends read'
                    exact ⟨ends, fun more => by simp only [skips, series, Option.bind_some]⟩
                · split at read
                  case h_1 start => exact absurd (List.cons.inj start).1 comma
                  case h_2 e inner' _ start =>
                    obtain ⟨rfl, rfl⟩ := List.cons.inj start
                    split_ifs at read with closed
                    cases read
                    exact ⟨ends.tail_of_ne (closed ▸ inLine), fun more => by rw [if_pos closed]⟩
                  case h_3 start => cases start

theorem value?_nil (depth : ℕ) : Toml.value? depth [] = none := by
  cases depth <;> rfl

theorem assignment?_nil : assignment? skip value? [] = none := rfl

/-- A series behind its opening mark, with what is skipped before its first item. -/
theorem opened_series?_local (inLine : closing ≠ '\n') (isLocal : IsLocal item?)
    (none : item? [] = none) {text rest : List Char} {items : List α} (ends : EndsLine text)
    (read : series? closing item? (text.length + 1) (skipTrivia false text) = some (items, rest)) :
    EndsLine rest ∧ ∀ more, series? closing item? ((text ++ more).length + 1)
      (skipTrivia false (text ++ more)) = some (items, rest ++ more) := by
  rcases isLocalSkip_skipTrivia ends with skipped | ⟨ends, skips⟩
  · rw [skipped, series?_nil none] at read
    cases read
  · refine ⟨(series?_local inLine isLocal none le_rfl ends read).1, fun more => ?_⟩
    have le : text.length + 1 ≤ (text ++ more).length + 1 := by simp
    rw [skips, (series?_local inLine isLocal none le ends read).2]

theorem value?_local (depth : ℕ) : IsLocal (Toml.value? depth) := by
  induction depth with
  | zero =>
      have scalar (text : List Char) : Toml.value? 0 text = scalar? text := by
        rw [Toml.value?]
        · simp
        · simp
      intro text x rest ends read
      rw [scalar] at read
      simp only [scalar]
      exact scalar?_local ends read
  | succ depth inductionHypothesis =>
      have entry := assignment?_local isLocalSkip_skipTrivia inductionHypothesis (value?_nil depth)
      intro text x rest ends read
      cases text with
      | nil => exact absurd ends not_endsLine_nil
      | cons c text =>
          by_cases list : c = '['
          · subst list
            simp only [List.cons_append, Toml.value?, Option.bind_eq_bind] at read ⊢
            obtain ⟨⟨items, rest'⟩, items?, eq⟩ := Option.bind_eq_some_iff.mp read
            cases eq
            obtain ⟨ends, series⟩ := opened_series?_local (by decide) inductionHypothesis
              (value?_nil depth) (ends.tail_of_ne (by decide)) items?
            exact ⟨ends, fun more => by rw [series]; rfl⟩
          by_cases record : c = '\x7b'
          · subst record
            simp only [List.cons_append, Toml.value?, Option.bind_eq_bind] at read ⊢
            obtain ⟨⟨entries, rest'⟩, entries?, read⟩ := Option.bind_eq_some_iff.mp read
            obtain ⟨tree, tree?, eq⟩ := Option.bind_eq_some_iff.mp read
            cases eq
            obtain ⟨ends, series⟩ := opened_series?_local (by decide) entry assignment?_nil
              (ends.tail_of_ne (by decide)) entries?
            exact ⟨ends, fun more => by rw [series, Option.bind_some, tree?]; rfl⟩
          · rw [value?_eq_scalar? list record] at read
            simp only [List.cons_append, value?_eq_scalar? list record]
            exact scalar?_local ends read

end Values

/-! ### Statements -/

theorem header?_local {closing : List Char} (inLine : '\n' ∉ closing) :
    IsLocal (header? closing) := by
  intro text path rest ends read
  obtain ⟨ends, blanks⟩ := skipBlanks_local ends
  simp only [header?, blanks, Option.bind_eq_bind] at read ⊢
  obtain ⟨⟨path', behind⟩, path?, read⟩ := Option.bind_eq_some_iff.mp read
  obtain ⟨ends, paths⟩ := path?_local greatestDepth ends path?
  simp only [paths, Option.bind_some, ends.isPrefixOf_append inLine]
  split_ifs at read ⊢ with closed
  cases read
  obtain ⟨rest, rfl⟩ := List.isPrefixOf_iff_prefix.mp closed
  rw [List.drop_left]
  exact ⟨ends.of_append inLine, fun more => by rw [List.append_assoc, List.drop_left]⟩

theorem statement?_local : IsLocal statement? := by
  have entry := assignment?_local isLocalSkip_skipBlanks (value?_local greatestDepth)
    (value?_nil greatestDepth)
  intro text statement rest ends read
  cases text with
  | nil => exact absurd ends not_endsLine_nil
  | cons c text =>
      by_cases bracket : c = '['
      · subst bracket
        have inside := ends.tail_of_ne (by decide)
        cases text with
        | nil => exact absurd inside not_endsLine_nil
        | cons d text =>
            by_cases bracket' : d = '['
            · subst bracket'
              simp only [List.cons_append, statement?, Option.bind_eq_bind] at read ⊢
              obtain ⟨⟨path, rest'⟩, header, eq⟩ := Option.bind_eq_some_iff.mp read
              obtain ⟨ends, extended⟩ :=
                header?_local (by decide) (inside.tail_of_ne (by decide)) header
              cases eq
              exact ⟨ends, fun more => by rw [extended]; rfl⟩
            · have single (rest : List Char) : statement? ('[' :: d :: rest) =
                  (header? [']'] (d :: rest)).bind fun header =>
                    some (.header header.1, header.2) := by
                unfold statement?
                split
                case h_1 start => exact absurd (List.cons.inj (List.cons.inj start).2).1 bracket'
                case h_2 start =>
                  rw [(List.cons.inj start).2]
                  rfl
                case h_3 other => exact absurd rfl (other _)
              simp only [List.cons_append, single] at read ⊢
              obtain ⟨⟨path, rest'⟩, header, eq⟩ := Option.bind_eq_some_iff.mp read
              obtain ⟨ends, extended⟩ := header?_local (by decide) inside header
              cases eq
              exact ⟨ends, fun more => by rw [← List.cons_append, extended]; rfl⟩
      · have plain (rest : List Char) : statement? (c :: rest) =
            (assignment? skipBlanks (value? greatestDepth) (c :: rest)).bind fun entry =>
              some (.entry entry.1.1 entry.1.2, entry.2) := by
          unfold statement?
          split
          case h_1 start => exact absurd (List.cons.inj start).1 bracket
          case h_2 start => exact absurd (List.cons.inj start).1 bracket
          case h_3 => rfl
        simp only [List.cons_append, plain] at read ⊢
        obtain ⟨⟨⟨path, value⟩, rest'⟩, assigned, eq⟩ := Option.bind_eq_some_iff.mp read
        obtain ⟨ends, extended⟩ := entry ends assigned
        cases eq
        exact ⟨ends, fun more => by rw [← List.cons_append, extended]; rfl⟩

section Statements

variable {bound bound' : ℕ} {text more : List Char} {statements statements' : List Statement}

theorem statements?_of_blank (blank : skipTrivia false text = []) (bound : ℕ) :
    statements? (bound + 1) text = some [] := by
  rw [statements?, blank]

theorem statements?_eq_some_iff (ink : skipTrivia false text ≠ []) :
    statements? (bound + 1) text = some statements ↔
      ∃ statement rest rest' others, statement? (skipTrivia false text) = some (statement, rest) ∧
        lineEnd? rest = some rest' ∧ statements? bound rest' = some others ∧
        statement :: others = statements := by
  rw [statements?]
  split
  case h_1 none => exact absurd none ink
  case h_2 => simp [Option.bind_eq_some_iff]

/-- With a higher bound the statements are the same. -/
theorem statements?_mono (le : bound ≤ bound') (read : statements? bound text = some statements) :
    statements? bound' text = some statements := by
  induction bound generalizing bound' text statements with
  | zero => cases read
  | succ bound inductionHypothesis =>
      obtain ⟨bound', rfl⟩ : ∃ smaller, bound' = smaller + 1 := ⟨bound' - 1, by omega⟩
      by_cases blank : skipTrivia false text = []
      · rw [statements?_of_blank blank] at read ⊢
        exact read
      · rw [statements?_eq_some_iff blank] at read ⊢
        obtain ⟨statement, rest, rest', others, first, lineEnd, read, rfl⟩ := read
        exact ⟨statement, rest, rest', others, first, lineEnd,
          inductionHypothesis (Nat.le_of_succ_le_succ le) read, rfl⟩

/-- What is left out before the first statement does not matter. -/
theorem statements?_congr {text' : List Char}
    (same : skipTrivia false text = skipTrivia false text') (bound : ℕ) :
    statements? bound text = statements? bound text' := by
  cases bound with
  | zero => rfl
  | succ bound => rw [statements?, statements?, same]

theorem statements?_append_of_blank (ends : text = [] ∨ EndsLine text)
    (blank : skipTrivia false text = []) (read : statements? (bound + 1) text = some statements)
    (read' : statements? (bound' + 1) more = some statements') :
    statements? (bound + bound' + 1) (text ++ more) = some (statements ++ statements') := by
  have same : skipTrivia false (text ++ more) = skipTrivia false more := by
    rcases ends with rfl | ends
    · rfl
    · rcases skipTrivia_append ends false with ⟨-, skipped⟩ | ⟨ends, -⟩
      · exact skipped more
      · exact absurd (blank ▸ ends) not_endsLine_nil
  rw [statements?_of_blank blank] at read
  cases read
  rw [statements?_congr same]
  exact statements?_mono (by omega) read'

/-- The statements of a text that ends a line, and of another text behind it. -/
theorem statements?_append (ends : text = [] ∨ EndsLine text)
    (read : statements? (bound + 1) text = some statements)
    (read' : statements? (bound' + 1) more = some statements') :
    statements? (bound + bound' + 1) (text ++ more) = some (statements ++ statements') := by
  induction bound generalizing text statements with
  | zero =>
      have blank : skipTrivia false text = [] := by
        by_contra ink
        obtain ⟨_, _, _, _, _, _, none, _⟩ := (statements?_eq_some_iff ink).mp read
        cases none
      exact statements?_append_of_blank ends blank read read'
  | succ bound inductionHypothesis =>
      by_cases blank : skipTrivia false text = []
      · exact statements?_append_of_blank ends blank read read'
      · have ends := ends.resolve_left fun none => blank (by rw [none]; rfl)
        obtain ⟨ends, skipped⟩ :=
          (skipTrivia_append ends false).resolve_left fun none => blank none.1
        have ink : skipTrivia false (text ++ more) ≠ [] := by simp [skipped, blank]
        rw [statements?_eq_some_iff blank] at read
        obtain ⟨statement, rest, rest', others, first, lineEnd, read, rfl⟩ := read
        obtain ⟨ends, firsts⟩ := statement?_local ends first
        obtain ⟨ends, lineEnds⟩ := lineEnd?_local ends lineEnd
        have whole : bound + 1 + bound' + 1 = bound + bound' + 1 + 1 := by omega
        rw [whole, statements?_eq_some_iff ink, skipped]
        exact ⟨statement, rest ++ more, rest' ++ more, others ++ statements', firsts more,
          lineEnds more, inductionHypothesis ends read, rfl⟩

end Statements

end ArcGraph.Toml
