import ArcGraph.Toml.Quoted.Basic

/-!
Reading quoted texts.

The content is read character by character. What a character means depends on
whether it stands behind a backslash, among the digits of a code, or in the gap
that a backslash at the end of a line opens.
-/

namespace ArcGraph.Toml.Quoted

/-- What the characters read so far expect of the next one. -/
inductive Mode where
  | plain
  | escape
  /-- Digits of a code are missing, the next one and `more` others. -/
  | code (more value : Nat)
  /-- Blanks are passed over, and once the line has ended further line ends too. -/
  | gap (ended : Bool)
  deriving DecidableEq, Repr

/-- The end of a text: what still belongs to it, and what follows. In a block up to two marks may
stand directly before the closing ones. -/
def close? (form : Form) (text : List Char) : Option (List Char × List Char) :=
  let count := (text.takeWhile (· = form.mark)).length
  if form.isBlock then
    let used := min count 5
    if 3 ≤ used then some (List.replicate (used - 3) form.mark, text.drop used) else none
  else if 1 ≤ count then some ([], text.drop 1)
  else none

/-- The character may stand in the text as it is. -/
def admits (form : Form) (c : Char) (rest : List Char) : Bool :=
  isPlain c || (form.isBlock && isBreak c rest)

/-- The mode after a character that a gap passes over. -/
def Mode.skip? : Mode → Char → List Char → Option Mode
  | gap ended, c, rest =>
      if isBlank c || isBreak c rest then some (gap (ended || isBreak c rest)) else none
  | _, _, _ => none

/-- A character that is read, before the others. -/
def before (c : Char) (others : List Char × List Char) : List Char × List Char :=
  (c :: others.1, others.2)

/-- Reads a text up to its closing marks, with what follows them. -/
def readContent? (form : Form) : Mode → List Char → Option (List Char × List Char)
  | _, [] => none
  | .escape, c :: rest =>
      match ofLetter? c, digitCount? c with
      | some meant, _ => (readContent? form .plain rest).map (before meant)
      | none, some count => readContent? form (.code (count - 1) 0) rest
      | none, none =>
          if form.isBlock && (isBlank c || isBreak c rest) then
            readContent? form (.gap (isBreak c rest)) rest
          else none
  | .code more value, c :: rest =>
      match digitValue? c, more with
      | none, _ => none
      | some digit, more + 1 => readContent? form (.code more (16 * value + digit)) rest
      | some digit, 0 =>
          match ofCode? (16 * value + digit) with
          | none => none
          | some meant => (readContent? form .plain rest).map (before meant)
  | mode, c :: rest =>
      match mode.skip? c rest, close? form (c :: rest) with
      | some next, _ => readContent? form next rest
      | none, some done => if mode = .gap false then none else some done
      | none, none =>
          if mode = .gap false then none
          else if c = '\\' && !form.isLiteral then readContent? form .escape rest
          else if admits form c rest then (readContent? form .plain rest).map (before c)
          else none

/-- The text without a line end that it starts with. -/
def dropBreak : List Char → List Char
  | '\n' :: rest | '\r' :: '\n' :: rest => rest
  | text => text

/-- Reads a text whose opening marks are read already. -/
def readBody? (form : Form) (text : List Char) : Option (List Char × List Char) :=
  readContent? form .plain (if form.isBlock then dropBreak text else text)

/-- The form that the marks at the start of a text open. -/
def opened? (text : List Char) : Option Form :=
  [.block, .literalBlock, .line, .literalLine].find? fun form =>
    form.delimiter.isPrefixOf text

/-- Reads a quoted text of any form, with what follows it. -/
def read? (text : List Char) : Option (List Char × List Char) :=
  (opened? text).bind fun form => readBody? form (text.drop form.delimiter.length)

end ArcGraph.Toml.Quoted
