import ArcGraph.Toml.Quoted.Basic

/-!
Writing quoted texts.

The form is chosen so that few characters need an escape. Only the tab is
escaped between quotation marks without need.
-/

namespace ArcGraph.Toml.Quoted

/-- The character can only be written as an escape. -/
def needsEscape (c : Char) : Bool :=
  !isPlain c && c ≠ '\n'

/-- The text has three marks in a row. -/
def hasTriple (mark : Char) : List Char → Bool
  | [] => false
  | c :: rest => (List.replicate 3 mark).isPrefixOf (c :: rest) || hasTriple mark rest

/-- The text can stand in a form without any escape that the form does not force. -/
def suits (text : List Char) : Form → Bool
  | .line => text.all fun c => !needsEscape c && c ≠ '\\' && c ≠ '"' && c ≠ '\n'
  | .literalLine => text.all fun c => !needsEscape c && c ≠ '\x27' && c ≠ '\n'
  | .block => (text.all fun c => !needsEscape c && c ≠ '\\') && !hasTriple '"' text
  | .literalBlock => (text.all fun c => !needsEscape c) && !hasTriple '\x27' text

/-- The first form that suits the text. Where none does, there will be escapes. -/
def formFor (text : List Char) : Form :=
  match [.line, .literalLine, .block, .literalBlock].find? (suits text) with
  | some form => form
  | none => if '\n' ∈ text then .block else .line

def hexDigit (n : Nat) : Char :=
  if n < 10 then .ofNat ('0'.toNat + n) else .ofNat ('A'.toNat + (n - 10))

/-- The escape of a control character, a backslash or a quotation mark. -/
def escape (c : Char) : List Char :=
  match letters.find? fun entry => entry.1 = c with
  | some (_, letter) => ['\\', letter]
  | none => ['\\', 'u', '0', '0', hexDigit (c.toNat / 16), hexDigit (c.toNat % 16)]

/-- The character in a line between quotation marks. -/
def inLine (c : Char) : List Char :=
  if c = '"' || c = '\\' || c = '\t' || !isPlain c then escape c else [c]

/-- The text between three quotation marks. Of those in the text each third one in a row is
escaped, `run` being how many stand directly before. -/
def inBlock : Nat → List Char → List Char
  | _, [] => []
  | run, c :: rest =>
      if c = '"' then
        if run = 2 then escape c ++ inBlock 0 rest else c :: inBlock (run + 1) rest
      else if c = '\n' then c :: inBlock 0 rest
      else inLine c ++ inBlock 0 rest

/-- The text as it stands in a form. -/
def content (text : List Char) : Form → List Char
  | .line => text.flatMap inLine
  | .block => inBlock 0 text
  | .literalLine | .literalBlock => text

/-- A text of several lines starts on a line of its own. -/
def lead (form : Form) (text : List Char) : List Char :=
  if form.isBlock && '\n' ∈ text then ['\n'] else []

def write (text : List Char) : List Char :=
  let form := formFor text
  form.delimiter ++ lead form text ++ content text form ++ form.delimiter

end ArcGraph.Toml.Quoted
