/-!
The four forms of a quoted text, and the characters in them.

A text stands in quotation marks or in apostrophes, and on a line or, with the
mark written three times, over several lines. Escapes are known between
quotation marks only.
-/

namespace ArcGraph.Toml

def isBlank (c : Char) : Bool :=
  c = ' ' || c = '\t'

/-- The tab and every character that is no control character. -/
def isPlain (c : Char) : Bool :=
  c = '\t' || (0x20 ≤ c.toNat && c.toNat ≠ 0x7F)

/-- A line ends here: after `c`, or after what follows it. -/
def isBreak (c : Char) (rest : List Char) : Bool :=
  c = '\n' || (c = '\r' && rest.head? = some '\n')

namespace Quoted

inductive Form where
  | line
  | literalLine
  | block
  | literalBlock
  deriving DecidableEq, Repr

namespace Form

def isBlock : Form → Bool
  | line | literalLine => false
  | block | literalBlock => true

/-- A literal text is taken as it is written. -/
def isLiteral : Form → Bool
  | line | block => false
  | literalLine | literalBlock => true

def mark : Form → Char
  | line | block => '"'
  | literalLine | literalBlock => '\x27'

/-- What stands on both sides of the text. -/
def delimiter (form : Form) : List Char :=
  List.replicate (if form.isBlock then 3 else 1) form.mark

end Form

/-- The characters with an escape of one letter. -/
def letters : List (Char × Char) :=
  [('\x08', 'b'), ('\t', 't'), ('\n', 'n'), ('\x0c', 'f'), ('\r', 'r'), ('"', '"'), ('\\', '\\')]

/-- The character that a letter behind a backslash stands for. One letter is read only. -/
def ofLetter? (letter : Char) : Option Char :=
  if letter = 'e' then some '\x1b'
  else (letters.find? fun entry => entry.2 = letter).map Prod.fst

/-- How many hexadecimal digits follow a letter behind a backslash. -/
def digitCount? (letter : Char) : Option Nat :=
  if letter = 'x' then some 2
  else if letter = 'u' then some 4
  else if letter = 'U' then some 8
  else none

/-- The value of a hexadecimal digit. -/
def digitValue? (c : Char) : Option Nat :=
  if c.isDigit then some (c.toNat - '0'.toNat)
  else if 'a' ≤ c ∧ c ≤ 'f' then some (c.toNat - 'a'.toNat + 10)
  else if 'A' ≤ c ∧ c ≤ 'F' then some (c.toNat - 'A'.toNat + 10)
  else none

/-- The character of a code; surrogates have none. -/
def ofCode? (code : Nat) : Option Char :=
  if valid : code.isValidChar then some (Char.ofNatAux code valid) else none

end Quoted

end ArcGraph.Toml
