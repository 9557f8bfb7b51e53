import ArcGraph.Number.Numeral

/-!
Written numbers.

Digits may be grouped by single underscores. A decimal numeral starts with no
superfluous zero; other bases are for whole numbers without a sign. A whole
number has neither a point nor an exponent.

Groups are checked for less than a number needs, so some texts stand for a whole
number and have no value. A document may hold one where nobody asks for a value.
-/

namespace ArcGraph.Toml.Number

/-- The digits of a run in which underscores stand between digits only. -/
def ungroup? (isDigit : Char → Bool) : List Char → Option (List Char)
  | [] => none
  | [c] => if isDigit c then some [c] else none
  | c :: '_' :: rest => if isDigit c then (ungroup? isDigit rest).map (c :: ·) else none
  | c :: rest => if isDigit c then (ungroup? isDigit rest).map (c :: ·) else none

/-- The value of a digit, whatever the base. -/
def digitValue (c : Char) : Nat :=
  if c.isDigit then c.toNat - '0'.toNat else c.toLower.toNat - 'a'.toNat + 10

def isDigitOf (base : Nat) (c : Char) : Bool :=
  c.isAlphanum && digitValue c < base

/-- The letter between a zero and the digits, and the base that it announces. -/
def bases : List (Char × Nat) :=
  [('x', 16), ('o', 8), ('b', 2)]

/-- Reads a whole number in a base that its second letter announces. -/
def based? : List Char → Option Nat
  | '0' :: letter :: rest => do
      let base ← bases.lookup letter
      let digits ← ungroup? (isDigitOf base) rest
      some (digits.foldl (fun n c => base * n + digitValue c) 0)
  | _ => none

/-- The digits before the point. -/
def whole? (text : List Char) : Option (List Char) :=
  (ungroup? Char.isDigit text).filter fun digits => digits.head? ≠ some '0' || digits.length = 1

/-- The digits between the point and the exponent, or none at all without a point. -/
def fraction? : List Char → Option (List Char)
  | [] => some []
  | '.' :: rest => ungroup? Char.isDigit rest
  | _ => none

/-- The number of a run of digits behind a sign. -/
def signed (negative : Bool) (digits : List Char) : Int :=
  if negative then -(Digits.toNat digits : Int) else Digits.toNat digits

/-- The exponent with its letter, or zero if there is nothing. -/
def exponent? : List Char → Option Int
  | [] => some 0
  | _ :: rest =>
      let (negative, body) := WrittenNumber.splitSign rest
      (ungroup? Char.isDigit body).map (signed negative)

/-- Reads a whole number. -/
def integer? (text : List Char) : Option Int :=
  match based? text with
  | some value => some value
  | none =>
      let (negative, body) := WrittenNumber.splitSign text
      (whole? body).map (signed negative)

/-- Reads a decimal numeral without its sign. -/
def decimal? (negative : Bool) (body : List Char) : Option Numeral := do
  let isExponent := fun c => c = 'e' || c = 'E'
  let mantissa := body.takeWhile fun c => !isExponent c
  let power := body.dropWhile fun c => !isExponent c
  let whole ← whole? (mantissa.takeWhile (· ≠ '.'))
  let fraction ← fraction? (mantissa.dropWhile (· ≠ '.'))
  let exponent ← exponent? power
  some ⟨negative, Digits.toNat (whole ++ fraction), exponent - fraction.length⟩

/-- Reads a decimal numeral with its sign, or one of the two words. -/
def read? (text : List Char) : Option WrittenNumber :=
  let (negative, body) := WrittenNumber.splitSign text
  if body = ['i', 'n', 'f'] then some (.infinite negative)
  else if body = ['n', 'a', 'n'] then some .nan
  else (decimal? negative body).map .decimal

/-- Every underscore stands between digits of the largest base. -/
def isGrouped (behindDigit : Bool) : List Char → Bool
  | [] => true
  | '_' :: rest => behindDigit && rest.head?.any (isDigitOf 16) && isGrouped false rest
  | c :: rest => isGrouped (isDigitOf 16 c) rest

/-- A word behind a blank starts with a mark. -/
def hasMarkedWord : List Char → Bool
  | blank :: c :: rest =>
      ((blank = ' ' || blank = '\t') && (c = '"' || c = '\x27')) || hasMarkedWord (c :: rest)
  | _ => false

/-- The characters that no whole number has, since they make a text another kind of value. -/
def isForeign (c : Char) : Bool :=
  c = ' ' || c = '.' || c = 'e' || c = 'E'

/-- Digits, an underscore and whatever follows it. -/
def isLoose (text : List Char) : Bool :=
  let (_, body) := WrittenNumber.splitSign text
  let tail := body.dropWhile Char.isDigit
  body.head?.any (fun c => c.isDigit && c ≠ '0') && tail.head? = some '_' &&
    !tail.any isForeign && !hasMarkedWord tail && isGrouped true tail

/-- The text is taken for a whole number: a base without digits, or digits in loose groups. -/
def standsForWhole (text : List Char) : Bool :=
  bases.any (fun base => text = ['0', base.1]) || isLoose text

end ArcGraph.Toml.Number
