import ArcGraph.Number.Binary

/-!
Decimal numerals and the binary numbers nearest to them.

The nearest number is found from the exact ratio that a numeral denotes, so it
is rounded once. Numerals far outside the range of every format are settled by
their magnitude alone.
-/

namespace ArcGraph

/-- The number `± digits * 10 ^ exponent`. -/
structure Numeral where
  negative : Bool
  digits : Nat
  exponent : Int
  deriving DecidableEq

namespace Numeral

/-- The numeral of a whole number. -/
def ofInt (value : Int) : Numeral :=
  ⟨decide (value < 0), value.natAbs, 0⟩

/-- Ten to this power lies above every finite value, its inverse below every positive one. -/
def farExponent : Int := 400

/-- The pattern, without sign, that is nearest to the numeral. -/
def magnitude (format : Binary.Format) (numeral : Numeral) : Nat :=
  if numeral.digits = 0 then 0
  else if farExponent < numeral.exponent then format.infinityBits
  else if numeral.exponent + Nat.log2 numeral.digits + 1 < -farExponent then 0
  else format.roundMagnitude (numeral.digits * Nat.pow 10 numeral.exponent.toNat)
    (Nat.pow 10 (-numeral.exponent).toNat)

/-- The pattern of the format that is nearest to the numeral. -/
def encode (format : Binary.Format) (numeral : Numeral) : Nat :=
  format.withSign numeral.negative (numeral.magnitude format)

/-- The numeral lies beyond all finite values of the format. -/
def overflows (format : Binary.Format) (numeral : Numeral) : Bool :=
  numeral.magnitude format = format.infinityBits

def toSingle (numeral : Numeral) : Float32 :=
  .ofBits (.ofNat (numeral.encode Binary.single))

def toDouble (numeral : Numeral) : Float :=
  .ofBits (.ofNat (numeral.encode Binary.double))

end Numeral

/-- A written number: a numeral or one of the two words. -/
inductive WrittenNumber where
  | nan
  | infinite (negative : Bool)
  | decimal (numeral : Numeral)
  deriving DecidableEq

namespace WrittenNumber

def toSingle : WrittenNumber → Float32
  | .nan => Binary.toSingle .nan
  | .infinite negative => Binary.toSingle (.infinite negative)
  | .decimal numeral => numeral.toSingle

def toDouble : WrittenNumber → Float
  | .nan => Binary.toDouble .nan
  | .infinite negative => Binary.toDouble (.infinite negative)
  | .decimal numeral => numeral.toDouble

/-- The nearest 64-bit number, unless a numeral lies beyond all of them. -/
def double? : WrittenNumber → Option Float
  | .decimal numeral =>
      if numeral.overflows Binary.double then none else some numeral.toDouble
  | word => some word.toDouble

end WrittenNumber

namespace Digits

/-- The value of a decimal digit. -/
def value? (c : Char) : Option Nat :=
  if c.isDigit then some (c.toNat - '0'.toNat) else none

/-- The digits that a text starts with, and the rest of it. -/
def span (text : List Char) : List Char × List Char :=
  (text.takeWhile Char.isDigit, text.dropWhile Char.isDigit)

/-- The number that a run of digits denotes. -/
def toNat (digits : List Char) : Nat :=
  digits.foldl (fun n c => 10 * n + (c.toNat - '0'.toNat)) 0

end Digits

namespace WrittenNumber

/-- A leading sign, and the rest of the text. -/
def splitSign : List Char → Bool × List Char
  | '-' :: rest => (true, rest)
  | '+' :: rest => (false, rest)
  | text => (false, text)

/-- The power of ten at the end of a numeral; nothing at all stands for zero. -/
def exponent? : List Char → Option Int
  | [] => some 0
  | c :: rest =>
      if c = 'e' ∨ c = 'E' then
        let (negative, digits) := splitSign rest
        if digits ≠ [] ∧ digits.all Char.isDigit then
          some (if negative then -(Digits.toNat digits : Int) else Digits.toNat digits)
        else none
      else none

/-- The digits behind a point, and the rest; without a point there are none. -/
def splitFraction : List Char → List Char × List Char
  | '.' :: rest => Digits.span rest
  | text => ([], text)

/-- Reads an unsigned numeral: digits with a point anywhere among them, then a power of ten. -/
def magnitude? (negative : Bool) (text : List Char) : Option WrittenNumber :=
  let (whole, rest) := Digits.span text
  let (fraction, rest) := splitFraction rest
  if whole = [] ∧ fraction = [] then none
  else (exponent? rest).map fun exponent =>
    .decimal ⟨negative, Digits.toNat (whole ++ fraction), exponent - fraction.length⟩

/-- Reads a number as a whole text: a sign, then a numeral or a word in either case. -/
def read? (text : List Char) : Option WrittenNumber :=
  let (negative, body) := splitSign text
  let word := body.map Char.toLower
  if word = "inf".toList ∨ word = "infinity".toList then some (.infinite negative)
  else if word = "nan".toList then some .nan
  else magnitude? negative body

end WrittenNumber

end ArcGraph
