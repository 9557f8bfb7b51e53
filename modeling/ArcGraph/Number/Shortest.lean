import ArcGraph.Number.Binary

/-!
The shortest decimal text of a binary number.

Among the decimals that read back to a number, one on the coarsest grid of
powers of ten is taken, and of two on that grid the nearer one, the larger in
size if both are as near. The text is positional and never uses an exponent.
-/

namespace ArcGraph

namespace Shortest

/-- A positive number together with the ends of the interval that rounds to it. All three are
multiples of `numerator / denominator`. -/
structure Neighbourhood where
  numerator : Nat
  denominator : Nat
  lower : Nat
  value : Nat
  upper : Nat
  /-- The ends round to the number as well. -/
  closed : Bool

/-- The interval around `significand * 2 ^ exponent`. Below a power of two the numbers are twice
as dense, unless it is the smallest normal one. -/
def neighbourhood (format : Binary.Format) (significand : Nat) (exponent : Int) :
    Neighbourhood where
  numerator := Nat.pow 2 (exponent - 2).toNat
  denominator := Nat.pow 2 (2 - exponent).toNat
  lower := if significand = Nat.pow 2 format.fractionBits ∧ format.leastExponent < exponent
    then 4 * significand - 1 else 4 * significand - 2
  value := 4 * significand
  upper := 4 * significand + 2
  closed := significand % 2 = 0

namespace Neighbourhood

variable (around : Neighbourhood)

/-- The interval holds the point `multiple * 10 ^ exponent`. -/
def holds (multiple : Nat) (exponent : Int) : Bool :=
  let point := multiple * Nat.pow 10 exponent.toNat * around.denominator
  let scale := around.numerator * Nat.pow 10 (-exponent).toNat
  if around.closed then
    decide (around.lower * scale ≤ point) && decide (point ≤ around.upper * scale)
  else
    decide (around.lower * scale < point) && decide (point < around.upper * scale)

/-- The multiple of `10 ^ exponent` in the interval that is nearest to the number. -/
def onGrid? (exponent : Int) : Option Nat :=
  let value := around.value * around.numerator * Nat.pow 10 (-exponent).toNat
  let grid := around.denominator * Nat.pow 10 exponent.toNat
  let below := value / grid
  match around.holds below exponent, around.holds (below + 1) exponent with
  | false, false => none
  | true, false => some below
  | false, true => some (below + 1)
  | true, true => some (if 2 * (value % grid) < grid then below else below + 1)

/-- The first grid that meets the interval, from `start` downwards. -/
def search (start : Int) : Nat → Nat × Int
  | 0 => (0, 0)
  | steps + 1 =>
      match around.onGrid? start with
      | some multiple => (multiple, start)
      | none => search (start - 1) steps

end Neighbourhood

/-- A power of ten above every finite value of the format. -/
def topExponent (format : Binary.Format) : Nat :=
  Nat.pow 2 (format.exponentBits - 1) / 3

/-- Digits and a power of ten for a positive number. -/
def decimal (format : Binary.Format) (significand : Nat) (exponent : Int) : Nat × Int :=
  (neighbourhood format significand exponent).search (topExponent format)
    (2 * topExponent format + 2 * format.fractionBits)

/-- The text of `digits * 10 ^ exponent` without an exponent. -/
def positional (digits : Nat) (exponent : Int) : String :=
  let text := (Nat.repr digits).toList
  if 0 ≤ exponent then String.ofList (text ++ List.replicate exponent.toNat '0')
  else
    let places := (-exponent).toNat
    let padded := List.replicate (places + 1 - text.length) '0' ++ text
    let whole := padded.length - places
    String.ofList (padded.take whole ++ '.' :: padded.drop whole)

end Shortest

/-- How numbers are written where more than one way is common. -/
structure NumberStyle where
  /-- The word for a value that is no number. -/
  nan : String
  /-- What follows the digits of a whole number. -/
  afterWhole : String

namespace NumberStyle

variable (style : NumberStyle)

def magnitude (format : Binary.Format) (significand : Nat) (exponent : Int) : String :=
  if significand = 0 then "0" ++ style.afterWhole
  else
    let (digits, power) := Shortest.decimal format significand exponent
    Shortest.positional digits power ++ if 0 ≤ power then style.afterWhole else ""

def write (format : Binary.Format) : Binary.Value → String
  | .nan => style.nan
  | .infinite negative => if negative then "-inf" else "inf"
  | .finite negative significand exponent =>
      (if negative then "-" else "") ++ style.magnitude format significand exponent

def writeSingle (x : Float32) : String :=
  style.write Binary.single (Binary.ofSingle x)

def writeDouble (x : Float) : String :=
  style.write Binary.double (Binary.ofDouble x)

end NumberStyle

/-- Numbers in messages and labels. -/
def NumberStyle.plain : NumberStyle := ⟨"NaN", ""⟩

end ArcGraph
