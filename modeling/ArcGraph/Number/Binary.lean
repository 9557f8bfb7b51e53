/-!
Binary floating-point formats.

A format gives every bit pattern a value, a signed multiple of a power of two
among them, and rounds every ratio of natural numbers to the nearest pattern,
ties to the even one. Both directions are exact integer arithmetic.
-/

namespace ArcGraph.Binary

/-- What a bit pattern stands for; a finite one is `± significand * 2 ^ exponent`. -/
inductive Value where
  | nan
  | infinite (negative : Bool)
  | finite (negative : Bool) (significand : Nat) (exponent : Int)
  deriving DecidableEq

/-- The widths of the two fields behind the sign bit. -/
structure Format where
  fractionBits : Nat
  exponentBits : Nat
  deriving DecidableEq

/-- The format of 32 bits. -/
def single : Format := ⟨23, 8⟩

/-- The format of 64 bits. -/
def double : Format := ⟨52, 11⟩

namespace Format

variable (format : Format)

/-- The exponent field of infinities, above that of every finite value. -/
def topField : Nat :=
  Nat.pow 2 format.exponentBits - 1

/-- The exponent of the last place of the smallest values. -/
def leastExponent : Int :=
  2 - Nat.pow 2 (format.exponentBits - 1) - format.fractionBits

/-- The pattern of a value without its sign. -/
def infinityBits : Nat :=
  format.topField * Nat.pow 2 format.fractionBits

def signBit : Nat :=
  Nat.pow 2 (format.fractionBits + format.exponentBits)

def decode (bits : Nat) : Value :=
  let fraction := bits % Nat.pow 2 format.fractionBits
  let field := bits / Nat.pow 2 format.fractionBits % Nat.pow 2 format.exponentBits
  let negative := decide (bits / format.signBit % 2 = 1)
  if field = format.topField then
    if fraction = 0 then .infinite negative else .nan
  else if field = 0 then .finite negative fraction format.leastExponent
  else .finite negative (Nat.pow 2 format.fractionBits + fraction)
    (format.leastExponent + (field - 1 : Nat))

/-- The quotient rounded to the nearest natural number, a half to the even one. -/
def roundHalfEven (numerator denominator : Nat) : Nat :=
  let quotient := numerator / denominator
  let twice := 2 * (numerator % denominator)
  if denominator < twice ∨ (twice = denominator ∧ quotient % 2 = 1) then quotient + 1
  else quotient

/-- The largest exponent `e` with `2 ^ e ≤ numerator / denominator`, both positive. -/
def binaryOrder (numerator denominator : Nat) : Int :=
  let order : Int := (Nat.log2 numerator : Int) - Nat.log2 denominator
  if numerator * Nat.pow 2 (-order).toNat < denominator * Nat.pow 2 order.toNat then order - 1
  else order

/-- The pattern, without sign, that is nearest to a ratio. -/
def roundMagnitude (numerator denominator : Nat) : Nat :=
  if numerator = 0 then 0
  else
    let exponent := max format.leastExponent
      (binaryOrder numerator denominator - format.fractionBits)
    let significand := roundHalfEven (numerator * Nat.pow 2 (-exponent).toNat)
      (denominator * Nat.pow 2 exponent.toNat)
    let field := (exponent - format.leastExponent).toNat
    let bits := field * Nat.pow 2 format.fractionBits + significand
    min bits format.infinityBits

def withSign (negative : Bool) (magnitude : Nat) : Nat :=
  if negative then format.signBit + magnitude else magnitude

/-- The one pattern that stands for every value that is no number. -/
def nanBits : Nat :=
  format.infinityBits + Nat.pow 2 (format.fractionBits - 1)

/-- The pattern nearest to a value of any format. -/
def encode : Value → Nat
  | .nan => format.nanBits
  | .infinite negative => format.withSign negative format.infinityBits
  | .finite negative significand exponent =>
      format.withSign negative (format.roundMagnitude
        (significand * Nat.pow 2 exponent.toNat) (Nat.pow 2 (-exponent).toNat))

end Format

def ofSingle (x : Float32) : Value :=
  single.decode x.toBits.toNat

def ofDouble (x : Float) : Value :=
  double.decode x.toBits.toNat

def toSingle (value : Value) : Float32 :=
  .ofBits (.ofNat (single.encode value))

def toDouble (value : Value) : Float :=
  .ofBits (.ofNat (double.encode value))

/-- The nearest 32-bit number. -/
def narrow (x : Float) : Float32 :=
  toSingle (ofDouble x)

end ArcGraph.Binary
