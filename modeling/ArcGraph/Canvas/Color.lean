/-!
Colors, and how they are stored as bytes.

A color has four components between zero and one. A pixel has a byte for each,
its first three already multiplied by the opacity.
-/

namespace ArcGraph

/-- Red, green, blue and opacity, each from zero to one. -/
structure Color where
  red : Float32
  green : Float32
  blue : Float32
  alpha : Float32
  deriving BEq, DecidableEq

namespace Color

def black : Color := ⟨0, 0, 0, 1⟩

end Color

/-- A color in four bytes, the first three multiplied by the last. -/
structure Pixel where
  red : UInt8
  green : UInt8
  blue : UInt8
  alpha : UInt8
  deriving DecidableEq, Repr

namespace Pixel

def transparent : Pixel := ⟨0, 0, 0, 0⟩

def black : Pixel := ⟨0, 0, 0, 255⟩

/-- A component kept between zero and one. -/
def clamp (x : Float32) : Float32 :=
  if x < 0 then 0 else if 1 < x then 1 else x

/-- The nearest whole number up to 255, a half going up. -/
def round (x : Float32) : UInt8 :=
  let whole := x.toUInt8
  if 0.5 ≤ x - whole.toFloat32 then whole + 1 else whole

/-- A component as a byte. -/
def channel (x : Float32) : UInt8 :=
  round (clamp x * 255)

/-- A byte multiplied by the opacity, with a half added before the fraction is dropped. -/
def multiply (byte alpha : UInt8) : UInt8 :=
  (byte.toFloat32 * (alpha.toFloat32 / 255) + 0.5).toUInt8

/-- The pixel of four bytes of which none is multiplied yet. -/
def ofUnmultiplied (red green blue alpha : UInt8) : Pixel :=
  if alpha = 0 then transparent
  else if alpha = 255 then ⟨red, green, blue, alpha⟩
  else ⟨multiply red alpha, multiply green alpha, multiply blue alpha, alpha⟩

def ofColor (color : Color) : Pixel :=
  ofUnmultiplied (channel color.red) (channel color.green) (channel color.blue)
    (channel color.alpha)

end Pixel

end ArcGraph
