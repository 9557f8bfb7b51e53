import ArcGraph.Number.Numeral
import ArcGraph.Text.Blank

/-!
The size in a font description such as `15pt Arial`.
-/

namespace ArcGraph.FontSize

/-- The size that one word of a description gives, in points or pixels alike. -/
def ofWord? (word : List Char) : Option Float32 := do
  let number ← (Text.dropEnding? ['p', 't'] word).or (Text.dropEnding? ['p', 'x'] word)
  let size := (← WrittenNumber.read? number).toSingle
  if 0 < size then some size else none

/-- The first positive size that a word of a description gives. -/
def ofDescription? (description : String) : Option Float32 :=
  (Text.words description.toList).findSome? ofWord?

end ArcGraph.FontSize
