/-!
White space, and the words between it.
-/

namespace ArcGraph.Text

/-- The characters with the property White_Space. -/
def isBlank (c : Char) : Bool :=
  let code := c.toNat
  (0x09 ≤ code && code ≤ 0x0D) || code = 0x20 || code = 0x85 || code = 0xA0 || code = 0x1680 ||
    (0x2000 ≤ code && code ≤ 0x200A) || code = 0x2028 || code = 0x2029 || code = 0x202F ||
    code = 0x205F || code = 0x3000

/-- The pieces of a text between blanks, empty ones included. -/
def pieces : List Char → List (List Char)
  | [] => [[]]
  | c :: rest =>
      if isBlank c then [] :: pieces rest
      else match pieces rest with
        | [] => [[c]]
        | piece :: others => (c :: piece) :: others

/-- The words of a text: its pieces between blanks that are not empty. -/
def words (text : List Char) : List (List Char) :=
  (pieces text).filter (· ≠ [])

/-- A word without the given ending. -/
def dropEnding? (ending word : List Char) : Option (List Char) :=
  if ending.isSuffixOf word then some (word.take (word.length - ending.length)) else none

end ArcGraph.Text
