import ArcGraph.Style.Key
import ArcGraph.Toml.Quoted.Writer
import ArcGraph.Toml.Reader
import ArcGraph.Number.Shortest

/-!
Styles in files.

A file holds one entry per setting. Reading it never fails: a file that is
missing or makes no sense gives the standard style.
-/

namespace ArcGraph

/-- Numbers in files: a whole number has a zero behind a point. -/
def NumberStyle.inFile : NumberStyle := ⟨"nan", ".0"⟩

namespace Style

def writeNumber (x : Float32) : List Char :=
  (NumberStyle.inFile.writeSingle x).toList

/-- A color has each of its numbers on a line of its own. -/
def writeColor (color : Color) : List Char :=
  let line (x : Float32) : List Char := "    ".toList ++ writeNumber x ++ [',', '\n']
  ['[', '\n'] ++ [color.red, color.green, color.blue, color.alpha].flatMap line ++ [']']

/-- The value of a setting as it is written. -/
def writeValue (style : Style Float32) : Key → List Char
  | .curvature => writeNumber style.curvature
  | .arrowHalfWidth => writeNumber style.arrowHalfWidth
  | .labelOffsetFactor => writeNumber style.labelOffsetFactor
  | .labelMidpointScale => writeNumber style.labelMidpointScale
  | .labelFont => Toml.Quoted.write style.labelFont.toList
  | .lineWidth => writeNumber style.lineWidth
  | .colorDefault => writeColor style.colorDefault
  | .colorSelected => writeColor style.colorSelected
  | .pickTolerance => writeNumber style.pickTolerance

/-- The entry of a setting, with the end of its last line. -/
def writeEntry (style : Style Float32) (key : Key) : List Char :=
  key.name.toList ++ [' ', '=', ' '] ++ style.writeValue key ++ ['\n']

/-- The text of a file with all settings. -/
def write (style : Style Float32) : List Char :=
  Key.all.flatMap style.writeEntry

/-- The style that a text describes. -/
def read? (text : List Char) : Option (Style Float32) :=
  (Toml.document? text).bind (ofDatum? true)

/-- What became of a style file. -/
inductive Loaded where
  /-- There is no file, or it is no text. -/
  | missing
  | faulty
  | found (style : Style Float32)

/-- Looks into a file, given its bytes if it can be read. -/
def load (bytes : Option ByteArray) : Loaded :=
  match bytes.bind String.fromUTF8? with
  | none => .missing
  | some text =>
      match read? text.toList with
      | none => .faulty
      | some style => .found style

/-- The style to go on with. -/
def Loaded.style : Loaded → Style Float32
  | missing | faulty => standard
  | found style => style

/-- The bytes of a file with all settings. -/
def save (style : Style Float32) : ByteArray :=
  (String.ofList style.write).toUTF8

end Style

end ArcGraph
