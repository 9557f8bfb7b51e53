import ArcGraph.Toml.Moment
import ArcGraph.Toml.Number
import ArcGraph.Toml.Quoted.Reader
import ArcGraph.Toml.Tree

/-!
Reading documents.

Each reader takes its part off the front of a text and gives the rest. A value
holds others inside brackets and braces, down to a depth that is the same for
all documents.
-/

namespace ArcGraph.Toml

def skipBlanks (text : List Char) : List Char :=
  text.dropWhile isBlank

/-- The text behind blanks, line ends and comments. -/
def skipTrivia (inComment : Bool) : List Char → List Char
  | [] => []
  | c :: rest =>
      if isBreak c rest then skipTrivia false rest
      else if inComment then if isPlain c then skipTrivia true rest else c :: rest
      else if isBlank c then skipTrivia false rest
      else if c = '#' then skipTrivia true rest
      else c :: rest

/-- The text without a comment that it starts with. -/
def skipComment : List Char → List Char
  | '#' :: rest => rest.dropWhile isPlain
  | text => text

/-- The rest behind the end of a line, or of the text. -/
def lineEnd? (text : List Char) : Option (List Char) :=
  match skipComment (skipBlanks text) with
  | [] => some []
  | '\n' :: rest | '\r' :: '\n' :: rest => some rest
  | _ => none

/-- The characters of a key that needs no marks. -/
def isBare (c : Char) : Bool :=
  c.isAlphanum || c = '_' || c = '-'

/-- Reads a single key, with marks or bare. -/
def key? (text : List Char) : Option (String × List Char) :=
  match Quoted.opened? text with
  | some form =>
      if form.isBlock then none
      else (Quoted.read? text).map fun (content, rest) => (String.ofList content, rest)
  | none =>
      let bare := text.takeWhile isBare
      if bare.isEmpty then none else some (String.ofList bare, text.dropWhile isBare)

/-- The number of keys that a path may have, and of brackets and braces that may stand around a
value. -/
def greatestDepth : Nat := 80

/-- Reads up to so many keys with dots between them, and the blanks behind the last one. -/
def path? : Nat → List Char → Option (List String × List Char)
  | 0, _ => none
  | count + 1, text => do
      let (key, rest) ← key? text
      match skipBlanks rest with
      | '.' :: rest =>
          let (path, rest) ← path? count (skipBlanks rest)
          some (key :: path, rest)
      | rest => some ([key], rest)

/-- The characters of a value that has neither marks nor brackets; blanks may be inside it. -/
def isTokenPart (c : Char) : Bool :=
  c ∉ [',', '=', '#', '[', ']', '\x7b', '\x7d', '\n', '\r']

/-- The text without the blanks at its end. -/
def dropBlanksBehind (text : List Char) : List Char :=
  (text.reverse.dropWhile isBlank).reverse

/-- The meaning of a value that has neither marks nor brackets. -/
def ofToken? (token : List Char) : Option Datum :=
  if token = ['t', 'r', 'u', 'e'] then some (.boolean true)
  else if token = ['f', 'a', 'l', 's', 'e'] then some (.boolean false)
  else if Moment.isMoment token then some (.moment (String.ofList token))
  else
    match Number.integer? token, Number.read? token with
    | some value, _ => some (.integer value)
    | none, some number => some (.number number)
    | none, none =>
        if Number.standsForWhole token then some (.unreadable (String.ofList token)) else none

/-- Reads a text, a number, a boolean or a moment. -/
def scalar? (text : List Char) : Option (Datum × List Char) :=
  if (Quoted.opened? text).isSome then
    (Quoted.read? text).map fun (content, rest) => (.text (String.ofList content), rest)
  else
    (ofToken? (dropBlanksBehind (text.takeWhile isTokenPart))).map fun datum =>
      (datum, text.dropWhile isTokenPart)

/-- Reads a path, an equals sign and a value, which are apart by what is skipped. -/
def assignment? (skip : List Char → List Char)
    (value? : List Char → Option (Datum × List Char)) (text : List Char) :
    Option ((List String × Datum) × List Char) := do
  let (path, rest) ← path? greatestDepth text
  match skip rest with
  | '=' :: rest =>
      let (value, rest) ← value? (skip rest)
      some ((path, value), rest)
  | _ => none

/-- Reads items with commas between them, up to a closing mark. There are no more items than the
text has characters, which bounds the calls. -/
def series? {α : Type} (closing : Char) (item? : List Char → Option (α × List Char)) :
    Nat → List Char → Option (List α × List Char)
  | 0, _ => none
  | bound + 1, text =>
      if text.head? = some closing then some ([], text.tail)
      else do
        let (item, rest) ← item? text
        match skipTrivia false rest with
        | ',' :: rest =>
            let (items, rest) ← series? closing item? bound (skipTrivia false rest)
            some (item :: items, rest)
        | c :: rest => if c = closing then some ([item], rest) else none
        | [] => none

/-- Reads a value of any kind, with so many brackets and braces inside each other. Inside them a
line may end between any two parts. -/
def value? : Nat → List Char → Option (Datum × List Char)
  | depth + 1, '[' :: rest => do
      let (items, rest) ←
        series? ']' (value? depth) (rest.length + 1) (skipTrivia false rest)
      some (.list items, rest)
  | depth + 1, '\x7b' :: rest => do
      let entry := assignment? (skipTrivia false) (value? depth)
      let (entries, rest) ← series? '\x7d' entry (rest.length + 1) (skipTrivia false rest)
      let tree ← Tree.ofEntries? entries
      some (.record (fieldData tree), rest)
  | _, text => scalar? text

/-- Reads a header, the brackets around it being given. -/
def header? (closing : List Char) (text : List Char) :
    Option (List String × List Char) := do
  let (path, rest) ← path? greatestDepth (skipBlanks text)
  if closing.isPrefixOf rest then some (path, rest.drop closing.length) else none

/-- Reads a statement, without the end of its line. -/
def statement? : List Char → Option (Statement × List Char)
  | '[' :: '[' :: rest => do
      let (path, rest) ← header? [']', ']'] rest
      some (.repeatedHeader path, rest)
  | '[' :: rest => do
      let (path, rest) ← header? [']'] rest
      some (.header path, rest)
  | text => do
      let ((path, value), rest) ← assignment? skipBlanks (value? greatestDepth) text
      some (.entry path value, rest)

/-- Reads statements up to the end of the text, which has more characters than statements. -/
def statements? : Nat → List Char → Option (List Statement)
  | 0, _ => none
  | bound + 1, text =>
      match skipTrivia false text with
      | [] => some []
      | text => do
          let (statement, rest) ← statement? text
          let rest ← lineEnd? rest
          let statements ← statements? bound rest
          some (statement :: statements)

/-- The text without a byte order mark at its start. -/
def dropByteOrderMark : List Char → List Char
  | '\ufeff' :: rest => rest
  | text => text

/-- Reads a document as a record of its entries and tables. -/
def document? (text : List Char) : Option Datum := do
  let statements ← statements? (text.length + 1) (dropByteOrderMark text)
  let assembly ← Assembly.ofStatements? statements
  some (.record (fieldData assembly.root))

end ArcGraph.Toml
