import ArcGraph.Number.Numeral

/-!
Written dates and times.

Each reader takes its part off the front of a text and gives the rest. A part
out of its range, such as the thirtieth of February, is not read.
-/

namespace ArcGraph.Toml.Moment

/-- A number of exactly so many digits. -/
def digits? (count : Nat) (text : List Char) : Option (Nat × List Char) :=
  let taken := text.take count
  if taken.length = count ∧ taken.all Char.isDigit then
    some (Digits.toNat taken, text.drop count)
  else none

/-- Two digits with a value between two bounds. -/
def field? (least greatest : Nat) (text : List Char) : Option (List Char) := do
  let (value, rest) ← digits? 2 text
  if least ≤ value ∧ value ≤ greatest then some rest else none

def mark? (c : Char) : List Char → Option (List Char)
  | [] => none
  | first :: rest => if first = c then some rest else none

def isLeapYear (year : Nat) : Bool :=
  year % 4 = 0 && (year % 100 ≠ 0 || year % 400 = 0)

def daysInMonth (year month : Nat) : Nat :=
  if month = 2 then if isLeapYear year then 29 else 28
  else if month ∈ [4, 6, 9, 11] then 30
  else 31

def date? (text : List Char) : Option (List Char) := do
  let (year, rest) ← digits? 4 text
  let rest ← mark? '-' rest
  let (month, rest) ← digits? 2 rest
  let rest ← mark? '-' rest
  if 1 ≤ month ∧ month ≤ 12 then field? 1 (daysInMonth year month) rest else none

/-- The parts of a second. -/
def fraction? : List Char → Option (List Char)
  | '.' :: rest =>
      if rest.takeWhile Char.isDigit = [] then none else some (rest.dropWhile Char.isDigit)
  | text => some text

/-- The second, which may be missing. A minute may have one second more than usual. -/
def second? : List Char → Option (List Char)
  | ':' :: rest => (field? 0 60 rest).bind fraction?
  | text => some text

def time? (text : List Char) : Option (List Char) := do
  let rest ← field? 0 23 text
  let rest ← mark? ':' rest
  let rest ← field? 0 59 rest
  second? rest

/-- The distance from universal time. -/
def offset? : List Char → Option (List Char)
  | [] => some []
  | c :: rest =>
      if c = 'Z' || c = 'z' then some rest
      else if c = '+' || c = '-' then do
        let rest ← field? 0 23 rest
        let rest ← mark? ':' rest
        field? 0 59 rest
      else none

/-- A date, a time, or a date with a time behind a letter or a space. -/
def isMoment (text : List Char) : Bool :=
  match date? text with
  | none => time? text = some []
  | some [] => true
  | some (c :: rest) =>
      (c = 'T' || c = 't' || c = ' ') && (time? rest).bind offset? = some []

end ArcGraph.Toml.Moment
