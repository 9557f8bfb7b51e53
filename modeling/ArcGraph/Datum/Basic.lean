import ArcGraph.Number.Numeral

/-!
Plain data, as structured texts hold it.

Numbers are kept as written, since a reader may want them in more than one
width. A whole number is rounded once and may have up to 64 bits; one that is
only passed over may have 128.
-/

namespace ArcGraph

/-- A value without a type of its own. -/
inductive Datum where
  | null
  | boolean (value : Bool)
  | integer (value : Int)
  /-- A number with a point, an exponent or a word. -/
  | number (written : WrittenNumber)
  /-- What stands for a whole number and has no value. -/
  | unreadable (written : String)
  | text (value : String)
  /-- A date, a time or both, as written. -/
  | moment (written : String)
  | list (items : List Datum)
  | record (fields : List (String × Datum))

namespace Datum

instance : Inhabited Datum := ⟨null⟩

def boolean? : Datum → Option Bool
  | boolean value => some value
  | _ => none

/-- A whole number has so many bits, one of them for the sign if it is negative. -/
def fits (bits : Nat) (value : Int) : Bool :=
  decide (-(Nat.pow 2 (bits - 1) : Int) ≤ value) && decide (value < Nat.pow 2 bits)

/-- The nearest 64-bit number. -/
def double? : Datum → Option Float
  | integer value => if fits 64 value then some (Numeral.ofInt value).toDouble else none
  | number written => written.double?
  | _ => none

/-- The nearest 32-bit number, by way of 64 bits unless it is written as a whole number. -/
def single? : Datum → Option Float32
  | integer value => if fits 64 value then some (Numeral.ofInt value).toSingle else none
  | number written => written.double?.map Binary.narrow
  | _ => none

def text? : Datum → Option String
  | text value => some value
  | _ => none

mutual

/-- All numbers inside have values, which are small enough to be passed over. -/
def inRange : Datum → Bool
  | integer value => fits 128 value
  | number written => written.double?.isSome
  | unreadable _ => false
  | list items => itemsInRange items
  | record fields => fieldsInRange fields
  | null | boolean _ | text _ | moment _ => true

def itemsInRange : List Datum → Bool
  | [] => true
  | item :: rest => item.inRange && itemsInRange rest

def fieldsInRange : List (String × Datum) → Bool
  | [] => true
  | (_, field) :: rest => field.inRange && fieldsInRange rest

end

/-- The name of a constant: a text, or the one key of a record with nothing under it. -/
def name? : Datum → Option String
  | text name | record [(name, null)] => some name
  | _ => none

/-- The parts of a compound. Those of a record have their own names; the items of a list take the
given names in order, and there may be fewer items than names but not more. -/
def parts? (names : List String) : Datum → Option (List (String × Datum))
  | record fields => some fields
  | list items => if items.length ≤ names.length then some (names.zip items) else none
  | _ => none

/-- The value of a part that has to be there. -/
def required? {α : Type} (read? : Datum → Option α) (part : Option Datum) : Option α :=
  part.bind read?

/-- The value of a part, or another value if the part is missing. -/
def optional? {α : Type} (read? : Datum → Option α) (fallback : α) :
    Option Datum → Option α
  | none => some fallback
  | some part => read? part

end Datum

end ArcGraph
