import ArcGraph.Datum.Basic

/-!
Tables that are put together piece by piece.

A document names a table in several places. How a table came about decides what
may still be added to it, so nodes remember it until the document is complete.
-/

namespace ArcGraph.Toml

/-- How a table came about. -/
inductive Origin where
  /-- It has a header of its own. -/
  | header
  /-- A header names a table inside it. -/
  | implied
  /-- The key of an entry has dots in it. -/
  | dotted
  deriving DecidableEq, Repr

inductive Node where
  | leaf (value : Datum)
  | table (origin : Origin) (entries : List (String × Node))
  /-- The tables under a repeated header, the newest one first. -/
  | rows (tables : List (List (String × Node)))

/-- Nodes by key. -/
abbrev Tree := List (String × Node)

mutual

def Node.datum : Node → Datum
  | .leaf value => value
  | .table _ entries => .record (fieldData entries)
  | .rows tables => .list (rowData tables).reverse

def fieldData : List (String × Node) → List (String × Datum)
  | [] => []
  | (key, node) :: rest => (key, node.datum) :: fieldData rest

def rowData : List (List (String × Node)) → List Datum
  | [] => []
  | table :: rest => .record (fieldData table) :: rowData rest

end

namespace Tree

/-- Change what is under a key, or put something there, unless that is refused. -/
def alter? (key : String) (change : Option Node → Option Node) : Tree → Option Tree
  | [] => (change none).map fun node => [(key, node)]
  | (other, node) :: rest =>
      if other = key then (change (some node)).map fun node => (key, node) :: rest
      else (alter? key change rest).map ((other, node) :: ·)

/-- Add an entry. The last key is put into the given table or into one that only dots have made;
on the way there, tables that a header implies or repeats may be passed through. -/
def put? (value : Datum) : List String → Tree → Option Tree
  | [], _ => none
  | [key], tree => tree.alter? key fun
      | none => some (.leaf value)
      | some _ => none
  | key :: next :: more, tree => tree.alter? key fun
      | none => (put? value (next :: more) []).map (.table .dotted)
      | some (.table .dotted inner) =>
          (put? value (next :: more) inner).map (.table .dotted)
      | some (.table .implied inner) =>
          if more.isEmpty then none
          else (put? value (next :: more) inner).map (.table .implied)
      | some (.rows (newest :: older)) =>
          if more.isEmpty then none
          else (put? value (next :: more) newest).map fun newest => .rows (newest :: older)
      | _ => none

/-- Change the node at the end of a path. Tables on the way are made if they are missing, and of
the tables under a repeated header the newest is taken. -/
def alterAt? (change : Option Node → Option Node) : List String → Tree → Option Tree
  | [], _ => none
  | [key], tree => tree.alter? key change
  | key :: next :: more, tree => tree.alter? key fun
      | none => (alterAt? change (next :: more) []).map (.table .implied)
      | some (.table origin inner) =>
          (alterAt? change (next :: more) inner).map (.table origin)
      | some (.rows (newest :: older)) =>
          (alterAt? change (next :: more) newest).map fun newest => .rows (newest :: older)
      | _ => none

/-- A table that gets its header. -/
def opened? : Option Node → Option Node
  | none => some (.table .header [])
  | some (.table .implied inner) => some (.table .header inner)
  | _ => none

/-- One more table under a repeated header. -/
def repeated? : Option Node → Option Node
  | none => some (.rows [[]])
  | some (.rows tables) => some (.rows ([] :: tables))
  | _ => none

/-- A table with a change to its entries. -/
def within? (change : Tree → Option Tree) : Option Node → Option Node
  | some (.table origin inner) => (change inner).map (.table origin)
  | some (.rows (newest :: older)) => (change newest).map fun newest => .rows (newest :: older)
  | _ => none

/-- The record of entries that stand together, such as those of a table on one line. -/
def ofEntries? (entries : List (List String × Datum)) : Option Tree :=
  entries.foldlM (fun tree (path, value) => put? value path tree) []

end Tree

/-- A line of a document that says something. -/
inductive Statement where
  | entry (path : List String) (value : Datum)
  | header (path : List String)
  | repeatedHeader (path : List String)

/-- A document read so far: its tables, and where the last header leads. -/
structure Assembly where
  root : Tree := []
  place : List String := []

namespace Assembly

def step? (assembly : Assembly) : Statement → Option Assembly
  | .entry path value => do
      let root ←
        if assembly.place.isEmpty then Tree.put? value path assembly.root
        else Tree.alterAt? (Tree.within? (Tree.put? value path)) assembly.place assembly.root
      some { assembly with root }
  | .header path => do some ⟨← Tree.alterAt? Tree.opened? path assembly.root, path⟩
  | .repeatedHeader path => do some ⟨← Tree.alterAt? Tree.repeated? path assembly.root, path⟩

/-- The tables that the statements of a document make, one after the other. -/
def ofStatements? (statements : List Statement) : Option Assembly :=
  statements.foldlM step? {}

end Assembly

end ArcGraph.Toml
