import ArcGraph.Number.Shortest

/-!
Weights of edges.
-/

namespace ArcGraph

/-- A number or a free text. -/
inductive Weight where
  | number (value : Float)
  | label (text : String)
  deriving DecidableEq

namespace Weight

instance : Inhabited Weight := ⟨.number 0⟩

def text : Weight → String
  | .number value => NumberStyle.plain.writeDouble value
  | .label text => text

end Weight

end ArcGraph
