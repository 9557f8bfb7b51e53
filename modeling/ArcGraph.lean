import ArcGraph.Canvas.Painter
import ArcGraph.Event
import ArcGraph.Proofs.Registry.View
import ArcGraph.Proofs.Registry.Linking
import ArcGraph.Proofs.Registry.Run
import ArcGraph.Proofs.Registry.Pairing
import ArcGraph.Proofs.Registry.Restoring
import ArcGraph.Proofs.Registry.Step
import ArcGraph.Proofs.Registry.Ids
import ArcGraph.Proofs.Registry.Undo
import ArcGraph.Proofs.Registry.Mirroring
import ArcGraph.Proofs.Registry.Outcome
import ArcGraph.Proofs.Registry.Picking
import ArcGraph.Proofs.Registry.Connecting
import ArcGraph.Proofs.Arc.Curve
import ArcGraph.Proofs.Arc.Fit
import ArcGraph.Proofs.Arc.Hit
import ArcGraph.Proofs.Arc.Drawn
import ArcGraph.Proofs.Arc.Mirror
import ArcGraph.Proofs.Arc.Shape
import ArcGraph.Proofs.Arc.Arrowhead
import ArcGraph.Proofs.Drawing.Curve
import ArcGraph.Proofs.Drawing.Painting
import ArcGraph.Proofs.Number.Order
import ArcGraph.Proofs.Number.Pattern
import ArcGraph.Proofs.Number.Shortest
import ArcGraph.Proofs.Number.Detour
import ArcGraph.Proofs.Number.Numeral
import ArcGraph.Proofs.Toml.Number
import ArcGraph.Proofs.Toml.Document
import ArcGraph.Proofs.Toml.LineEnd
import ArcGraph.Proofs.Toml.Locality
import ArcGraph.Proofs.Toml.Entries
import ArcGraph.Proofs.Style.Settings
import ArcGraph.Proofs.Style.Partial
import ArcGraph.Proofs.Style.RoundTrip
import ArcGraph.Proofs.Registry.Clearing
import ArcGraph.Proofs.Arc.Reversal
import ArcGraph.Proofs.Number.Signed
import ArcGraph.Proofs.Number.Sum
import ArcGraph.Proofs.Number.SumOrder
import ArcGraph.Proofs.Registry.Tolerance
import ArcGraph.Proofs.Registry.Withdrawing
import ArcGraph.Proofs.Registry.Clicking
import ArcGraph.Proofs.Registry.Updating
import ArcGraph.Proofs.Registry.BoxSelection
import ArcGraph.Proofs.Drawing.Flattening
import ArcGraph.Proofs.Drawing.Closing
import ArcGraph.Proofs.Drawing.Translation
import ArcGraph.Proofs.Number.Negation
import ArcGraph.Proofs.Number.Alike
import ArcGraph.Proofs.Registry.Labelling
import ArcGraph.Proofs.Disk
import ArcGraph.Proofs.Number.Truncation
import ArcGraph.Proofs.Number.Product
import ArcGraph.Proofs.Number.Quotient
import ArcGraph.Proofs.Plane.Single
import ArcGraph.Proofs.Arc.Span
import ArcGraph.Proofs.Arc.Direction
import ArcGraph.Proofs.Text.Words
import ArcGraph.Proofs.Number.Spelling
import ArcGraph.Proofs.Number.Reading
import ArcGraph.Proofs.Drawing.FontSize
