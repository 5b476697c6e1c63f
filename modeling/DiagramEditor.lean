import DiagramEditor.Text.Basic
import DiagramEditor.Text.Utf8
import DiagramEditor.Decimal.Layout
import DiagramEditor.Geometry
import DiagramEditor.Uuid
import DiagramEditor.Selector
import DiagramEditor.Json.Printer
import DiagramEditor.Json.Reader
import DiagramEditor.Json.Decode
import DiagramEditor.Document
import DiagramEditor.Element
import DiagramEditor.Gesture
import DiagramEditor.Bus
import DiagramEditor.Log.Entry
import DiagramEditor.Text.Quoted
import DiagramEditor.Wiring.Memory
import DiagramEditor.Wiring.Library
import DiagramEditor.Board.Setup
import DiagramEditor.Board.Items
import DiagramEditor.Board.Drag
import DiagramEditor.Form.Settings
import DiagramEditor.Form.Gesture
import DiagramEditor.Form.Basic
import DiagramEditor.Form.Endpoint
import DiagramEditor.Board.Step
import DiagramEditor.Desk
import DiagramEditor.Log.Console
import DiagramEditor.Browser.Adapter
import DiagramEditor.Bench.Run
import DiagramEditor.Browser.Run
import DiagramEditor.Proofs.Document.Lookup
import DiagramEditor.Proofs.Document.Sound
import DiagramEditor.Proofs.Board.History
import DiagramEditor.Proofs.Wiring.Fallible
import DiagramEditor.Proofs.Board.Effect
import DiagramEditor.Proofs.Board.Conduct
import DiagramEditor.Proofs.Board.Orderly
import DiagramEditor.Proofs.Wiring.Mirror
import DiagramEditor.Proofs.Board.Upheld
import DiagramEditor.Proofs.Wiring.Agreement
import DiagramEditor.Proofs.Board.Canvas
import DiagramEditor.Proofs.Board.Accord
import DiagramEditor.Proofs.Board.Renewal
import DiagramEditor.Proofs.Board.Connecting
import DiagramEditor.Proofs.Board.Traces
import DiagramEditor.Proofs.Wiring.Positions
import DiagramEditor.Proofs.Board.Removal
import DiagramEditor.Proofs.Document.Order
import DiagramEditor.Proofs.Geometry.Containment
import DiagramEditor.Proofs.Board.Gestures
import DiagramEditor.Proofs.Board.Helper
import DiagramEditor.Proofs.Board.Bulletins
import DiagramEditor.Proofs.Board.Events
import DiagramEditor.Proofs.Browser.Account
import DiagramEditor.Proofs.Browser.Growth
import DiagramEditor.Proofs.Browser.Tracking
import DiagramEditor.Proofs.Browser.Reentry
import DiagramEditor.Proofs.Browser.Delivery
import DiagramEditor.Proofs.Browser.Calls
import DiagramEditor.Proofs.Browser.Unregister
import DiagramEditor.Proofs.Board.Recording
import DiagramEditor.Proofs.Desk.Queue
import DiagramEditor.Proofs.Desk.Session
import DiagramEditor.Proofs.Desk.HandOut
import DiagramEditor.Proofs.Desk.Bench
import DiagramEditor.Proofs.Board.Ordinals
import DiagramEditor.Proofs.Board.WellFormed
import DiagramEditor.Proofs.Board.Demands
import DiagramEditor.Proofs.Board.Interrupted
import DiagramEditor.Proofs.Board.Refusals
import DiagramEditor.Proofs.Text.Trim
import DiagramEditor.Proofs.Selector.Grammar
import DiagramEditor.Proofs.Board.Independence
import DiagramEditor.Proofs.Board.Path
import DiagramEditor.Proofs.Browser.Adapter
import DiagramEditor.Proofs.Browser.Registry
import DiagramEditor.Proofs.Board.Framing
import DiagramEditor.Proofs.Board.Reverting
import DiagramEditor.Proofs.Board.Hooks
import DiagramEditor.Proofs.Board.Blurring
import DiagramEditor.Proofs.Selector.Matching
import DiagramEditor.Proofs.Lasting
import DiagramEditor.Proofs.Bus.Subscriptions
import DiagramEditor.Proofs.Board.Enabling
import DiagramEditor.Proofs.Browser.ExactlyOnce
import DiagramEditor.Proofs.Wiring.Detaching
import DiagramEditor.Proofs.Palette.Kinds
import DiagramEditor.Proofs.Board.Templates
import DiagramEditor.Proofs.Text.Utf8
import DiagramEditor.Proofs.Log.Lines
import DiagramEditor.Proofs.Json.Reading
import DiagramEditor.Proofs.Json.Printing
import DiagramEditor.Proofs.Json.Records
import DiagramEditor.Proofs.Form.Settings
import DiagramEditor.Proofs.Settings
import DiagramEditor.Proofs.Document.Edits
import DiagramEditor.Proofs.Geometry.Differences
import DiagramEditor.Proofs.Geometry.Projection
import DiagramEditor.Proofs.Json.Equality
import DiagramEditor.Proofs.Uuid
import DiagramEditor.Proofs.Wiring.Options
import DiagramEditor.Form.Payload
import DiagramEditor.Proofs.Form.Payload
import DiagramEditor.Proofs.Json.Texts
