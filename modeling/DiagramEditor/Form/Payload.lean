import DiagramEditor.Form.Gesture
import DiagramEditor.Json.Reader
/-!
What is stored and sent as JSON text: parts of a document and of a page, and what drags start on.
A text is read as a payload of one kind.
-/
namespace DiagramEditor

inductive Payload
  | point (p : Point)
  | size (s : Size)
  | rect (r : Rect)
  | template (t : Template)
  | shape (s : Shape)
  | style (s : Style)
  | endpoint (e : Endpoint)
  | item (i : Item)
  | source (s : DragSource)

inductive Payload.Kind
  | point
  | size
  | rect
  | template
  | shape
  | style
  | endpoint
  | item
  | source
  deriving DecidableEq, Repr

namespace Payload

def kind : Payload → Kind
  | point _ => .point
  | size _ => .size
  | rect _ => .rect
  | template _ => .template
  | shape _ => .shape
  | style _ => .style
  | endpoint _ => .endpoint
  | item _ => .item
  | source _ => .source

def toJson : Payload → Json
  | point p => p.toJson
  | size s => s.toJson
  | rect r => r.toJson
  | template t => t.toJson
  | shape s => s.toJson
  | style s => s.toJson
  | endpoint e => e.toJson
  | item i => i.toJson
  | source s => s.toJson

def Kind.ofJson? (room : Nat) (j : Json) : Kind → Option Payload
  | .point => (Point.ofJson? j).map .point
  | .size => (Size.ofJson? j).map .size
  | .rect => (Rect.ofJson? j).map .rect
  | .template => (Template.ofJson? j).map .template
  | .shape => (Shape.ofJson? room j).map .shape
  | .style => (Style.ofJson? room j).map .style
  | .endpoint => (Endpoint.ofJson? room j).map .endpoint
  | .item => (Item.ofJson? room j).map .item
  | .source => (DragSource.ofJson? room j).map .source

def Kind.read? (k : Kind) (raw : String) : Option Payload :=
  (Json.read? raw).bind fun j => k.ofJson? Json.maxDepth j

end Payload

end DiagramEditor
