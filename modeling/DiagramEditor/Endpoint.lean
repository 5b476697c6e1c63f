import DiagramEditor.Uuid
/-!
Endpoints of connections. An endpoint belongs to one item and either starts connections or ends
them; its style says how it is drawn, where it sits on the item and how many connections it takes.
-/
namespace DiagramEditor

structure ItemId where
  text : String
  deriving DecidableEq, Repr

inductive Role
  | source
  | target
  deriving DecidableEq, Repr

def Role.text : Role → String
  | .source => "source"
  | .target => "target"

inductive Shape
  | dot (radius : Float)
  | rectangle (width height : Float)

inductive Anchor
  | top
  | topRight
  | right
  | bottomRight
  | bottom
  | bottomLeft
  | left
  | topLeft
  | center
  deriving DecidableEq, Repr

def Anchor.relative : Anchor → Float × Float
  | .top => (0.5, 0)
  | .topRight => (1, 0)
  | .right => (1, 0.5)
  | .bottomRight => (1, 1)
  | .bottom => (0.5, 1)
  | .bottomLeft => (0, 1)
  | .left => (0, 0.5)
  | .topLeft => (0, 0)
  | .center => (0.5, 0.5)

/-- No limit stands for any number of connections. -/
structure Style where
  color : String
  shape : Shape
  anchor : Anchor
  limit : Option Nat

namespace Style

def source : Style := ⟨"#7AB02C", .dot 7, .right, none⟩

def target : Style := ⟨"#316B31", .rectangle 14 14, .left, none⟩

end Style

abbrev EndpointId := Uuid

abbrev ConnectionId := Uuid

structure Endpoint where
  id : EndpointId
  item : ItemId
  role : Role
  style : Style

end DiagramEditor
