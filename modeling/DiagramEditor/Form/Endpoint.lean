import DiagramEditor.Endpoint
import DiagramEditor.Json.Decode
/-!
The JSON form of endpoints, their styles and what these are made of. `room` is the number of levels
of arrays and objects that a reader may still go down. A drawing library on a page gets endpoints
under options of its own: it knows no absent limit, so that `-1` stands for it, and limits beyond 64
bits with a sign are cut down to them.
-/
namespace DiagramEditor

def ItemId.toJson (id : ItemId) : Json := .ofString id.text

def ItemId.ofJson? (j : Json) : Option ItemId := j.string?.map ItemId.mk

def Uuid.toJson (u : Uuid) : Json := .ofString u.text

def Uuid.ofJson? (j : Json) : Option Uuid := j.string?.bind Uuid.parse?

def Role.toJson (r : Role) : Json := .ofString r.text

def Role.ofJson? (j : Json) : Option Role := do
  let name ← j.name?
  [Role.source, .target].find? fun r => r.text == name

def Anchor.name : Anchor → String
  | .top => "Top"
  | .topRight => "TopRight"
  | .right => "Right"
  | .bottomRight => "BottomRight"
  | .bottom => "Bottom"
  | .bottomLeft => "BottomLeft"
  | .left => "Left"
  | .topLeft => "TopLeft"
  | .center => "Center"

def Anchor.all : List Anchor :=
  [.top, .topRight, .right, .bottomRight, .bottom, .bottomLeft, .left, .topLeft, .center]

def Anchor.ofName? (name : String) : Option Anchor :=
  all.find? fun a => a.name == name

def Anchor.toJson (a : Anchor) : Json := .ofString a.name

def Anchor.ofJson? (j : Json) : Option Anchor := j.name?.bind Anchor.ofName?

def Shape.toJson : Shape → Json
  | .dot r => .record [("type", .ofString "dot"), ("radius", .ofFloat r)]
  | .rectangle w h =>
    .record [("type", .ofString "rectangle"), ("width", .ofFloat w), ("height", .ofFloat h)]

def Shape.ofJson? (room : Nat) (j : Json) : Option Shape := do
  let (tag, body) ← j.tagged? room
  if tag = "dot" then
    match ← body.fields? ["radius"] with
    | [some r] => return .dot (← r.float?)
    | _ => none
  else if tag = "rectangle" then
    match ← body.fields? ["width", "height"] with
    | [some w, some h] => return .rectangle (← w.float?) (← h.float?)
    | _ => none
  else none

def Style.toJson (s : Style) : Json :=
  .record
    [("color", .ofString s.color), ("shape", s.shape.toJson), ("anchor", s.anchor.toJson),
      ("max_connections", .ofOption .ofNat s.limit)]

/-- A missing limit is no limit. -/
def Style.ofJson? (room : Nat) (j : Json) : Option Style := do
  match ← j.fields? ["color", "shape", "anchor", "max_connections"] with
  | [some color, some shape, some anchor, limit] =>
    return {
      color := ← color.string?
      shape := ← Shape.ofJson? (room - 1) shape
      anchor := ← Anchor.ofJson? anchor
      limit := ← (limit.getD .null).nullable? Json.nat? }
  | _ => none

def Endpoint.toJson (e : Endpoint) : Json :=
  .record
    [("id", e.id.toJson), ("item", e.item.toJson), ("role", e.role.toJson),
      ("style", e.style.toJson)]

def Endpoint.ofJson? (room : Nat) (j : Json) : Option Endpoint := do
  match ← j.fields? ["id", "item", "role", "style"] with
  | [some id, some item, some role, some style] =>
    return {
      id := ← Uuid.ofJson? id
      item := ← ItemId.ofJson? item
      role := ← Role.ofJson? role
      style := ← Style.ofJson? (room - 1) style }
  | _ => none

namespace Wiring

/-- The value that means any number of connections. -/
def unlimited : Int := -1

def maxSigned : Nat := 0x7FFFFFFFFFFFFFFF

def limitOption : Option Nat → Int
  | none => unlimited
  | some n => min n maxSigned

def shapeOption : Shape → Json
  | .dot r => .array [.ofString "Dot", .record [("radius", .ofFloat r)]]
  | .rectangle w h =>
    .array [.ofString "Rectangle", .record [("width", .ofFloat w), ("height", .ofFloat h)]]

def endpointOptions (e : Endpoint) : Json :=
  .record
    [("uuid", e.id.toJson), ("anchor", e.style.anchor.toJson),
      ("endpoint", shapeOption e.style.shape),
      ("paintStyle", .record [("fill", .ofString e.style.color)]),
      ("isSource", .bool (e.role == .source)), ("isTarget", .bool (e.role == .target)),
      ("maxConnections", .ofInt (limitOption e.style.limit))]

end Wiring

end DiagramEditor
