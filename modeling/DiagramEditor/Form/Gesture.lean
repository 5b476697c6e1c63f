import DiagramEditor.Form.Item
import DiagramEditor.Gesture
/-!
The JSON form of drag sources, actions and events.
-/
namespace DiagramEditor

def DragSource.toJson : DragSource → Json
  | .template kind => .record [("type", .ofString "template"), ("kind", .ofString kind)]
  | .item id => .record [("type", .ofString "item"), ("id", id.toJson)]
  | .foreign => .record [("type", .ofString "foreign")]

def DragSource.ofJson? (room : Nat) (j : Json) : Option DragSource := do
  let (tag, body) ← j.tagged? room
  if tag = "template" then
    match ← body.fields? ["kind"] with
    | [some kind] => return .template (← kind.string?)
    | _ => none
  else if tag = "item" then
    match ← body.fields? ["id"] with
    | [some id] => return .item (← ItemId.ofJson? id)
    | _ => none
  else if tag = "foreign" then
    match body with
    | .array (_ :: _) => none
    | _ => return .foreign
  else none

def Action.toJson : Action → Json
  | .showHelper kind p =>
    .record
      [("type", .ofString "show_helper"), ("kind", .ofString kind), ("x", .ofFloat p.x),
        ("y", .ofFloat p.y)]
  | .moveHelper p =>
    .record [("type", .ofString "move_helper"), ("x", .ofFloat p.x), ("y", .ofFloat p.y)]
  | .removeHelper => .record [("type", .ofString "remove_helper")]
  | .itemPositioned id p =>
    .record
      [("type", .ofString "item_positioned"), ("id", id.toJson), ("x", .ofFloat p.x),
        ("y", .ofFloat p.y)]

def Placement.toJson (p : Placement) : Json :=
  .record
    [("kind", .ofString p.kind), ("x", .ofFloat p.position.x), ("y", .ofFloat p.position.y)]

def Move.toJson (m : Move) : Json :=
  .record
    [("index", .ofNat m.index), ("id", m.id.toJson), ("x", .ofFloat m.position.x),
      ("y", .ofFloat m.position.y)]

def Event.toJson : Event → Json
  | .placement p => p.toJson
  | .move m => m.toJson

end DiagramEditor
