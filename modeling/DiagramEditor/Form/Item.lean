import DiagramEditor.Document
import DiagramEditor.Element
import DiagramEditor.Form.Basic
import DiagramEditor.Form.Endpoint
/-!
The JSON form of items and templates.
-/
namespace DiagramEditor

def Stage.text : Stage → String
  | .placed => "placed"
  | .draggable => "draggable"
  | .endpointed => "endpointed"

def Item.toJson (i : Item) : Json :=
  .record
    [("id", i.id.toJson), ("kind", .ofString i.kind), ("x", .ofFloat i.x), ("y", .ofFloat i.y),
      ("width", .ofFloat i.width), ("height", .ofFloat i.height),
      ("classes", .ofList .ofString i.classes), ("draggable", .bool i.draggable),
      ("endpoints", .ofList Endpoint.toJson i.endpoints)]

def Item.ofJson? (room : Nat) (j : Json) : Option Item := do
  match ← j.fields?
      ["id", "kind", "x", "y", "width", "height", "classes", "draggable", "endpoints"] with
  | [some id, some kind, some x, some y, some w, some h, some classes, some draggable,
      some endpoints] =>
    return {
      id := ← ItemId.ofJson? id
      kind := ← kind.string?
      x := ← x.float?
      y := ← y.float?
      width := ← w.float?
      height := ← h.float?
      classes := ← classes.list? Json.string?
      draggable := ← draggable.bool?
      endpoints := ← endpoints.list? (Endpoint.ofJson? (room - 2)) }
  | _ => none

def Item.view (i : Item) : Json :=
  .record
    [("item", i.toJson), ("state", .ofString i.stage.text), ("source", .bool (i.has .source)),
      ("target", .bool (i.has .target)), ("position", i.position.toJson), ("size", i.size.toJson)]

def Template.toJson (t : Template) : Json :=
  .record [("kind", .ofString t.kind), ("label", .ofString t.label)]

def Template.ofJson? (j : Json) : Option Template := do
  match ← j.fields? ["kind", "label"] with
  | [some kind, some label] => return ⟨← kind.string?, ← label.string?⟩
  | _ => none

end DiagramEditor
