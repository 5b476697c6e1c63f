import DiagramEditor.Fault
import DiagramEditor.Form.Endpoint
import DiagramEditor.Json.Reader
/-!
The JSON form of settings. Every field has a default, and settings that are read are checked.
-/
namespace DiagramEditor.Settings

def toJson (s : Settings) : Json :=
  .record
    [("item_class", .ofString s.itemClass), ("item_id_prefix", .ofString s.idPrefix),
      ("item_width", .ofFloat s.itemWidth), ("item_height", .ofFloat s.itemHeight),
      ("palette_kind_attr", .ofString s.kindAttribute),
      ("source_endpoint", s.sourceStyle.toJson), ("target_endpoint", s.targetStyle.toJson),
      ("log_level", .ofString s.logLevel)]

def orDefault (decode : Json → Option α) (default : α) : Option Json → Option α
  | none => some default
  | some j => decode j

def ofJson? (room : Nat) (j : Json) : Option Settings := do
  let defaults : Settings := {}
  match ← j.fields?
      ["item_class", "item_id_prefix", "item_width", "item_height", "palette_kind_attr",
        "source_endpoint", "target_endpoint", "log_level"] with
  | [itemClass, idPrefix, width, height, kindAttribute, source, target, level] =>
    return {
      itemClass := ← orDefault Json.string? defaults.itemClass itemClass
      idPrefix := ← orDefault Json.string? defaults.idPrefix idPrefix
      itemWidth := ← orDefault Json.float? defaults.itemWidth width
      itemHeight := ← orDefault Json.float? defaults.itemHeight height
      kindAttribute := ← orDefault Json.string? defaults.kindAttribute kindAttribute
      sourceStyle := ← orDefault (Style.ofJson? (room - 1)) defaults.sourceStyle source
      targetStyle := ← orDefault (Style.ofJson? (room - 1)) defaults.targetStyle target
      logLevel := ← orDefault Json.string? defaults.logLevel level }
  | _ => none

def validate (s : Settings) : Except Fault Settings :=
  match s.problem? with
  | some p => .error (.invalidSettings p)
  | none => .ok s

def read (raw : String) : Except Fault Settings :=
  match (Json.read? raw).bind (ofJson? Json.maxDepth) with
  | none => .error .unreadableSettings
  | some s => s.validate

end DiagramEditor.Settings
