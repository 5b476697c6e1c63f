import DiagramEditor.Fault
import DiagramEditor.Geometry
import DiagramEditor.Json.Decode
/-!
The JSON form of points, sizes and rectangles, and that of faults and refusals: the kind, and the
message where there is one.
-/
namespace DiagramEditor

def Point.toJson (p : Point) : Json :=
  .record [("x", .ofFloat p.x), ("y", .ofFloat p.y)]

def Size.toJson (s : Size) : Json :=
  .record [("width", .ofFloat s.width), ("height", .ofFloat s.height)]

def Rect.toJson (r : Rect) : Json :=
  .record
    [("x", .ofFloat r.x), ("y", .ofFloat r.y), ("width", .ofFloat r.width),
      ("height", .ofFloat r.height)]

def Point.ofJson? (j : Json) : Option Point := do
  match ← j.fields? ["x", "y"] with
  | [some x, some y] => return ⟨← x.float?, ← y.float?⟩
  | _ => none

def Size.ofJson? (j : Json) : Option Size := do
  match ← j.fields? ["width", "height"] with
  | [some w, some h] => return ⟨← w.float?, ← h.float?⟩
  | _ => none

def Rect.ofJson? (j : Json) : Option Rect := do
  match ← j.fields? ["x", "y", "width", "height"] with
  | [some x, some y, some w, some h] =>
    return ⟨← x.float?, ← y.float?, ← w.float?, ← h.float?⟩
  | _ => none

def errorReport (kind : String) (message? : Option String) : Json :=
  .record (("error", .ofString kind) :: (message?.toList.map fun m => ("message", .ofString m)))

def Fault.toJson (f : Fault) : Json :=
  errorReport f.kind f.message?

def Refusal.toJson (r : Refusal) : Json :=
  errorReport r.kind r.message?

def answerOr (encode : α → Json) : Except Fault α → Json
  | .error f => f.toJson
  | .ok a => encode a

end DiagramEditor
