import DiagramEditor.Geometry
import DiagramEditor.Text.Basic
/-!
Snapshots of page elements: tag, id, classes, attributes, text and bounding box. A palette is read
once from page elements: the kind of a template is the first of the kind attribute, the id and the
text of its element that is not empty; its label is the text.
-/
namespace DiagramEditor

abbrev Attributes := List (String × String)

namespace Attributes

def get? (as : Attributes) (name : String) : Option String :=
  (as.find? fun a => a.1 == name).map (·.2)

/-- The last value set for a name counts. -/
def set (as : Attributes) (name value : String) : Attributes :=
  (as.filter fun a => a.1 != name) ++ [(name, value)]

end Attributes

structure Element where
  tag : String
  id : Option String := none
  classes : List String := []
  attributes : Attributes := []
  text : String := ""
  rect : Rect := .zero

namespace Element

/-- An element as a page reports it: the tag in lower case and the text trimmed. -/
def ofMarkup (tag : String) (id : Option String) (classes : List String)
    (attributes : List (String × String)) (text : String) (rect : Rect) : Element where
  tag := Text.asciiLower tag
  id := id
  classes := classes
  attributes := attributes.foldl (fun as (name, value) => as.set name value) []
  text := Text.trimmed text
  rect := rect

def attribute? (e : Element) (name : String) : Option String :=
  e.attributes.get? name

end Element

structure Template where
  kind : String
  label : String
  deriving DecidableEq, Repr

def Template.ofElement? (kindAttribute : String) (e : Element) : Option Template :=
  let candidates := (e.attribute? kindAttribute).toList ++ e.id.toList ++ [e.text]
  (candidates.find? fun kind => kind != "").map fun kind => ⟨kind, e.text⟩

structure Palette where
  templates : List Template
  selector : String
  canvasSelector : String
  deriving DecidableEq, Repr

def Palette.template? (p : Palette) (kind : String) : Option Template :=
  p.templates.find? fun t => t.kind == kind

end DiagramEditor
