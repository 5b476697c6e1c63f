import DiagramEditor.Browser.Value
import DiagramEditor.Selector
/-!
The document of a page: its nodes, the scroll offset, and what its selectors find. Element snapshots
are taken in page coordinates, which are viewport coordinates with the scroll offset added.
-/
namespace DiagramEditor.Browser

inductive NodeKind
  | text
  | element
  | styled
  deriving DecidableEq, Repr

structure Node where
  kind : NodeKind
  tag : String
  id : String
  classes : List String
  /-- An attribute may be listed although reading it gives nothing. -/
  attributes : List (String × Option String)
  text : Option String
  box : Rect
  styleThrows : Option Value

def Node.attribute? (n : Node) (name : String) : Option String :=
  (n.attributes.find? fun a => a.1 == name).bind (·.2)

structure Dom where
  hasWindow : Bool
  hasDocument : Bool
  /-- Absent where reading the offset throws. -/
  scrollX : Option Float
  scrollY : Option Float
  nodes : List Node
  selections : List (String × Option (List Nat))

namespace Dom

def empty : Dom := ⟨true, true, some 0, some 0, [], []⟩

def snapshot (d : Dom) (n : Node) : Element :=
  .ofMarkup n.tag (if n.id = "" then none else some n.id) n.classes
    (n.attributes.filterMap fun (name, _) => (n.attribute? name).map fun v => (name, v))
    (n.text.getD "")
    ⟨n.box.x + d.scrollX.getD 0, n.box.y + d.scrollY.getD 0, n.box.width, n.box.height⟩

/-- Selectors that nothing is known of find nothing. -/
def page (d : Dom) : Page := fun selector =>
  match d.selections.find? fun s => s.1 == selector with
  | none => .ok []
  | some (_, none) => .error (.invalidSelector selector)
  | some (_, some indexes) =>
    .ok ((indexes.filterMap fun i => d.nodes[i]?).filter (fun n => n.kind != .text)
      |>.map d.snapshot)

def elementById? (d : Dom) (id : String) : Option Node :=
  if id = "" then none else d.nodes.find? fun n => n.kind != .text && n.id == id

end Dom

end DiagramEditor.Browser
