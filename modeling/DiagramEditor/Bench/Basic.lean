import DiagramEditor.Desk
import DiagramEditor.Form.Settings
import DiagramEditor.Form.Item
import DiagramEditor.Wiring.Library
import DiagramEditor.Wiring.Memory
/-!
A bench on which a board runs without a browser: a page given by its elements, the library in memory
with failures to arm, made-up ids, and numbered listeners. The bench records every call that a board
makes and every note that it sends out during a step.
-/
namespace DiagramEditor

structure Bench.Record where
  calls : List Wiring.Call := []
  notes : List Note := []

structure Bench.Named where
  endpoints : List Uuid := []
  connections : List Uuid := []

structure Bench where
  page : List Element
  library : Wiring.Armed Wiring.Memory
  ids : Nat
  named : Bench.Named
  /-- The subscription of each listener, by the number of the listener. -/
  subscriptions : List Nat
  record : Bench.Record

namespace Bench

def empty : Bench := ⟨[], ⟨.empty, []⟩, 0, {}, [], {}⟩

def nextId (b : Bench) : Uuid := .ofCounter b.ids

def noteCall (c : Wiring.Call) (b : Bench) : Bench :=
  { b with record := { b.record with calls := b.record.calls ++ [c] } }

def note (n : Note) (b : Bench) : Bench :=
  { b with record := { b.record with notes := b.record.notes ++ [n] } }

def clearRecord (b : Bench) : Bench := { b with record := {} }

/-- Every call is recorded, also one that is made to fail. -/
def call : Wiring.Library Bench := fun c b =>
  let b := b.noteCall c
  let (answer, library) := Wiring.Armed.call Wiring.Memory.call c b.library
  (answer, { b with library := library })

def memory (b : Bench) : Wiring.Memory := b.library.inner

def surroundings : Surroundings (Desk Bench) where
  call c d :=
    let (answer, bench) := call c d.outside
    (answer, { d with outside := bench })
  note n d := d.note note n

def rendered (origin : Point) (i : Item) : Element :=
  .ofMarkup "div" (some i.id.text) i.classes [] ""
    ⟨origin.x + i.x, origin.y + i.y, i.width, i.height⟩

def renderedItems (b : Board) : List Element :=
  let origin := (b.surface.map fun s => s.bounds.origin).getD ⟨0, 0⟩
  b.document.items.map (rendered origin)

end Bench

inductive Bench.Query
  | item (id : ItemId)
  | indexOf (id : ItemId)
  | template (kind : String)
  | palette
  | canvas
  | settings
  | dump
  | library (items : List ItemId)

def Palette.summary (p : Palette) : Json :=
  .record
    [("templates", .ofList Template.toJson p.templates), ("selector", .ofString p.selector),
      ("canvas_selector", .ofString p.canvasSelector), ("len", .ofNat p.templates.length),
      ("empty", .bool p.templates.isEmpty)]

namespace Wiring.Memory

def connectionSummary (m : Memory) (c : Connection) : Json :=
  .array
    [.record [("id", c.id.toJson), ("from", c.source.toJson), ("to", c.target.toJson)],
      .ofNat (m.connectionCount c.source), .ofNat (m.connectionCount c.target)]

def itemSummary (m : Memory) (id : ItemId) : Json :=
  .array
    [id.toJson, .bool (m.draggables.has id), .ofOption Size.toJson (m.draggables.get? id),
      .ofOption Point.toJson (m.positions.get? id)]

def summary (m : Memory) (items : List ItemId) : Json :=
  .record
    [("container", .ofOption .ofString m.container), ("endpoints", .ofNat m.endpoints.length),
      ("connections", .ofList m.connectionSummary m.connections),
      ("items", .ofList m.itemSummary items)]

end Wiring.Memory

namespace Bench

def Query.answer (b : Board) (m : Wiring.Memory) : Query → Json
  | .item id => .ofOption Item.view (b.document.find? id)
  | .indexOf id => .ofOption .ofNat (b.document.indexOf? id)
  | .template kind => .ofOption Template.toJson (b.template? kind)
  | .palette => .ofOption Palette.summary b.palette
  | .canvas =>
    .record
      [("bounds", .ofOption (fun s : Surface => s.bounds.toJson) b.surface),
        ("selector", .ofOption (fun s : Surface => .ofString s.selector) b.surface)]
  | .settings => b.settings.toJson
  | .dump => .ofList Item.view b.document.items
  | .library items => m.summary items

end Bench

end DiagramEditor
