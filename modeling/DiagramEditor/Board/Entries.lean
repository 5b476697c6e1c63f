import DiagramEditor.Board.Basic
import DiagramEditor.Text.Quoted
/-!
The entries that a board writes to the log.
-/
namespace DiagramEditor.Board.Entries

open Log (Entry)

def templateWithoutKind (tag : String) : Entry :=
  ⟨.warn, "palette element has no kind; skipped", [("tag", .shown tag)]⟩

def paletteInitialized (count : Nat) (selector : String) : Entry :=
  ⟨.info, "palette initialized", [("count", .count count), ("selector", .quoted selector)]⟩

def canvasInitialized (selector : String) (r : Rect) (endpoints : Nat) : Entry :=
  ⟨.info, "canvas initialized",
    [("selector", .quoted selector), ("x", .real r.x), ("y", .real r.y), ("width", .real r.width),
      ("height", .real r.height), ("endpoints", .count endpoints)]⟩

def elementSkipped (tag : String) (id : Option String) : Entry :=
  ⟨.debug, "matched element is not a canvas item; skipped",
    [("tag", .shown tag), ("id", .shown (Text.quotedOption id))]⟩

def itemsEnabled (count : Nat) (selector : String) : Entry :=
  ⟨.debug, "items made draggable", [("count", .count count), ("selector", .quoted selector)]⟩

def boundsUpdated (r : Rect) : Entry :=
  ⟨.debug, "canvas bounds updated", [("width", .real r.width), ("height", .real r.height)]⟩

def itemInserted (id : ItemId) (kind : String) (index : Nat) (p : Point) : Entry :=
  ⟨.info, "item placed",
    [("id", .shown id.text), ("kind", .quoted kind), ("index", .count index), ("x", .real p.x),
      ("y", .real p.y)]⟩

def itemAppended (id : ItemId) (kind : String) (p : Point) : Entry :=
  ⟨.info, "item placed",
    [("id", .shown id.text), ("kind", .quoted kind), ("x", .real p.x), ("y", .real p.y)]⟩

def itemRemoved (id : ItemId) : Entry :=
  ⟨.info, "item removed", [("id", .shown id.text)]⟩

def endpointAttached (e : Endpoint) : Entry :=
  ⟨.debug, "endpoint attached",
    [("item", .shown e.item.text), ("endpoint", .shown e.id.text), ("role", .shown e.role.text)]⟩

def connectionRequested (id : ConnectionId) (source target : ItemId) : Entry :=
  ⟨.debug, "connection requested",
    [("connection", .shown id.text), ("from", .shown source.text), ("to", .shown target.text)]⟩

def publishing (subscribers : Nat) : Entry :=
  ⟨.trace, "publishing event", [("subscribers", .count subscribers)]⟩

def unknownTemplate (kind : String) : Entry :=
  ⟨.warn, "drag started on unknown palette template; ignored", [("kind", .shown kind)]⟩

def templateStarted (kind : String) : Entry :=
  ⟨.debug, "template drag started", [("kind", .shown kind)]⟩

def dragBeforeCanvas (id : ItemId) : Entry :=
  ⟨.warn, "item drag before canvas initialization; ignored", [("id", .shown id.text)]⟩

def unknownItem (id : ItemId) : Entry :=
  ⟨.warn, "drag started on unknown item; ignored", [("id", .shown id.text)]⟩

def itemNotDraggable (id : ItemId) : Entry :=
  ⟨.debug, "item is not draggable; ignored", [("id", .shown id.text)]⟩

def itemStarted (id : ItemId) : Entry :=
  ⟨.debug, "item drag started", [("id", .shown id.text)]⟩

def itemGoneOnMove (id : ItemId) : Entry :=
  ⟨.warn, "dragged item no longer exists; gesture ignored", [("id", .shown id.text)]⟩

def itemGoneOnStop (id : ItemId) : Entry :=
  ⟨.warn, "drag stopped on an item that no longer exists; ignored", [("id", .shown id.text)]⟩

def strayStop : Entry :=
  ⟨.debug, "drag stop without a gesture; ignored", []⟩

def itemFinished (id : ItemId) (index : Nat) (start p : Point) : Entry :=
  ⟨.debug, "item drag finished",
    [("id", .shown id.text), ("index", .count index), ("orig_x", .real start.x),
      ("orig_y", .real start.y), ("x", .real p.x), ("y", .real p.y)]⟩

def releasedBeforeCanvas (kind : String) : Entry :=
  ⟨.warn, "template released before canvas initialization; no drop", [("kind", .quoted kind)]⟩

def releasedOverOther (kind canvas : String) : Entry :=
  ⟨.warn, "template released over a canvas it was not registered for; no drop",
    [("kind", .quoted kind), ("canvas", .shown canvas)]⟩

def releasedOutside (kind : String) : Entry :=
  ⟨.debug, "template released outside the canvas; no drop", [("kind", .quoted kind)]⟩

def placementRequested (kind : String) (p : Point) : Entry :=
  ⟨.info, "placement requested",
    [("kind", .quoted kind), ("x", .real p.x), ("y", .real p.y)]⟩

def moveRefused (id : ItemId) (f : Fault) : Entry :=
  ⟨.warn, "connection library failed to move item",
    [("id", .shown id.text), ("err", .shown f.message)]⟩

def templateAbandoned (kind : String) : Entry :=
  ⟨.warn, "new drag started before the previous one stopped", [("kind", .shown kind)]⟩

def itemAbandoned (id : ItemId) : Entry :=
  ⟨.warn, "new drag started before the previous one stopped", [("id", .shown id.text)]⟩

end DiagramEditor.Board.Entries
