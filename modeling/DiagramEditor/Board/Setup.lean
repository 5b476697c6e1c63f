import DiagramEditor.Board.Entries
import DiagramEditor.Selector
/-!
Setting a board up on a page: reading the palette, registering the canvas, and making the items that
the page shows draggable.
-/
namespace DiagramEditor.Board

variable {σ : Type}

def noteSkipped (w : Surroundings σ) (kindAttribute : String) (elements : List Element) (s : σ) :
    σ :=
  elements.foldl (fun s e =>
    if (Template.ofElement? kindAttribute e).isSome then s
    else w.log (Entries.templateWithoutKind e.tag) s) s

def initPalette (w : Surroundings σ) (page : Page) (selector canvasSelector : String) (b : Board)
    (s : σ) : Outcome σ (Except Fault Palette) :=
  match page selector with
  | .error f => ⟨.error f, b, s⟩
  | .ok [] => ⟨.error (.missingElement selector), b, s⟩
  | .ok elements =>
    match page canvasSelector with
    | .error f => ⟨.error f, b, s⟩
    | .ok [] => ⟨.error (.missingElement canvasSelector), b, s⟩
    | .ok _ =>
      let templates := elements.filterMap (Template.ofElement? b.settings.kindAttribute)
      let palette : Palette := ⟨templates, selector, canvasSelector⟩
      let s := noteSkipped w b.settings.kindAttribute elements s
      let s := w.log (Entries.paletteInitialized templates.length selector) s
      ⟨.ok palette, { b with palette := some palette }, s⟩

/-- The calls that register an item with a library that does not know it. -/
def registration (box : Size) (i : Item) : List Wiring.Call :=
  (if i.draggable then [.makeDraggable i.id box, .moveItem i.id i.position] else [])
    ++ i.endpoints.map .addEndpoint

def canvasCalls (container : Element) (d : Document) : List Wiring.Call :=
  .setContainer container :: d.items.flatMap (registration container.rect.size)

/-- Registers the first element of a selector as the canvas. A library forgets everything with its
container, so items that were draggable and their endpoints are registered again. -/
def initCanvas (w : Surroundings σ) (page : Page) (selector : String) (b : Board) (s : σ) :
    Outcome σ (Except Fault Rect) :=
  match page selector with
  | .error f => ⟨.error f, b, s⟩
  | .ok [] => ⟨.error (.missingElement selector), b, s⟩
  | .ok (container :: _) =>
    match Wiring.Library.callAll w.call (canvasCalls container b.document) s with
    | (.error f, s) => ⟨.error f, b, s⟩
    | (.ok (), s) =>
      let endpoints := (b.document.items.flatMap (·.endpoints)).length
      let s := w.log (Entries.canvasInitialized selector container.rect endpoints) s
      ⟨.ok container.rect, { b with surface := some ⟨selector, container.rect⟩ }, s⟩

/-- The item with the size of the element that shows it, if that has an extent on both axes. -/
def measured (r : Rect) (i : Item) : Item :=
  if 0 < r.width && 0 < r.height then { i with width := r.width, height := r.height } else i

def enableAll (w : Surroundings σ) (box : Size) : Nat → List Element → Document → σ →
    Except Fault Nat × Document × σ
  | count, [], d, s => (.ok count, d, s)
  | count, e :: rest, d, s =>
    match e.id.bind fun id => d.find? ⟨id⟩ with
    | none => enableAll w box count rest d (w.log (Entries.elementSkipped e.tag e.id) s)
    | some i =>
      let d := d.update i.id (measured e.rect)
      match w.call (.makeDraggable i.id box) s with
      | (.error f, s) => (.error f, d, s)
      | (.ok (), s) =>
        enableAll w box (count + 1) rest (d.update i.id fun i => { i with draggable := true }) s

def enableDragging (w : Surroundings σ) (page : Page) (selector : String) (b : Board) (s : σ) :
    Outcome σ (Except Fault Nat) :=
  match b.surface with
  | none => ⟨.error .canvasNotInitialized, b, s⟩
  | some surface =>
    match page selector with
    | .error f => ⟨.error f, b, s⟩
    | .ok elements =>
      match enableAll w surface.bounds.size 0 elements b.document s with
      | (.error f, d, s) => ⟨.error f, { b with document := d }, s⟩
      | (.ok count, d, s) =>
        ⟨.ok count, { b with document := d }, w.log (Entries.itemsEnabled count selector) s⟩

/-- Takes over new bounds of the canvas and tells the library, item by item. -/
def setBounds (w : Surroundings σ) (bounds : Rect) (b : Board) (s : σ) :
    Outcome σ (Except Fault Unit) :=
  match b.surface with
  | none => ⟨.error .canvasNotInitialized, b, s⟩
  | some surface =>
    let b := { b with surface := some { surface with bounds := bounds } }
    let calls := (b.document.items.filter (·.draggable)).map fun i =>
      Wiring.Call.makeDraggable i.id bounds.size
    match Wiring.Library.callAll w.call calls s with
    | (.error f, s) => ⟨.error f, b, s⟩
    | (.ok (), s) => ⟨.ok (), b, w.log (Entries.boundsUpdated bounds) s⟩

end DiagramEditor.Board
