import DiagramEditor.Board.Entries
/-!
Drag gestures on a board. A drag of a template ends in a placement when it is released on the canvas
that the palette belongs to; a drag of an item moves it inside the canvas and ends in a move. A drag
that starts before the last one stopped abandons that one without its event.
-/
namespace DiagramEditor.Board

variable {σ : Type}

def publishPlacement (w : Surroundings σ) (b : Board) (p : Placement) (s : σ) : σ :=
  let audience := b.placements.audience
  audience.foldl (fun s who => w.note (.placement who p) s)
    (w.log (Entries.publishing audience.length) s)

def publishMove (w : Surroundings σ) (b : Board) (m : Move) (s : σ) : σ :=
  let audience := b.moves.audience
  audience.foldl (fun s who => w.note (.move who m) s)
    (w.log (Entries.publishing audience.length) s)

/-- Moves an item in the document and in the library. The gesture goes on when the library turns
the call down. -/
def place (w : Surroundings σ) (id : ItemId) (p : Point) (b : Board) (s : σ) : Board × σ :=
  let b := { b with document := b.document.setPosition id p }
  match w.call (.moveItem id p) s with
  | (.ok (), s) => (b, s)
  | (.error f, s) => (b, w.log (Entries.moveRefused id f) s)

/-- Where an item lies for a pointer that holds it at `grab`, kept inside the canvas. -/
def containedPosition? (b : Board) (id : ItemId) (page grab : Point) : Option Point :=
  match b.surface, b.document.find? id with
  | some surface, some i =>
    some (contain ((surface.bounds.toLocal page).sub grab) i.size surface.bounds.size)
  | _, _ => none

/-- Ends the gesture in progress without its event; a dragged item goes back to where it was. -/
def abandon (w : Surroundings σ) (b : Board) (s : σ) : Outcome σ (List Action) :=
  let idle := { b with gesture := .idle }
  match b.gesture with
  | .idle | .ignored => ⟨[], idle, s⟩
  | .template kind _ => ⟨[.removeHelper], idle, w.log (Entries.templateAbandoned kind) s⟩
  | .item id _ start =>
    let (b, s) := place w id start idle (w.log (Entries.itemAbandoned id) s)
    ⟨[.itemPositioned id start], b, s⟩

def noteStart (w : Surroundings σ) (b : Board) (t : Template) (s : σ) : σ :=
  match b.hooks with
  | none => s
  | some hooks => w.note (.dragStarted hooks t) s

def noteStop (w : Surroundings σ) (b : Board) (t : Template) (dropped : Bool) (s : σ) : σ :=
  match b.hooks with
  | none => s
  | some hooks => w.note (.dragStopped hooks t dropped) s

def ignoring (b : Board) : Board := { b with gesture := .ignored }

def startTemplate (w : Surroundings σ) (kind : String) (page : Point) (b : Board) (s : σ) :
    Outcome σ (List Action) :=
  match b.template? kind with
  | none => ⟨[], b.ignoring, w.log (Entries.unknownTemplate kind) s⟩
  | some t =>
    ⟨[.showHelper kind page], { b with gesture := .template kind page },
      w.log (Entries.templateStarted kind) (noteStart w b t s)⟩

def startItem (w : Surroundings σ) (id : ItemId) (page : Point) (b : Board) (s : σ) :
    Outcome σ (List Action) :=
  match b.surface with
  | none => ⟨[], b.ignoring, w.log (Entries.dragBeforeCanvas id) s⟩
  | some surface =>
    match b.document.find? id with
    | none => ⟨[], b.ignoring, w.log (Entries.unknownItem id) s⟩
    | some i =>
      if i.draggable then
        let grab := (surface.bounds.toLocal page).sub i.position
        ⟨[], { b with gesture := .item id grab i.position }, w.log (Entries.itemStarted id) s⟩
      else ⟨[], b.ignoring, w.log (Entries.itemNotDraggable id) s⟩

def startFresh (w : Surroundings σ) (source : DragSource) (page : Point) (b : Board) (s : σ) :
    Outcome σ (List Action) :=
  match source with
  | .template kind => startTemplate w kind page b s
  | .item id => startItem w id page b s
  | .foreign => ⟨[], b.ignoring, s⟩

def startDrag (w : Surroundings σ) (source : DragSource) (page : Point) (b : Board) (s : σ) :
    Outcome σ (List Action) :=
  let before := abandon w b s
  let after := startFresh w source page before.board before.outside
  { after with reply := before.reply ++ after.reply }

def moveDrag (w : Surroundings σ) (page : Point) (b : Board) (s : σ) : Outcome σ (List Action) :=
  match b.gesture with
  | .idle | .ignored => ⟨[], b, s⟩
  | .template kind _ => ⟨[.moveHelper page], { b with gesture := .template kind page }, s⟩
  | .item id grab _ =>
    match b.containedPosition? id page grab with
    | none => ⟨[], b.ignoring, w.log (Entries.itemGoneOnMove id) s⟩
    | some p =>
      let (b, s) := place w id p b s
      ⟨[.itemPositioned id p], b, s⟩

/-- Whether a palette, if there is one, belongs to another canvas. -/
def paletteOfOther (b : Board) (surface : Surface) : Bool :=
  b.palette.any fun p => p.canvasSelector != surface.selector

def dropTemplate (w : Surroundings σ) (kind : String) (page : Point) (b : Board) (s : σ) :
    Bool × σ :=
  match b.surface with
  | none => (false, w.log (Entries.releasedBeforeCanvas kind) s)
  | some surface =>
    if b.paletteOfOther surface then
      (false, w.log (Entries.releasedOverOther kind surface.selector) s)
    else if surface.bounds.contains page then
      let p := surface.bounds.toLocal page
      (true, publishPlacement w b ⟨kind, p⟩ (w.log (Entries.placementRequested kind p) s))
    else (false, w.log (Entries.releasedOutside kind) s)

def stopTemplate (w : Surroundings σ) (kind : String) (page : Point) (b : Board) (s : σ) :
    Outcome σ (List Action) :=
  let (dropped, s) := dropTemplate w kind page b s
  let s :=
    match b.template? kind with
    | none => s
    | some t => noteStop w b t dropped s
  ⟨[.removeHelper], b, s⟩

def stopItem (w : Surroundings σ) (id : ItemId) (grab start page : Point) (b : Board) (s : σ) :
    Outcome σ (List Action) :=
  match b.containedPosition? id page grab, b.document.indexOf? id with
  | some p, some index =>
    let (b, s) := place w id p b s
    let s := w.log (Entries.itemFinished id index start p) s
    ⟨[.itemPositioned id p], b, publishMove w b ⟨index, id, p⟩ s⟩
  | _, _ => ⟨[], b, w.log (Entries.itemGoneOnStop id) s⟩

def stopDrag (w : Surroundings σ) (page : Point) (b : Board) (s : σ) : Outcome σ (List Action) :=
  let idle := { b with gesture := .idle }
  match b.gesture with
  | .idle => ⟨[], idle, w.log Entries.strayStop s⟩
  | .ignored => ⟨[], idle, s⟩
  | .template kind _ => stopTemplate w kind page idle s
  | .item id grab start => stopItem w id grab start page idle s

end DiagramEditor.Board
