import DiagramEditor.Board.Entries
/-!
Placing and removing items, attaching endpoints to them and connecting these.
-/
namespace DiagramEditor.Board

variable {σ : Type}

def newItem (settings : Settings) (id : ItemId) (kind : String) (p : Point) : Item where
  id := id
  kind := kind
  x := p.x
  y := p.y
  width := settings.itemWidth
  height := settings.itemHeight
  classes := [settings.itemClass]
  draggable := false
  endpoints := []

/-- Places a new item at a document index. An index past the end uses up no ordinal. -/
def insertItem (w : Surroundings σ) (index : Nat) (kind : String) (p : Point) (b : Board) (s : σ) :
    Outcome σ (Except Fault ItemId) :=
  if b.document.items.length < index then
    ⟨.error (.indexOutOfRange index b.document.items.length), b, s⟩
  else
    let (id, d) := b.document.mint
    match d.insert index (newItem b.settings id kind p) with
    | .error f => ⟨.error f, { b with document := d }, s⟩
    | .ok d =>
      ⟨.ok id, { b with document := d }, w.log (Entries.itemInserted id kind index p) s⟩

def appendItem (w : Surroundings σ) (kind : String) (p : Point) (b : Board) (s : σ) :
    Outcome σ ItemId :=
  let (id, d) := b.document.mint
  ⟨id, { b with document := d.push (newItem b.settings id kind p) },
    w.log (Entries.itemAppended id kind p) s⟩

/-- Removes an item with everything that the library holds for it. -/
def removeItem (w : Surroundings σ) (id : ItemId) (b : Board) (s : σ) :
    Outcome σ (Except Fault Item) :=
  match b.document.find? id with
  | none => ⟨.error (.unknownItem id), b, s⟩
  | some i =>
    match w.call (.removeElement id) s with
    | (.error f, s) => ⟨.error f, b, s⟩
    | (.ok (), s) =>
      ⟨.ok i, { b with document := b.document.remove id }, w.log (Entries.itemRemoved id) s⟩

def attach (w : Surroundings σ) (id : EndpointId) (item : ItemId) (role : Role) (b : Board)
    (s : σ) : Outcome σ (Except Fault EndpointId) :=
  match b.document.find? item with
  | none => ⟨.error (.unknownItem item), b, s⟩
  | some _ =>
    let e : Endpoint := ⟨id, item, role, b.settings.style role⟩
    match w.call (.addEndpoint e) s with
    | (.error f, s) => ⟨.error f, b, s⟩
    | (.ok (), s) =>
      let d := b.document.update item fun i => { i with endpoints := i.endpoints ++ [e] }
      ⟨.ok id, { b with document := d }, w.log (Entries.endpointAttached e) s⟩

def connect (w : Surroundings σ) (id : ConnectionId) (source target : EndpointId) (b : Board)
    (s : σ) : Outcome σ (Except Fault ConnectionId) :=
  match b.document.endpoint? source with
  | none => ⟨.error (.unknownEndpoint source), b, s⟩
  | some first =>
    match b.document.endpoint? target with
    | none => ⟨.error (.unknownEndpoint target), b, s⟩
    | some second =>
      if first.role ≠ .source ∨ second.role ≠ .target then
        ⟨.error (.roleMismatch first.role second.role), b, s⟩
      else
        match w.call (.connect id first second) s with
        | (.error f, s) => ⟨.error f, b, s⟩
        | (.ok (), s) =>
          ⟨.ok id, b, w.log (Entries.connectionRequested id first.item second.item) s⟩

end DiagramEditor.Board
