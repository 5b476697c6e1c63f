import DiagramEditor.Board.Drag
import DiagramEditor.Board.Items
import DiagramEditor.Board.Setup
/-!
The operations of a board as data, and what each answers. Ids of endpoints and connections come from
outside, so that a run fixes whether they repeat.
-/
namespace DiagramEditor.Board

inductive Op
  | initPalette (page : Page) (selector canvasSelector : String)
  | initCanvas (page : Page) (selector : String)
  | enable (page : Page) (selector : String)
  | setBounds (bounds : Rect)
  | append (kind : String) (position : Point)
  | insert (index : Nat) (kind : String) (position : Point)
  | remove (id : ItemId)
  | attach (id : EndpointId) (item : ItemId) (role : Role)
  | connect (id : ConnectionId) (source target : EndpointId)
  | start (source : DragSource) (page : Point)
  | move (page : Point)
  | stop (page : Point)
  | onPlacement (who : Subscriber)
  | onMove (who : Subscriber)
  | offPlacement (id : Nat)
  | offMove (id : Nat)
  | setHooks (tag : String)

inductive Reply
  | done
  | refused (f : Fault)
  | palette (p : Palette)
  | bounds (r : Rect)
  | count (n : Nat)
  | placed (id : ItemId)
  | removed (i : Item)
  | named (id : Uuid)
  | actions (as : List Action)
  | subscribed (id : Nat)
  | unsubscribed (wasLive : Bool)

variable {σ : Type}

def Reply.ofExcept (ok : α → Reply) : Except Fault α → Reply
  | .error f => .refused f
  | .ok a => ok a

def answer (reply : α → Reply) (o : Outcome σ α) : Outcome σ Reply :=
  ⟨reply o.reply, o.board, o.outside⟩

def step (w : Surroundings σ) : Op → Board → σ → Outcome σ Reply
  | .initPalette page selector canvas, b, s =>
    answer (.ofExcept .palette) (initPalette w page selector canvas b s)
  | .initCanvas page selector, b, s => answer (.ofExcept .bounds) (initCanvas w page selector b s)
  | .enable page selector, b, s => answer (.ofExcept .count) (enableDragging w page selector b s)
  | .setBounds r, b, s => answer (.ofExcept fun _ => .done) (setBounds w r b s)
  | .append kind p, b, s => answer .placed (appendItem w kind p b s)
  | .insert i kind p, b, s => answer (.ofExcept .placed) (insertItem w i kind p b s)
  | .remove id, b, s => answer (.ofExcept .removed) (removeItem w id b s)
  | .attach id item role, b, s => answer (.ofExcept .named) (attach w id item role b s)
  | .connect id source target, b, s =>
    answer (.ofExcept .named) (connect w id source target b s)
  | .start source p, b, s => answer .actions (startDrag w source p b s)
  | .move p, b, s => answer .actions (moveDrag w p b s)
  | .stop p, b, s => answer .actions (stopDrag w p b s)
  | .onPlacement who, b, s =>
    let (id, bus) := b.placements.subscribe who
    ⟨.subscribed id, { b with placements := bus }, s⟩
  | .onMove who, b, s =>
    let (id, bus) := b.moves.subscribe who
    ⟨.subscribed id, { b with moves := bus }, s⟩
  | .offPlacement id, b, s =>
    let (wasLive, bus) := b.placements.unsubscribe id
    ⟨.unsubscribed wasLive, { b with placements := bus }, s⟩
  | .offMove id, b, s =>
    let (wasLive, bus) := b.moves.unsubscribe id
    ⟨.unsubscribed wasLive, { b with moves := bus }, s⟩
  | .setHooks tag, b, s => ⟨.done, { b with hooks := some tag }, s⟩

end DiagramEditor.Board
