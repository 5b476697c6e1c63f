import DiagramEditor.Bus
import DiagramEditor.Document
import DiagramEditor.Gesture
import DiagramEditor.Log.Entry
import DiagramEditor.Element
import DiagramEditor.Wiring.Library
/-!
The board: settings, palette, canvas, document, the gesture in progress and the subscribers to its
events. A board works on what surrounds it only through the calls it makes to the connection library
and the notes it sends out: log entries, events for subscribers, and calls of its drag hooks.
-/
namespace DiagramEditor

inductive Subscriber
  /-- The queue of events that wait for the page. -/
  | outbox
  | listener (number : Nat)
  deriving DecidableEq, Repr

inductive Note
  | log (e : Log.Entry)
  | placement (who : Subscriber) (p : Placement)
  | move (who : Subscriber) (m : Move)
  | dragStarted (hooks : String) (t : Template)
  | dragStopped (hooks : String) (t : Template) (dropped : Bool)

/-- What a board reaches outside itself, as functions on a state of their own. -/
structure Surroundings (σ : Type) where
  call : Wiring.Library σ
  note : Note → σ → σ

def Surroundings.log {σ : Type} (w : Surroundings σ) (e : Log.Entry) (s : σ) : σ :=
  w.note (.log e) s

structure Surface where
  selector : String
  bounds : Rect

structure Board where
  settings : Settings
  palette : Option Palette
  surface : Option Surface
  document : Document
  gesture : Gesture
  hooks : Option String
  placements : Bus Subscriber
  moves : Bus Subscriber

structure Outcome (σ α : Type) where
  reply : α
  board : Board
  outside : σ

namespace Board

def new (settings : Settings) : Except Fault Board :=
  match settings.problem? with
  | some p => .error (.invalidSettings p)
  | none =>
    .ok
      { settings := settings
        palette := none
        surface := none
        document := .empty settings.idPrefix
        gesture := .idle
        hooks := none
        placements := .empty
        moves := .empty }

def isDragging (b : Board) : Bool := b.gesture.isActive

def template? (b : Board) (kind : String) : Option Template :=
  b.palette.bind fun p => p.template? kind

end Board

end DiagramEditor
