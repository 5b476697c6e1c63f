import DiagramEditor.Bench.Basic
import DiagramEditor.Fault
/-!
What may be done at a bench. Tasks for the board are done by whoever uses the board; tasks for the
desk take the board, ask for the waiting events, or hand them out. The texts of a connection may
depend on the ids that were given before. Events are handed out to a
reaction, a list of tasks of its own that may hand out events again. A reaction is paid from a
budget: each event that it is run for takes one, and no reaction runs on an empty budget.
-/
namespace DiagramEditor

mutual

inductive Bench.Task
  | page (elements : List Element) (render : Bool)
  | initPalette (selector canvasSelector : String)
  | initCanvas (selector : String)
  | enable (selector : String)
  | setBounds (bounds : Rect)
  | append (kind : String) (position : Point)
  | insert (index : Nat) (kind : String) (position : Point)
  | remove (id : ItemId)
  | attach (item : ItemId) (role : Role)
  | connect (source target : Bench.Named → String)
  | start (source : DragSource) (page : Point)
  | move (page : Point)
  | stop (page : Point)
  | subscribe (toPlacements : Bool)
  | unsubscribe (fromPlacements : Bool) (listener : Nat)
  | setHooks (tag : String)
  | arm (failure : Wiring.Arm)
  | ask (query : Bench.Query)
  | desk (task : Desk.Task)
  | nothing

inductive Desk.Task
  | use (tasks : List Bench.Task)
  | pending
  /-- Hands out the waiting events to no one in particular. -/
  | handOut
  /-- Hands out events to a reaction with a budget of its own, or with the one around it. -/
  | handOutTo (reaction : List Desk.Task) (budget : Option Nat)
  | appendEvent
  | nothing

end

instance : Inhabited Bench.Task := ⟨.nothing⟩

instance : Inhabited Desk.Task := ⟨.nothing⟩

mutual

inductive Bench.Reply
  | nothing
  | board (r : Board.Reply)
  | answer (j : Json)
  | refused (r : Refusal)
  | desk (r : Desk.Reply)

inductive Bench.Entry
  | mk (reply : Bench.Reply) (record : Bench.Record) (after : Board)

inductive Desk.Reply
  | nothing
  | refused (r : Refusal)
  | count (n : Nat)
  | entries (es : List Bench.Entry)
  | placed (id : ItemId)
  | handed (ds : List Desk.Delivery)

/-- An event handed out, the number of events that wait after the reaction, and its replies. -/
inductive Desk.Delivery
  | mk (event : Event) (pending : Nat) (replies : List Desk.Reply)

end

end DiagramEditor
