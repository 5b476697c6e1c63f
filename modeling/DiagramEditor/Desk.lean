import DiagramEditor.Board.Step
/-!
A board shared by callers that may call each other. While one of them uses the board every other one
is refused it. Events that the board raises wait in a queue until the board is free and someone asks
for them.
-/
namespace DiagramEditor

structure Desk (σ : Type) where
  board : Board
  /-- Someone uses the board; it comes back with what he did. -/
  busy : Bool
  outbox : List Event
  outside : σ

namespace Desk

variable {σ : Type}

/-- Puts a board on a desk and subscribes the queue to its events. -/
def place (b : Board) (outside : σ) : Desk σ where
  board :=
    { b with
      placements := (b.placements.subscribe .outbox).2
      moves := (b.moves.subscribe .outbox).2 }
  busy := false
  outbox := []
  outside := outside

def bare (b : Board) (outside : σ) : Desk σ := ⟨b, false, [], outside⟩

def use (f : Board → Desk σ → Outcome (Desk σ) α) (d : Desk σ) : Option α × Desk σ :=
  if d.busy then (none, d)
  else
    let o := f d.board { d with busy := true }
    (some o.reply, { o.outside with board := o.board, busy := false })

def push (d : Desk σ) (e : Event) : Desk σ :=
  { d with outbox := d.outbox ++ [e] }

def pop? (d : Desk σ) : Option (Event × Desk σ) :=
  match d.outbox with
  | [] => none
  | e :: rest => some (e, { d with outbox := rest })

def onOutside (f : σ → σ) (d : Desk σ) : Desk σ :=
  { d with outside := f d.outside }

/-- Events for the queue are put into it; every note goes on to what is outside. -/
def note (outside : Note → σ → σ) (n : Note) (d : Desk σ) : Desk σ :=
  let d := d.onOutside (outside n)
  match n with
  | .placement .outbox p => d.push (.placement p)
  | .move .outbox m => d.push (.move m)
  | _ => d

end Desk

end DiagramEditor
