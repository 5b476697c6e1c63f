import DiagramEditor.Browser.Account
import DiagramEditor.Browser.Adapter
import DiagramEditor.Desk
import DiagramEditor.Log.Console
/-!
The state of a browser tab around a board: the document, the drawing library with what has been
registered with it, the callbacks that scripts have registered, the variable that they share, the
console, and what has happened so far.
-/
namespace DiagramEditor.Browser

structure Tab where
  dom : Dom
  methods : Table String Method
  registry : Registry Value
  /-- In the order of the handles. -/
  listeners : Table Nat Listener
  nextHandle : Nat
  callbacks : List (Value → Program)
  ids : Nat
  memory : Value
  console : Log.Console
  trace : List Trace
  account : List Moment

abbrev Site := Desk Tab

/-- The program that a callback is, once it is called; one that is not there does nothing. -/
def bodyOf (callbacks : List (Value → Program)) (number : Nat) (event : Value) : Program :=
  callbacks[number]?.elim (.returns .undefined) (· event)

namespace Tab

def new (dom : Dom) (console : Log.Console) : Tab where
  dom := dom
  methods := []
  registry := .empty
  listeners := []
  nextHandle := 0
  callbacks := []
  ids := 0
  memory := .undefined
  console := console
  trace := []
  account := []

def add (t : Tab) (e : Trace) : Tab := { t with trace := t.trace ++ [e] }

def log (t : Tab) (e : Log.Entry) : Tab := { t with console := t.console.log e }

def tell (ms : List Moment) (t : Tab) : Tab := { t with account := t.account ++ ms }

def raise (e : Event) (t : Tab) : Tab :=
  t.tell [.borrows .queue, .raises e, .returns .queue]

/-- Of the notes of a board, log entries reach the console and events the queue. -/
def note : Note → Tab → Tab
  | .log e, t => t.log e
  | .placement .outbox p, t => t.raise (.placement p)
  | .move .outbox m, t => t.raise (.move m)
  | _, t => t

/-- Handles are numbers of 32 bits; of a larger number they are the lowest bits. -/
def handleBound : Nat := 0x100000000

def insertListener (handle : Nat) (l : Listener) : Table Nat Listener → Table Nat Listener
  | [] => [(handle, l)]
  | e :: rest =>
    if handle < e.1 then (handle, l) :: e :: rest
    else if handle = e.1 then (handle, l) :: rest
    else e :: insertListener handle l rest

def register (kind : EventKind) (c : Value → Program) (t : Tab) : Nat × Tab :=
  let handle := t.nextHandle
  let l : Listener := ⟨kind, t.callbacks.length⟩
  (handle,
    { t.tell [.borrows .listeners, .registers handle l c, .returns .listeners] with
      listeners := insertListener handle l t.listeners
      nextHandle := (handle + 1) % handleBound
      callbacks := t.callbacks ++ [c] })

def unregister (number : Nat) (t : Tab) : Bool × Tab :=
  let handle := number % handleBound
  let removed := (t.listeners.get? handle).map (Moment.removes handle)
  (t.listeners.has handle,
    { t.tell (.borrows .listeners :: removed.toList ++ [.returns .listeners]) with
      listeners := t.listeners.erase handle })

def define (name : String) (property : Method) (t : Tab) : Tab :=
  { t.tell [.defines name property] with methods := t.methods.set name property }

def audience (listeners : Table Nat Listener) (kind : EventKind) : List Nat :=
  (listeners.filter fun e => e.2.kind == kind).map (·.2.callback)

end Tab

end DiagramEditor.Browser
