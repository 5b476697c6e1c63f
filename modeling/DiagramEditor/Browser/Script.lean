import DiagramEditor.Browser.Dom
import DiagramEditor.Gesture
import DiagramEditor.Log.Entry
/-!
Scripts of a page. A script is a program that calls operations: those that a board offers to the
page, and what other code of the page does to the document, to the drawing library, to the log and
to a variable that all scripts share. What it calls next may depend on every answer so far, and it
may stop after any of them, with a value that it returns or one that it throws. A callback is a
program for the event that it is called with, a function of the drawing library one for its
arguments.
-/
namespace DiagramEditor.Browser

abbrev Answer := Except Refusal Value

inductive EventKind
  | placement
  | move
  deriving DecidableEq, Repr

def EventKind.of : Event → EventKind
  | .placement _ => .placement
  | .move _ => .move

mutual

inductive Op
  | initPalette (selector canvasSelector : String)
  | initCanvas (selector : String)
  | refreshCanvas
  | enableItemDragging (selector : String)
  | appendItem (kind : String) (position : Point)
  | insertItem (index : Nat) (kind : String) (position : Point)
  | removeItem (id : String)
  | items
  | addEndpoint (role : Role) (id : String)
  | connect (source target : String)
  | dragTemplate (kind : String) (page : Point)
  | dragItem (id : String) (page : Point)
  | dragForeign (page : Point)
  | dragMove (page : Point)
  | dragStop (page : Point)
  | isDragging
  | on (kind : EventKind) (callback : Value → Program)
  | off (handle : Nat)
  | setDom (dom : Dom)
  | define (name : String) (property : Method)
  | log (level : Log.Level) (text : String)
  -- a script shows what it was answered, and reads and writes the variable that scripts share
  | report (name : String) (answer : Answer)
  | retrieve
  | remember (v : Value)

inductive Program
  | returns (v : Value)
  | throws (v : Value)
  | call (op : Op) (next : Answer → Program)

/-- What a property of the drawing library is. -/
inductive Method
  | notCallable
  | unreadable (thrown : Value)
  | function (body : List Value → Program)

end

instance : Inhabited Program := ⟨.returns .undefined⟩

/-- Whether an operation asks for the board. A connection of texts that spell no ids does not. -/
def Op.asks : Op → Bool
  | .on _ _ | .off _ | .setDom _ | .define _ _ | .log _ _ | .report _ _ | .retrieve | .remember _ =>
    false
  | .connect source target => (Uuid.parse? source).isSome && (Uuid.parse? target).isSome
  | _ => true

namespace Program

def calls : List Op → Program
  | [] => .returns .undefined
  | op :: rest => .call op fun _ => calls rest

def done : Program → Bool
  | .call _ _ => false
  | _ => true

/-- What is left of a script once the call that it is about to make is answered. -/
def resume (a : Answer) : Program → Program
  | .call _ next => next a
  | p => p

end Program

end DiagramEditor.Browser
