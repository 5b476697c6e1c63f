import DiagramEditor.Board.Step
import DiagramEditor.Browser.Script
/-!
What happens in a tab. A trace is what reaches scripts and styles. An account also says how calls
nest, when the board, the queue of events and the table of listeners are borrowed and given back,
what the board does, and what becomes of events, listeners and functions of the drawing library.
-/
namespace DiagramEditor.Browser

inductive Trace
  | style (element property value : String)
  | call (method : String) (arguments : List Value)
  | callback (number : Nat) (event : Value)
  | report (name : String) (answer : Answer)

structure Listener where
  kind : EventKind
  callback : Nat

inductive Part
  | board
  | queue
  | listeners
  deriving DecidableEq, Repr

/-- What goes on for a while, with other things inside it. -/
inductive Activity
  | method (op : Op)
  | delivery (e : Event)
  | callback (number : Nat) (event : Value)
  | library (name : String) (arguments : List Value)

inductive Moment
  | begins (a : Activity)
  -- a method ends with its answer
  | answers (op : Op) (a : Answer)
  | ends (a : Activity)
  /-- An operation is called for which there is no level left. -/
  | overflows (op : Op)
  | borrows (p : Part)
  | returns (p : Part)
  /-- Someone asks for the board and finds it borrowed. -/
  | refuses
  | works (b : Board) (op : Board.Op)
  | raises (e : Event)
  | registers (handle : Nat) (l : Listener) (callback : Value → Program)
  | removes (handle : Nat) (l : Listener)
  | defines (name : String) (property : Method)

end DiagramEditor.Browser
