import DiagramEditor.Decimal.Layout
/-!
Log entries: a level, a message and named values. A value is a count, a double, a text shown as it
stands, or a text that a console shows in quotes.
-/
namespace DiagramEditor.Log

inductive Level
  | trace
  | debug
  | info
  | warn
  | error
  deriving DecidableEq, Repr

/-- How much is let through with this level as the least severe one. -/
def Level.rank : Level → Nat
  | .error => 1
  | .warn => 2
  | .info => 3
  | .debug => 4
  | .trace => 5

def Level.text : Level → String
  | .trace => "TRACE"
  | .debug => "DEBUG"
  | .info => "INFO"
  | .warn => "WARN"
  | .error => "ERROR"

inductive Value
  | count (n : Nat)
  | real (x : Float)
  | shown (s : String)
  | quoted (s : String)

structure Entry where
  level : Level
  message : String
  fields : List (String × Value) := []

end DiagramEditor.Log
