import DiagramEditor.Settings
/-!
Causes for which a board, a page or a connection library turns a request down, those for which a
shared board turns a caller down beside them, and their wording.
-/
namespace DiagramEditor

inductive Fault
  | missingElement (selector : String)
  | invalidSelector (raw : String)
  | canvasNotInitialized
  | unknownItem (id : ItemId)
  | unknownEndpoint (id : EndpointId)
  | roleMismatch (first second : Role)
  | connectionLimit (id : EndpointId)
  | indexOutOfRange (index count : Nat)
  | invalidSettings (why : Settings.Problem)
  | unreadableSettings
  | library (detail : String)

namespace Fault

def kind : Fault → String
  | .missingElement _ => "MissingElement"
  | .invalidSelector _ => "InvalidSelector"
  | .canvasNotInitialized => "CanvasNotInitialized"
  | .unknownItem _ => "UnknownItem"
  | .unknownEndpoint _ => "UnknownEndpoint"
  | .roleMismatch _ _ => "RoleMismatch"
  | .connectionLimit _ => "ConnectionLimit"
  | .indexOutOfRange _ _ => "IndexOutOfRange"
  | .invalidSettings _ => "InvalidConfig"
  | .unreadableSettings => "ConfigParse"
  | .library _ => "Plumb"

def message? : Fault → Option String
  | .missingElement s => some ("no element matches selector `" ++ s ++ "`")
  | .invalidSelector s => some ("invalid selector `" ++ s ++ "`")
  | .canvasNotInitialized => some "canvas has not been initialized"
  | .unknownItem id => some ("unknown canvas item `" ++ id.text ++ "`")
  | .unknownEndpoint id => some ("unknown endpoint " ++ id.text)
  | .roleMismatch r s =>
    some ("cannot connect a " ++ r.text ++ " endpoint to a " ++ s.text ++ " endpoint")
  | .connectionLimit id => some ("endpoint " ++ id.text ++ " has reached its connection limit")
  | .indexOutOfRange i n =>
    some ("document index " ++ toString i ++ " out of range for " ++ toString n ++ " items")
  | .invalidSettings p => some ("invalid configuration: " ++ p.message)
  | .unreadableSettings => none
  | .library detail => some ("connection library error: " ++ detail)

def message (f : Fault) : String :=
  f.message?.getD ""

end Fault

/-- Causes for which a shared board turns a caller down, beside the faults of the board itself. -/
inductive Refusal
  | fault (f : Fault)
  | invalidEndpointId (raw : String)
  | noBrowser (part : String)
  | busy
  /-- Callers call each other more deeply than they may. -/
  | tooDeep

namespace Refusal

def kind : Refusal → String
  | .fault f => f.kind
  | .invalidEndpointId _ => "InvalidEndpointId"
  | .noBrowser _ => "NoBrowser"
  | .busy => "Reentrant"
  | .tooDeep => "TooDeep"

def message? : Refusal → Option String
  | .fault f => f.message?
  | .invalidEndpointId raw => some ("invalid endpoint id `" ++ raw ++ "`")
  | .noBrowser part => some ("browser environment unavailable: " ++ part)
  | .busy => some "controller is busy; a callback called back into it during a gesture"
  | .tooDeep => some "callbacks are nested too deeply"

end Refusal

end DiagramEditor
