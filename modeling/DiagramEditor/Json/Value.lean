/-!
JSON values. A value may hold what a text may hold and no reader of it can use: a numeral beyond
every double, and a string in which an escape names half of a surrogate pair.
-/
namespace DiagramEditor

inductive Json.Number
  | int (n : Int)
  | real (x : Float)
  /-- A numeral beyond every double. -/
  | beyond

def Json.wordBound : Nat := 0x10000000000000000

def Json.signedBound : Nat := 0x8000000000000000

/-- A string of a JSON text; none when an escape in it names half of a surrogate pair. -/
abbrev Json.Str := Option String

inductive Json
  | null
  | bool (b : Bool)
  | number (n : Json.Number)
  | string (s : Json.Str)
  | array (items : List Json)
  | object (members : List (Json.Str × Json))

namespace Json

instance : Inhabited Json := ⟨.null⟩

def ofString (s : String) : Json := .string (some s)

def ofInt (n : Int) : Json := .number (.int n)

def ofNat (n : Nat) : Json := .number (.int n)

/-- What is not finite has no numeral and becomes null. -/
def ofFloat (x : Float) : Json :=
  if x.isFinite then .number (.real x) else .null

def ofOption (encode : α → Json) : Option α → Json
  | none => .null
  | some a => encode a

def ofList (encode : α → Json) (as : List α) : Json := .array (as.map encode)

def record (members : List (String × Json)) : Json :=
  .object (members.map fun (name, value) => (some name, value))

def get? (j : Json) (name : String) : Option Json :=
  match j with
  | .object members => (members.find? fun m => m.1 == some name).map (·.2)
  | _ => none

end Json

end DiagramEditor
