import DiagramEditor.Json.Printer
import DiagramEditor.Json.Reader
/-!
Values of scripts on a page, and how they are shown. All numbers are doubles; a whole number that is
not too large is written as an integer, and what is not finite becomes null in JSON.
-/
namespace DiagramEditor.Browser

inductive Value
  | undefined
  | null
  | bool (b : Bool)
  | number (x : Float)
  | string (s : String)
  | array (items : List Value)
  | object (members : List (String × Value))

namespace Value

instance : Inhabited Value := ⟨.undefined⟩

/-- Whole numbers below this bound are written as integers. -/
def wholeBound : Float := 9e15

def numeral (x : Float) : Json :=
  if x.isFinite && x.floor == x && x.abs < wholeBound && x.toBits != (-0.0 : Float).toBits then
    .ofInt x.toInt64.toInt
  else .ofFloat x

mutual

def ofJson : Json → Value
  | .null => .null
  | .bool b => .bool b
  | .number (.int n) =>
    let magnitude := Float.ofScientific n.natAbs false 0
    .number (if n < 0 then -magnitude else magnitude)
  | .number (.real x) => .number x
  | .number .beyond => .number (1 / 0)
  | .string s => .string (s.getD "")
  | .array items => .array (ofItems items)
  | .object members => .object (ofMembers members)

def ofItems : List Json → List Value
  | [] => []
  | j :: rest => ofJson j :: ofItems rest

def ofMembers : List (Json.Str × Json) → List (String × Value)
  | [] => []
  | (name, j) :: rest => (name.getD "", ofJson j) :: ofMembers rest

end

mutual

/-- JSON for a value, in which undefined members are left out. -/
def toJson : Value → Json
  | .undefined | .null => .null
  | .bool b => .bool b
  | .number x => numeral x
  | .string s => .ofString s
  | .array items => .array (toItems items)
  | .object members => .object (toMembers members)

def toItems : List Value → List Json
  | [] => []
  | v :: rest => toJson v :: toItems rest

def toMembers : List (String × Value) → List (Json.Str × Json)
  | [] => []
  | (_, .undefined) :: rest => toMembers rest
  | (name, v) :: rest => (some name, toJson v) :: toMembers rest

end

def parsed (text : String) : Value :=
  match Json.read? text with
  | some j => ofJson j
  | none => .null

def sent (j : Json) : Value := parsed j.text

mutual

def inspected : Value → String
  | .undefined => "undefined"
  | .null => "null"
  | .bool b => if b then "true" else "false"
  | .number x => (numeral x).text
  | .string s => "\"" ++ s ++ "\""
  | .array items => "[" ++ inspectedItems items ++ "]"
  | .object members => "Object(" ++ (Json.object (toMembers members)).text ++ ")"

def inspectedItems : List Value → String
  | [] => ""
  | [v] => inspected v
  | v :: rest => inspected v ++ ", " ++ inspectedItems rest

end

def debugText (v : Value) : String := "JsValue(" ++ v.inspected ++ ")"

def thrownText : Value → String
  | .string s => s
  | v => v.debugText

def get? (v : Value) (name : String) : Option Value :=
  match v with
  | .object members => (members.find? fun m => m.1 == name).map (·.2)
  | _ => none

def string? : Value → Option String
  | .string s => some s
  | _ => none

/-- What is no number counts as zero. -/
def toFloat : Value → Float
  | .number x => x
  | _ => 0

def isPresent : Value → Bool
  | .undefined | .null => false
  | _ => true

end Value

end DiagramEditor.Browser
