import DiagramEditor.Decimal.Layout
import DiagramEditor.Json.Value
/-!
JSON text of a value, without spaces. A double is written by its shortest decimal, with a fraction
or an exponent, so that it stays apart from an integer.
-/
namespace DiagramEditor.Json

/-- A fraction on every number; an exponent, with its sign, from `10 ^ 16` up and below
`10 ^ (-5)`. -/
def numerals : Decimal.Layout := ⟨some 16, some 5, true, true, .even⟩

def hexEscape (n : Nat) : List Char :=
  '\\' :: 'u' :: [n / 4096, n / 256, n / 16, n].map fun d => Nat.digitChar (d % 16)

def escaped (c : Char) : List Char :=
  if c = '"' then ['\\', '"']
  else if c = '\\' then ['\\', '\\']
  else if c = '\n' then ['\\', 'n']
  else if c = '\r' then ['\\', 'r']
  else if c = '\t' then ['\\', 't']
  else if c.toNat = 8 then ['\\', 'b']
  else if c.toNat = 12 then ['\\', 'f']
  else if c.toNat < 0x20 then hexEscape c.toNat
  else [c]

def quoted (s : String) : String :=
  String.ofList ('"' :: (s.toList.flatMap escaped ++ ['"']))

def Number.text : Number → String
  | .int n => toString n
  | .real x => numerals.text x
  | .beyond => "null"

def Str.text : Json.Str → String
  | some s => quoted s
  | none => "null"

mutual

def text : Json → String
  | .null => "null"
  | .bool b => if b then "true" else "false"
  | .number n => n.text
  | .string s => Str.text s
  | .array items => "[" ++ itemsText items ++ "]"
  | .object members => "\x7b" ++ membersText members ++ "\x7d"

def itemsText : List Json → String
  | [] => ""
  | [j] => text j
  | j :: rest => text j ++ "," ++ itemsText rest

def membersText : List (Json.Str × Json) → String
  | [] => ""
  | [(name, j)] => Str.text name ++ ":" ++ text j
  | (name, j) :: rest => Str.text name ++ ":" ++ text j ++ "," ++ membersText rest

end

end DiagramEditor.Json
