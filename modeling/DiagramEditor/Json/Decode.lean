import DiagramEditor.Json.Value
/-!
Reading records and tagged variants from JSON values. A record is an object whose unknown members
are ignored and whose known members occur at most once, or an array of the fields in order that may
lack fields at its end. A variant is an object with one member `type`, or an array that starts with
the tag. A variant is looked through before its tag is known, so all of it has to be usable: every
string whole, every numeral within the doubles, and no more levels than there is room for.
-/
namespace DiagramEditor.Json

def maxDepth : Nat := 127

def string? : Json → Option String
  | .string s => s
  | _ => none

def bool? : Json → Option Bool
  | .bool b => some b
  | _ => none

def float? : Json → Option Float
  | .number (.int n) =>
    let magnitude := Float.ofScientific n.natAbs false 0
    some (if n < 0 then -magnitude else magnitude)
  | .number (.real x) => some x
  | _ => none

/-- Integers from `0` to `2 ^ 64 - 1` without fraction or exponent. -/
def nat? : Json → Option Nat
  | .number (.int (.ofNat n)) => if n < wordBound then some n else none
  | _ => none

def list? (decode : Json → Option α) : Json → Option (List α)
  | .array items => items.mapM decode
  | _ => none

def nullable? (decode : Json → Option α) : Json → Option (Option α)
  | .null => some none
  | j => (decode j).map some

def occurrences (members : List (Json.Str × Json)) (name : String) : Nat :=
  members.countP fun m => m.1 == some name

/-- The values given for the fields of a record, in the order of the names. -/
def fields? (names : List String) (j : Json) : Option (List (Option Json)) :=
  match j with
  | .object members =>
    if members.all (fun m => m.1.isSome) && names.all (fun n => occurrences members n ≤ 1) then
      some (names.map j.get?)
    else none
  | .array items =>
    if items.length ≤ names.length then
      some (items.map some ++ List.replicate (names.length - items.length) none)
    else none
  | _ => none

mutual

/-- Whether a value fits into the room left and holds nothing that is unusable. -/
def usable : Nat → Json → Bool
  | _, .number .beyond => false
  | _, .string none => false
  | room, .array items => room != 0 && usableItems (room - 1) items
  | room, .object members => room != 0 && usableMembers (room - 1) members
  | _, _ => true

def usableItems : Nat → List Json → Bool
  | _, [] => true
  | room, j :: rest => usable room j && usableItems room rest

def usableMembers : Nat → List (Json.Str × Json) → Bool
  | _, [] => true
  | room, (name, j) :: rest => name.isSome && usable room j && usableMembers room rest

end

/-- The tag of a variant and the value that holds its fields. -/
def tagged? (room : Nat) (j : Json) : Option (String × Json) :=
  if usable room j then
    match j with
    | .object members =>
      if occurrences members "type" = 1 then
        ((j.get? "type").bind string?).map fun tag =>
          (tag, .object (members.filter fun m => m.1 != some "type"))
      else none
    | .array (first :: rest) => (string? first).map fun tag => (tag, .array rest)
    | _ => none
  else none

def name? : Json → Option String
  | .string s => s
  | .object [(name, .null)] => name
  | _ => none

end DiagramEditor.Json
