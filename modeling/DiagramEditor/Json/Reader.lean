import DiagramEditor.Json.Numeral
/-!
Reads JSON text. The reader keeps to the grammar: four blank characters, no control characters in
strings, and nothing behind the value. Escapes and numerals that no text or double can hold are
still well formed; they are kept as such.
-/
namespace DiagramEditor.Json

namespace Reader

def isSpace (c : Char) : Bool :=
  c == ' ' || c == '\t' || c == '\n' || c == '\r'

def skipSpace (cs : List Char) : List Char :=
  cs.dropWhile isSpace

def hexDigit? (c : Char) : Option Nat :=
  if c.isDigit then some (c.toNat - '0'.toNat)
  else if 'a' ≤ c ∧ c ≤ 'f' then some (c.toNat - 'a'.toNat + 10)
  else if 'A' ≤ c ∧ c ≤ 'F' then some (c.toNat - 'A'.toNat + 10)
  else none

def unit? : List Char → Option (Nat × List Char)
  | a :: b :: c :: d :: rest => do
    let n := [← hexDigit? a, ← hexDigit? b, ← hexDigit? c, ← hexDigit? d].foldl (· * 16 + ·) 0
    return (n, rest)
  | _ => none

def simpleEscape? (c : Char) : Option Char :=
  if c == '"' || c == '\\' || c == '/' then some c
  else if c == 'b' then some (Char.ofNat 8)
  else if c == 'f' then some (Char.ofNat 12)
  else if c == 'n' then some '\n'
  else if c == 'r' then some '\r'
  else if c == 't' then some '\t'
  else none

def isHighSurrogate (n : Nat) : Bool := 0xD800 ≤ n && n < 0xDC00

def isLowSurrogate (n : Nat) : Bool := 0xDC00 ≤ n && n < 0xE000

def combined (high low : Nat) : Char :=
  Char.ofNat (0x10000 + (high - 0xD800) * 0x400 + (low - 0xDC00))

/-- What stands behind the backslash of an escape; no character for half of a surrogate pair. -/
def escape? : List Char → Option (Option Char × List Char)
  | 'u' :: cs => do
    let (n, rest) ← unit? cs
    if isLowSurrogate n then return (none, rest)
    else if isHighSurrogate n then
      match rest with
      | '\\' :: 'u' :: cs =>
        let (low, behind) ← unit? cs
        if isLowSurrogate low then return (some (combined n low), behind)
        else return (none, rest)
      | _ => return (none, rest)
    else return (some (Char.ofNat n), rest)
  | c :: cs => (simpleEscape? c).map fun e => (some e, cs)
  | [] => none

/-- Characters up to the closing quote, last one first; none once one of them is missing. -/
def stringFrom : Nat → Option (List Char) → List Char → Option (Json.Str × List Char)
  | 0, _, _ => none
  | _ + 1, _, [] => none
  | fuel + 1, acc, c :: cs =>
    if c == '"' then some (acc.map fun cs => String.ofList cs.reverse, cs)
    else if c == '\\' then
      (escape? cs).bind fun (e, rest) =>
        stringFrom fuel (acc.bind fun cs => e.map fun e => e :: cs) rest
    else if c.toNat < 0x20 then none
    else stringFrom fuel (acc.map (c :: ·)) cs

def string? (cs : List Char) : Option (Json.Str × List Char) :=
  stringFrom (cs.length + 1) (some []) cs

def keyword? (word : List Char) (cs : List Char) : Option (List Char) :=
  if word.isPrefixOf cs then some (cs.drop word.length) else none

mutual

def value? : Nat → List Char → Option (Json × List Char)
  | 0, _ => none
  | _ + 1, [] => none
  | fuel + 1, c :: cs =>
    if c == '\x7b' then
      match skipSpace cs with
      | '\x7d' :: rest => some (.object [], rest)
      | rest => (members? fuel rest).map fun (ms, rest) => (.object ms, rest)
    else if c == '[' then
      match skipSpace cs with
      | ']' :: rest => some (.array [], rest)
      | rest => (items? fuel rest).map fun (js, rest) => (.array js, rest)
    else if c == '"' then (string? cs).map fun (s, rest) => (.string s, rest)
    else if c == 'n' then (keyword? ['u', 'l', 'l'] cs).map fun rest => (.null, rest)
    else if c == 't' then (keyword? ['r', 'u', 'e'] cs).map fun rest => (.bool true, rest)
    else if c == 'f' then (keyword? ['a', 'l', 's', 'e'] cs).map fun rest => (.bool false, rest)
    else (Numeral.read? (c :: cs)).map fun (n, rest) => (.number n, rest)

def items? : Nat → List Char → Option (List Json × List Char)
  | 0, _ => none
  | fuel + 1, cs =>
    match value? fuel cs with
    | none => none
    | some (j, rest) =>
      match skipSpace rest with
      | ']' :: rest => some ([j], rest)
      | ',' :: rest => (items? fuel (skipSpace rest)).map fun (js, rest) => (j :: js, rest)
      | _ => none

def members? : Nat → List Char → Option (List (Json.Str × Json) × List Char)
  | 0, _ => none
  | fuel + 1, cs =>
    match cs with
    | '"' :: cs =>
      match string? cs with
      | none => none
      | some (name, rest) =>
        match skipSpace rest with
        | ':' :: rest =>
          match value? fuel (skipSpace rest) with
          | none => none
          | some (j, rest) =>
            match skipSpace rest with
            | '\x7d' :: rest => some ([(name, j)], rest)
            | ',' :: rest =>
              (members? fuel (skipSpace rest)).map fun (ms, rest) => ((name, j) :: ms, rest)
            | _ => none
        | _ => none
    | _ => none

end

end Reader

open Reader in
/-- Reads a whole text. Every nested reading takes a character, so the fuel is never used up. -/
def read? (raw : String) : Option Json :=
  let cs := raw.toList
  match value? (2 * cs.length + 2) (skipSpace cs) with
  | some (j, rest) => if (skipSpace rest).isEmpty then some j else none
  | none => none

end DiagramEditor.Json
