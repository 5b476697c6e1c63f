import DiagramEditor.Json.Value
/-!
Numerals of a JSON text: no sign but minus, no leading zeros, digits on both sides of a point. An
integer that fits into 64 bits stays one. Any other numeral becomes a double in one rounding for its
digits and one for its scale: the leading digits that fit into 64 bits become a double, which is
multiplied or divided by a power of ten. So the double need not be the nearest one.
-/
namespace DiagramEditor.Json.Numeral

def digits (cs : List Char) : List Char × List Char :=
  (cs.takeWhile Char.isDigit, cs.dropWhile Char.isDigit)

def digitValue (c : Char) : Nat := c.toNat - '0'.toNat

def natOfDigits (cs : List Char) : Nat :=
  cs.foldl (fun n c => n * 10 + digitValue c) 0

/-- The whole part of a numeral: a lone zero, or digits that do not start with one. -/
def whole? (cs : List Char) : Option (List Char × List Char) :=
  match digits cs with
  | ([], _) => none
  | ('0' :: more, rest) => if more.isEmpty then some (['0'], rest) else none
  | found => some found

def fraction? : List Char → Option (List Char × List Char)
  | '.' :: cs =>
    let found := digits cs
    if found.1.isEmpty then none else some found
  | cs => some ([], cs)

def exponent? : List Char → Option (Option Int × List Char)
  | c :: cs =>
    if c == 'e' || c == 'E' then
      let (negative, cs) :=
        match cs with
        | '+' :: cs => (false, cs)
        | '-' :: cs => (true, cs)
        | cs => (false, cs)
      let (found, rest) := digits cs
      if found.isEmpty then none
      else
        let n : Int := natOfDigits found
        some (some (if negative then -n else n), rest)
    else some (none, c :: cs)
  | [] => some (none, [])

/-- Appends digits to a number while it fits into 64 bits; the digits behind are left. -/
def appendDigits : Nat → List Char → Nat × List Char
  | n, [] => (n, [])
  | n, c :: cs =>
    let next := n * 10 + digitValue c
    if next < wordBound then appendDigits next cs else (n, c :: cs)

def powerOfTen (k : Nat) : Float := Float.ofScientific 1 false k

def maxPower : Nat := 308

def scaleUp (x : Float) (k : Nat) : Float :=
  if k ≤ maxPower then x * powerOfTen k else if x == 0 then x else 1 / 0

/-- A double below `2 ^ 64` divided by `10 ^ k`. Two steps of the largest power leave nothing. -/
def scaleDown (x : Float) (k : Nat) : Float :=
  if k ≤ maxPower then x / powerOfTen k
  else if k ≤ 2 * maxPower then x / powerOfTen maxPower / powerOfTen (k - maxPower)
  else 0

def scale (x : Float) : Int → Float
  | .ofNat k => scaleUp x k
  | .negSucc k => scaleDown x (k + 1)

def magnitude (wholePart fraction : List Char) (exponent : Int) : Float :=
  let (n, behind) := appendDigits 0 wholePart
  let (n, unused) := appendDigits n fraction
  let used := fraction.length - unused.length
  scale (Float.ofScientific n false 0) (exponent + behind.length - used)

def ofMagnitude (negative : Bool) (x : Float) : Number :=
  if x.isFinite then .real (if negative then -x else x) else .beyond

/-- Integers are those numerals without fraction and exponent that fit into 64 bits, with a sign if
they are negative; a negative zero is a double. -/
def numberOf (negative : Bool) (wholePart fraction : List Char) (exponent : Option Int) : Number :=
  let n := natOfDigits wholePart
  if fraction.isEmpty && exponent.isNone && !negative && n < wordBound then .int n
  else if fraction.isEmpty && exponent.isNone && negative && n != 0 && n ≤ signedBound then
    .int (-n)
  else ofMagnitude negative (magnitude wholePart fraction (exponent.getD 0))

def read? (cs : List Char) : Option (Number × List Char) := do
  let (negative, cs) :=
    match cs with
    | '-' :: cs => (true, cs)
    | cs => (false, cs)
  let (wholePart, cs) ← whole? cs
  let (fraction, cs) ← fraction? cs
  let (exponent, cs) ← exponent? cs
  return (numberOf negative wholePart fraction exponent, cs)

end DiagramEditor.Json.Numeral
