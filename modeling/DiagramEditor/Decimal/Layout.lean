import DiagramEditor.Decimal.Shortest
/-!
Text of doubles. A double is written by the digits of its shortest decimal; a layout says where
positional notation ends, how a whole number and an exponent are marked, and how ties between
decimals go.
-/
namespace DiagramEditor.Decimal

inductive Shown
  | nan
  | infinite (negative : Bool)
  | finite (negative : Bool) (digits : Scaled)
  deriving DecidableEq, Repr

def signBit : Nat := 0x8000000000000000

def Shown.of (t : Tie) (x : Float) : Shown :=
  let bits := x.toBits.toNat
  let negative := decide (signBit ≤ bits)
  let magnitude := bits % signBit
  let ceiling := 0x7FF * hiddenBit
  if ceiling < magnitude then .nan
  else if magnitude = ceiling then .infinite negative
  else if magnitude = 0 then .finite negative ⟨0, 0⟩
  else .finite negative ((Binary.ofBits magnitude).shortest t)

structure Layout where
  /-- An exponent is written from this power of ten up. -/
  exponentFrom : Option Nat
  /-- An exponent is written for values below this negative power of ten. -/
  exponentBelow : Option Nat
  keepsFraction : Bool
  signsExponent : Bool
  tie : Tie

def Layout.plain : Layout := ⟨none, none, false, false, .larger⟩

/-- A fraction on every number; an exponent from `10 ^ 16` up and below `10 ^ (-4)`. -/
def Layout.marked : Layout := ⟨some 16, some 4, true, false, .larger⟩

def digitText (n : Nat) : List Char := Nat.toDigits 10 n

def zeros (n : Nat) : List Char := List.replicate n '0'

def Scaled.positional (keepsFraction : Bool) (d : Scaled) : List Char :=
  let digits := digitText d.coefficient
  if 0 ≤ d.exponent then
    digits ++ zeros d.exponent.toNat ++ (if keepsFraction then ['.', '0'] else [])
  else
    let places := d.exponent.natAbs
    let padded := zeros (places + 1 - digits.length) ++ digits
    padded.take (padded.length - places) ++ '.' :: padded.drop (padded.length - places)

/-- One digit before the point, none behind it when there is only one digit. -/
def Scaled.scientific (signsExponent : Bool) (d : Scaled) : List Char :=
  let digits := digitText d.coefficient
  let exponent := d.exponent + (digits.length - 1 : Nat)
  digits.take 1 ++ (if digits.length ≤ 1 then [] else '.' :: digits.drop 1)
    ++ 'e' :: ((if exponent < 0 then ['-'] else if signsExponent then ['+'] else [])
      ++ digitText exponent.natAbs)

def Layout.writesExponent (l : Layout) (d : Scaled) : Bool :=
  let top := d.exponent + ((digitText d.coefficient).length - 1 : Nat)
  d.coefficient != 0 &&
    ((l.exponentFrom.any fun k => decide ((k : Int) ≤ top))
      || (l.exponentBelow.any fun k => decide (top < -(k : Int))))

def Layout.chars (l : Layout) : Shown → List Char
  | .nan => ['N', 'a', 'N']
  | .infinite negative => (if negative then ['-'] else []) ++ ['i', 'n', 'f']
  | .finite negative d =>
    (if negative then ['-'] else []) ++
      if l.writesExponent d then d.scientific l.signsExponent else d.positional l.keepsFraction

def Layout.text (l : Layout) (x : Float) : String :=
  String.ofList (l.chars (.of l.tie x))

def pixels (x : Float) : String :=
  Layout.plain.text x ++ "px"

end DiagramEditor.Decimal
