/-!
Bytes read as UTF-8, where every maximal run of bytes that starts a character and cannot finish it
becomes one replacement character U+FFFD. The reader takes one byte at a time, so the text of a
concatenation does not depend on where the bytes were cut.
-/
namespace DiagramEditor.Text.Utf8

def replacement : Char := Char.ofNat 0xFFFD

/-- A character begun: the bytes still owed, the least and greatest next byte, the value so far. -/
structure Pending where
  owed : Nat
  low : Nat
  high : Nat
  value : Nat
  deriving DecidableEq, Repr

inductive Lead
  | single (c : Char)
  | opens (p : Pending)
  | stray
  deriving DecidableEq, Repr

def lead (b : Nat) : Lead :=
  if b < 0x80 then .single (Char.ofNat b)
  else if b < 0xC2 then .stray
  else if b < 0xE0 then .opens ⟨1, 0x80, 0xBF, b - 0xC0⟩
  else if b < 0xF0 then
    .opens ⟨2, if b = 0xE0 then 0xA0 else 0x80, if b = 0xED then 0x9F else 0xBF, b - 0xE0⟩
  else if b < 0xF5 then
    .opens ⟨3, if b = 0xF0 then 0x90 else 0x80, if b = 0xF4 then 0x8F else 0xBF, b - 0xF0⟩
  else .stray

/-- The characters that a byte settles between characters, and the character it begins. -/
def fresh (b : Nat) : List Char × Option Pending :=
  match lead b with
  | .single c => ([c], none)
  | .opens p => ([], some p)
  | .stray => ([replacement], none)

def step : Option Pending → Nat → List Char × Option Pending
  | none, b => fresh b
  | some p, b =>
    if p.low ≤ b ∧ b ≤ p.high then
      let value := p.value * 64 + (b - 0x80)
      if p.owed ≤ 1 then ([Char.ofNat value], none)
      else ([], some ⟨p.owed - 1, 0x80, 0xBF, value⟩)
    else (replacement :: (fresh b).1, (fresh b).2)

def decodeFrom : Option Pending → List UInt8 → List Char
  | none, [] => []
  | some _, [] => [replacement]
  | p, b :: bytes => (step p b.toNat).1 ++ decodeFrom (step p b.toNat).2 bytes

def decode (bytes : List UInt8) : List Char :=
  decodeFrom none bytes

end DiagramEditor.Text.Utf8
