/-!
The shortest decimal of a double: the fewest digits that read back to it and, among the decimals
with that many digits, the one nearest to it; of two equally near ones a tie rule chooses.
Everything is exact arithmetic on natural numbers: a positive double is `m * 2 ^ q`, and the reals
that round to it form an interval around it, whose ends belong to it exactly when `m` is even.
-/
namespace DiagramEditor.Decimal

structure Scaled where
  coefficient : Nat
  exponent : Int
  deriving DecidableEq, Repr

/-- The double `mantissa * 2 ^ exponent`; `narrow` when the next double below is only half as far
as the next one above. -/
structure Binary where
  mantissa : Nat
  exponent : Int
  narrow : Bool
  deriving DecidableEq, Repr

def hiddenBit : Nat := 0x10000000000000

def Binary.ofBits (bits : Nat) : Binary :=
  let fraction : Nat := bits % hiddenBit
  let biased : Nat := bits / hiddenBit % 0x800
  if biased = 0 then ⟨fraction, -1074, false⟩
  else ⟨hiddenBit + fraction, (biased : Int) - 1075, decide (fraction = 0 ∧ 1 < biased)⟩

/-- The value and the ends of the interval that rounds to it, over one denominator. -/
structure Interval where
  low : Nat
  value : Nat
  high : Nat
  denominator : Nat
  closed : Bool
  deriving DecidableEq, Repr

def Binary.interval (b : Binary) : Interval :=
  let quarter := b.exponent - 2
  let scale := Nat.pow 2 quarter.toNat
  { low := (4 * b.mantissa - (if b.narrow then 1 else 2)) * scale
    value := 4 * b.mantissa * scale
    high := (4 * b.mantissa + 2) * scale
    denominator := Nat.pow 2 (-quarter).toNat
    closed := b.mantissa % 2 == 0 }

def Interval.inUnits (i : Interval) (exponent : Int) : Interval :=
  let up := Nat.pow 10 (-exponent).toNat
  { i with
    low := i.low * up
    value := i.value * up
    high := i.high * up
    denominator := i.denominator * Nat.pow 10 exponent.toNat }

def Interval.holds (i : Interval) (n : Nat) : Bool :=
  let n := n * i.denominator
  if i.closed then i.low ≤ n && n ≤ i.high else i.low < n && n < i.high

inductive Tie
  | larger
  | even
  deriving DecidableEq, Repr

/-- Whether a value that lies between `below` and the next number, `rest` parts of `whole` above it,
goes up. -/
def Tie.goesUp (t : Tie) (below rest whole : Nat) : Bool :=
  if 2 * rest = whole then t == .larger || below % 2 == 1 else whole < 2 * rest

/-- The nearer of the two whole numbers around the value that lie in the interval. -/
def Interval.nearest? (t : Tie) (i : Interval) : Option Nat :=
  let below := i.value / i.denominator
  let rest := i.value % i.denominator
  match i.holds below && below != 0, i.holds (below + 1) && rest != 0 with
  | true, true => some (if t.goesUp below rest i.denominator then below + 1 else below)
  | true, false => some below
  | false, true => some (below + 1)
  | false, false => none

def digitCount (n : Nat) : Nat :=
  (Nat.toDigits 10 n).length

def magnitude (numerator denominator : Nat) : Int :=
  let k : Int := (digitCount numerator : Int) - digitCount denominator
  if numerator * Nat.pow 10 (-k).toNat < denominator * Nat.pow 10 k.toNat then k else k + 1

def Scaled.stripped : Nat → Scaled → Scaled
  | 0, d => d
  | fuel + 1, d =>
    if d.coefficient % 10 = 0 then stripped fuel ⟨d.coefficient / 10, d.exponent + 1⟩ else d

/-- The shortest decimal of a positive double. Seventeen digits always suffice. -/
def Binary.shortest (t : Tie) (b : Binary) : Scaled :=
  let i := b.interval
  let top := magnitude i.value i.denominator
  let found := (List.range 17).findSome? fun (n : Nat) =>
    let exponent := top - (n + 1 : Nat)
    ((i.inUnits exponent).nearest? t).map fun c => Scaled.mk c exponent
  (found.getD ⟨0, 0⟩).stripped 20

end DiagramEditor.Decimal
