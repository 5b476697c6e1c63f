/-!
Identifiers of 128 bits and their text. The written form has 32 lower case hexadecimal digits in
groups of 8, 4, 4, 4 and 12 joined by hyphens; reading also takes the digits without hyphens, the
grouped form in braces and the grouped form behind `urn:uuid:`, with letters of either case.
-/
namespace DiagramEditor

structure Uuid where
  value : BitVec 128
  deriving DecidableEq

namespace Uuid

def digitValue? (c : Char) : Option Nat :=
  if c.isDigit then some (c.toNat - '0'.toNat)
  else if 'a' ≤ c ∧ c ≤ 'f' then some (c.toNat - 'a'.toNat + 10)
  else if 'A' ≤ c ∧ c ≤ 'F' then some (c.toNat - 'A'.toNat + 10)
  else none

/-- The number with these hexadecimal digits behind the digits of `high`. -/
def number? (high : Nat) : List Char → Option Nat
  | [] => some high
  | c :: cs => (digitValue? c).bind fun d => number? (high * 16 + d) cs

def ofDigits? (cs : List Char) : Option Uuid :=
  if cs.length = 32 then (number? 0 cs).map fun n => ⟨BitVec.ofNat 128 n⟩ else none

def hyphens : List Nat := [8, 13, 18, 23]

def ofGroups? (cs : List Char) : Option Uuid :=
  if cs.length = 36 ∧ hyphens.all (fun i => cs[i]? == some '-') then
    let digits := cs.zipIdx.filterMap fun (c, i) => if hyphens.contains i then none else some c
    ofDigits? digits
  else none

def urnPrefix : List Char := "urn:uuid:".toList

def ofChars? (cs : List Char) : Option Uuid :=
  if cs.length = 32 then ofDigits? cs
  else if cs.length = 36 then ofGroups? cs
  else if cs.head? = some '\x7b' ∧ cs.getLast? = some '\x7d' then ofGroups? (cs.drop 1).dropLast
  else if urnPrefix.isPrefixOf (cs.map Char.toLower) then ofGroups? (cs.drop urnPrefix.length)
  else none

def parse? (s : String) : Option Uuid :=
  ofChars? s.toList

def lowDigits : Nat → Nat → List Char
  | 0, _ => []
  | n + 1, value => lowDigits n (value / 16) ++ [Nat.digitChar (value % 16)]

def chars (u : Uuid) : List Char :=
  let digits := lowDigits 32 u.value.toNat
  let part := fun start size => (digits.drop start).take size
  part 0 8 ++ '-' :: part 8 4 ++ '-' :: part 12 4 ++ '-' :: part 16 4 ++ '-' :: part 20 12

def text (u : Uuid) : String :=
  String.ofList u.chars

def seed : BitVec 128 := 0xd1a6ed1702c04d60b7e5000000000000

/-- The identifier that a counter hands out at its `n`th step. -/
def ofCounter (n : Nat) : Uuid :=
  ⟨seed + BitVec.ofNat 128 n⟩

end Uuid

end DiagramEditor
