import DiagramEditor.Element
import DiagramEditor.Fault
import DiagramEditor.Text.Basic
/-!
Selectors: alternatives separated by commas, each a tag name or `*` followed by `#id` and `.class`
parts, without combinators. An alternative matches an element when each of its parts does, a
selector when one of its alternatives does. A page answers with the elements that match.
-/
namespace DiagramEditor

/-- One alternative of a selector; no tag stands for every tag. -/
structure Compound where
  tag : Option String := none
  id : Option String := none
  classes : List String := []
  deriving DecidableEq, Repr

structure Selector where
  alternatives : List Compound
  deriving DecidableEq, Repr

namespace Compound

def isNameChar (c : Char) : Bool :=
  c.isAlphanum || c == '-' || c == '_'

def isName (cs : List Char) : Bool :=
  !cs.isEmpty && cs.all isNameChar

def isMarker (c : Char) : Bool :=
  c == '#' || c == '.'

def withPart? (c : Compound) : Char × List Char → Option Compound
  | (marker, name) =>
    if !isName name then none
    else if marker == '#' then
      if c.id.isSome then none else some { c with id := some (String.ofList name) }
    else some { c with classes := c.classes ++ [String.ofList name] }

def ofTag? (tag : List Char) : Option Compound :=
  if tag == [] || tag == ['*'] then some {}
  else if isName tag then some { tag := some (Text.asciiLower (String.ofList tag)) }
  else none

inductive Stop
  | malformed
  /-- A cut would fall inside a character or past the end of the text. -/
  | torn
  deriving DecidableEq, Repr

def cut (n : Nat) (cs : List Char) : Except Stop (List Char × List Char) :=
  match Text.cut? n cs with
  | none => .error .torn
  | some parts => .ok parts

def scanTag (cs : List Char) : Except Stop (Compound × List Char) :=
  match cut (Text.offset isMarker cs) cs with
  | .error e => .error e
  | .ok (tag, rest) =>
    match ofTag? tag with
    | none => .error .malformed
    | some c => .ok (c, rest)

/-- Takes a part from the front of a text: its marker, which is one byte long, and its name. -/
def scanPart (c : Compound) (marker : Char) (cs : List Char) : Except Stop (Compound × List Char) :=
  match cut 1 cs with
  | .error e => .error e
  | .ok (_, body) =>
    match cut (Text.offset isMarker body) body with
    | .error e => .error e
    | .ok (name, rest) =>
      match c.withPart? (marker, name) with
      | none => .error .malformed
      | some c => .ok (c, rest)

theorem append_of_cut {n : Nat} {cs before after : List Char} (h : cut n cs = .ok (before, after)) :
    cs = before ++ after ∧ Text.byteLength before = n := by
  rw [cut] at h
  split at h
  · cases h
  · next parts hparts =>
    obtain rfl := Except.ok.inj h
    exact Text.append_of_cut? hparts

theorem length_of_scanPart {c d : Compound} {marker : Char} {cs rest : List Char}
    (h : scanPart c marker cs = .ok (d, rest)) : rest.length < cs.length := by
  rw [scanPart] at h
  split at h
  · cases h
  · next first body hbody =>
    obtain ⟨rfl, hone⟩ := append_of_cut hbody
    split at h
    · cases h
    · next name tail htail =>
      obtain ⟨rfl, -⟩ := append_of_cut htail
      split at h
      · cases h
      · obtain ⟨-, rfl⟩ := Prod.mk.inj (Except.ok.inj h)
        cases first with
        | nil => cases hone
        | cons m more =>
          simp only [List.length_append, List.length_cons]
          omega

def scanParts (c : Compound) (cs : List Char) : Except Stop Compound :=
  match cs with
  | [] => .ok c
  | marker :: more =>
    match _h : scanPart c marker (marker :: more) with
    | .error e => .error e
    | .ok (d, rest) => scanParts d rest
termination_by cs.length
decreasing_by exact length_of_scanPart _h

def scan (cs : List Char) : Except Stop Compound :=
  if cs.isEmpty then .error .malformed
  else
    match scanTag cs with
    | .error e => .error e
    | .ok (c, rest) => scanParts c rest

def holds (c : Compound) (tag : String) (id : Option String) (classes : List String) : Bool :=
  c.tag.all (fun t => Text.asciiLower t == Text.asciiLower tag)
    && c.id.all (fun want => id == some want)
    && c.classes.all classes.contains

end Compound

namespace Selector

def scan (cs : List Char) : Except Compound.Stop Selector :=
  ((cs.splitOn ',').mapM fun piece => Compound.scan (Text.trim piece)).map Selector.mk

def parse? (raw : String) : Option Selector :=
  (scan raw.toList).toOption

def holds (s : Selector) (tag : String) (id : Option String) (classes : List String) : Bool :=
  s.alternatives.any fun c => c.holds tag id classes

def matchesElement (s : Selector) (e : Element) : Bool :=
  s.holds e.tag e.id e.classes

end Selector

abbrev Page := String → Except Fault (List Element)

/-- Reads a selector. A text that is none is turned down as it stands. -/
def Selector.parse (raw : String) : Except Fault Selector :=
  match Selector.parse? raw with
  | none => .error (.invalidSelector raw)
  | some s => .ok s

def Page.ofElements (elements : List Element) : Page := fun raw =>
  (Selector.parse raw).map fun s => elements.filter s.matchesElement

end DiagramEditor
