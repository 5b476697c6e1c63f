import DiagramEditor.Element
import DiagramEditor.Fault
/-!
What a board asks of a library that draws connections. A library is a function on its own state: it
carries a call out or turns it down, and either may change the state. Calls may be made to fail on
purpose: failures are armed for one kind of call, pass over some calls of it and then turn down
some; a call that is turned down does not reach the library behind.
-/
namespace DiagramEditor.Wiring

inductive Call
  | setContainer (container : Element)
  | makeDraggable (item : ItemId) (box : Size)
  | moveItem (item : ItemId) (position : Point)
  | addEndpoint (e : Endpoint)
  | connect (id : ConnectionId) (source target : Endpoint)
  | removeElement (item : ItemId)

def Call.method : Call → String
  | .setContainer _ => "set_container"
  | .makeDraggable _ _ => "make_draggable"
  | .moveItem _ _ => "move_item"
  | .addEndpoint _ => "add_endpoint"
  | .connect _ _ _ => "connect"
  | .removeElement _ => "remove_element"

abbrev Library (σ : Type) := Call → σ → Except Fault Unit × σ

/-- Makes calls in order up to the first that is turned down. -/
def Library.callAll {σ : Type} (library : Library σ) : List Call → σ → Except Fault Unit × σ
  | [], s => (.ok (), s)
  | c :: rest, s =>
    match library c s with
    | (.error f, s) => (.error f, s)
    | (.ok (), s) => library.callAll rest s

structure Arm where
  method : String
  detail : String
  skip : Nat
  times : Nat
  deriving DecidableEq, Repr

/-- The failure that fires at a call, and the failures that are left. An armed failure that still
skips lets later ones be looked at. -/
def Arm.fire (method : String) : List Arm → Option String × List Arm
  | [] => (none, [])
  | a :: rest =>
    if a.method = method ∧ 0 < a.skip then
      let (found, rest) := fire method rest
      (found, { a with skip := a.skip - 1 } :: rest)
    else if a.method = method ∧ 0 < a.times then
      (some a.detail, { a with times := a.times - 1 } :: rest)
    else
      let (found, rest) := fire method rest
      (found, a :: rest)

structure Armed (σ : Type) where
  inner : σ
  arms : List Arm

def Armed.call {σ : Type} (library : Library σ) : Library (Armed σ) := fun c s =>
  match Arm.fire c.method s.arms with
  | (some detail, arms) => (.error (.library detail), { s with arms := arms })
  | (none, arms) =>
    let (answer, inner) := library c s.inner
    (answer, ⟨inner, arms⟩)

end DiagramEditor.Wiring
