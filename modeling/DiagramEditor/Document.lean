import DiagramEditor.Fault
import DiagramEditor.Geometry
/-!
The document: the items placed on the canvas, in order. Ids are the configured prefix with the
ordinal of the item's creation, so that none is used twice, also after removals. Edits come one at a
time, each with what it answers.
-/
namespace DiagramEditor

inductive Stage
  | placed
  | draggable
  | endpointed
  deriving DecidableEq, Repr

structure Item where
  id : ItemId
  kind : String
  x : Float
  y : Float
  width : Float
  height : Float
  classes : List String
  draggable : Bool
  endpoints : List Endpoint

namespace Item

def position (i : Item) : Point := ⟨i.x, i.y⟩

def size (i : Item) : Size := ⟨i.width, i.height⟩

def moved (i : Item) (p : Point) : Item := { i with x := p.x, y := p.y }

def has (i : Item) (r : Role) : Bool :=
  i.endpoints.any fun e => e.role == r

def stage (i : Item) : Stage :=
  if !i.endpoints.isEmpty then .endpointed else if i.draggable then .draggable else .placed

end Item

structure Document where
  items : List Item
  idPrefix : String
  created : Nat

namespace Document

def empty (idPrefix : String) : Document := ⟨[], idPrefix, 0⟩

def idOf (idPrefix : String) (n : Nat) : ItemId :=
  ⟨idPrefix ++ toString n⟩

/-- The id for the next item, whose ordinal is used up. -/
def mint (d : Document) : ItemId × Document :=
  (idOf d.idPrefix d.created, { d with created := d.created + 1 })

def insert (d : Document) (index : Nat) (i : Item) : Except Fault Document :=
  if d.items.length < index then .error (.indexOutOfRange index d.items.length)
  else .ok { d with items := d.items.insertIdx index i }

def push (d : Document) (i : Item) : Document :=
  { d with items := d.items ++ [i] }

def find? (d : Document) (id : ItemId) : Option Item :=
  d.items.find? fun i => i.id == id

def indexOf? (d : Document) (id : ItemId) : Option Nat :=
  d.items.findIdx? fun i => i.id == id

def remove (d : Document) (id : ItemId) : Document :=
  { d with items := d.items.eraseP fun i => i.id == id }

def updateFirst (id : ItemId) (f : Item → Item) : List Item → List Item
  | [] => []
  | i :: rest => if i.id = id then f i :: rest else i :: updateFirst id f rest

def update (d : Document) (id : ItemId) (f : Item → Item) : Document :=
  { d with items := updateFirst id f d.items }

def setPosition (d : Document) (id : ItemId) (p : Point) : Document :=
  d.update id fun i => i.moved p

def endpoint? (d : Document) (id : EndpointId) : Option Endpoint :=
  (d.items.flatMap (·.endpoints)).find? fun e => e.id == id

end Document

inductive Edit
  | insert (index : Nat) (i : Item)
  | push (i : Item)
  | remove (id : ItemId)
  | setPosition (id : ItemId) (p : Point)
  | change (id : ItemId) (f : Item → Item)

namespace Edit

inductive Answer
  | done
  | refused (f : Fault)
  | item (i? : Option Item)
  | found (b : Bool)

def apply : Edit → Document → Answer × Document
  | .insert index i, d =>
    match d.insert index i with
    | .error f => (.refused f, d)
    | .ok e => (.done, e)
  | .push i, d => (.done, d.push i)
  | .remove id, d =>
    match d.indexOf? id with
    | none => (.item none, d)
    | some index => (.item d.items[index]?, { d with items := d.items.eraseIdx index })
  | .setPosition id p, d => (.found (d.find? id).isSome, d.setPosition id p)
  | .change id f, d => (.item (d.find? id), d.update id f)

def applyAll (edits : List Edit) (d : Document) : Document :=
  edits.foldl (fun d e => (e.apply d).2) d

end Edit

end DiagramEditor
