import DiagramEditor.Table
import DiagramEditor.Wiring.Library
/-!
A connection library that keeps everything in memory. Connections run from a source endpoint to a
target endpoint, and no endpoint takes more of them than its style allows. A new container starts
from nothing.
-/
namespace DiagramEditor.Wiring

structure Connection where
  id : ConnectionId
  source : EndpointId
  target : EndpointId
  deriving DecidableEq

def Connection.touches (c : Connection) (e : EndpointId) : Bool :=
  c.source == e || c.target == e

structure Memory where
  /-- The id of the container, or its tag when it has no id. -/
  container : Option String
  draggables : Table ItemId Size
  positions : Table ItemId Point
  endpoints : Table EndpointId Endpoint
  connections : List Connection

namespace Memory

def empty : Memory := ⟨none, [], [], [], []⟩

def connectionCount (m : Memory) (e : EndpointId) : Nat :=
  m.connections.countP fun c => c.touches e

def isFull (m : Memory) (e : Endpoint) : Bool :=
  e.style.limit.any fun limit => limit ≤ m.connectionCount e.id

def connect (m : Memory) (id : ConnectionId) (source target : EndpointId) :
    Except Fault Memory :=
  match m.endpoints.get? source with
  | none => .error (.unknownEndpoint source)
  | some s =>
    match m.endpoints.get? target with
    | none => .error (.unknownEndpoint target)
    | some t =>
      if s.role ≠ .source ∨ t.role ≠ .target then .error (.roleMismatch s.role t.role)
      else if m.isFull s then .error (.connectionLimit s.id)
      else if m.isFull t then .error (.connectionLimit t.id)
      else .ok { m with connections := m.connections ++ [⟨id, s.id, t.id⟩] }

def endpointsOf (m : Memory) (item : ItemId) : List EndpointId :=
  (m.endpoints.filter fun e => e.2.item == item).map (·.1)

def removeElement (m : Memory) (item : ItemId) : Memory :=
  let gone := m.endpointsOf item
  { m with
    draggables := m.draggables.erase item
    positions := m.positions.erase item
    endpoints := m.endpoints.filter fun e => e.2.item != item
    connections :=
      m.connections.filter fun c => !gone.contains c.source && !gone.contains c.target }

def call : Library Memory
  | .setContainer e, _ => (.ok (), { empty with container := some (e.id.getD e.tag) })
  | .makeDraggable item box, m => (.ok (), { m with draggables := m.draggables.set item box })
  | .moveItem item p, m => (.ok (), { m with positions := m.positions.set item p })
  | .addEndpoint e, m => (.ok (), { m with endpoints := m.endpoints.set e.id e })
  | .connect id s t, m =>
    match m.connect id s.id t.id with
    | .error f => (.error f, m)
    | .ok m => (.ok (), m)
  | .removeElement item, m => (.ok (), m.removeElement item)

end Memory

end DiagramEditor.Wiring
