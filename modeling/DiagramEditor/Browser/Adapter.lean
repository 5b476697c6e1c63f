import DiagramEditor.Browser.Value
import DiagramEditor.Decimal.Layout
import DiagramEditor.Form.Endpoint
import DiagramEditor.Table
import DiagramEditor.Wiring.Library
/-!
A connection library over a drawing library that lives on a page. Calls are carried out by functions
of the drawing library and by styles of elements, any of which may fail; what has been registered is
kept aside, where scripts of the page cannot reach it: the draggable items since the container was
set, and for each endpoint its item and the handle that the library gave for it.
-/
namespace DiagramEditor.Browser

structure Registry (η : Type) where
  draggables : List ItemId
  endpoints : Table EndpointId (ItemId × η)

namespace Registry

variable {η : Type}

def empty : Registry η := ⟨[], []⟩

def addDraggable (r : Registry η) (item : ItemId) : Registry η :=
  if r.draggables.contains item then r else { r with draggables := r.draggables ++ [item] }

def addEndpoint (r : Registry η) (id : EndpointId) (item : ItemId) (handle : η) : Registry η :=
  { r with endpoints := r.endpoints.set id (item, handle) }

def handle (r : Registry η) (id : EndpointId) : Except Fault η :=
  match r.endpoints.get? id with
  | none => .error (.unknownEndpoint id)
  | some (_, h) => .ok h

def hasEndpoints (r : Registry η) (item : ItemId) : Bool :=
  r.endpoints.any fun e => e.2.1 == item

def forget (r : Registry η) (item : ItemId) : Registry η :=
  ⟨r.draggables.filter (· != item), r.endpoints.filter fun e => e.2.1 != item⟩

end Registry

inductive Failure
  | notCallable
  | threw (v : Value)

/-- What is asked of a page, as functions on its state `π`; `ν` are its elements. -/
structure Host (π ν : Type) where
  invoke : String → List Value → π → Except Failure Value × π
  elementById? : String → π → Option ν
  hasStyle : ν → Bool
  setStyle : ν → String → String → π → Except Value Unit × π
  parse : String → π → Except Value Value × π

def thrown (context : String) (v : Value) : Fault :=
  .library ("javascript error: " ++ context ++ ": " ++ v.thrownText)

def Failure.fault (method : String) : Failure → Fault
  | .notCallable => .library ("jsPlumb instance has no `" ++ method ++ "` function")
  | .threw v => thrown method v

structure Adapter (π : Type) where
  page : π
  registry : Registry Value

namespace Adapter

variable {π ν : Type} (h : Host π ν)

def register (f : Registry Value → Registry Value) (a : Adapter π) : Adapter π :=
  { a with registry := f a.registry }

def invoke (method : String) (arguments : List Value) (a : Adapter π) :
    Except Fault Value × Adapter π :=
  match h.invoke method arguments a.page with
  | (.error f, page) => (.error (f.fault method), { a with page := page })
  | (.ok v, page) => (.ok v, { a with page := page })

def element (item : ItemId) (a : Adapter π) : Except Fault ν :=
  match h.elementById? item.text a.page with
  | none => .error (.unknownItem item)
  | some n =>
    if h.hasStyle n then .ok n
    else .error (.library ("`" ++ item.text ++ "` is not an HTML element"))

/-- Sets style properties in order up to the first that throws. -/
def setStyles (n : ν) : List (String × String) → Adapter π → Except Fault Unit × Adapter π
  | [], a => (.ok (), a)
  | (property, value) :: rest, a =>
    match h.setStyle n property value a.page with
    | (.error v, page) => (.error (thrown "style" v), { a with page := page })
    | (.ok (), page) => setStyles n rest { a with page := page }

def setContainer (e : Element) (a : Adapter π) : Except Fault Unit × Adapter π :=
  match e.id with
  | none =>
    (.error (.library "canvas element needs an id to be the jsPlumb container"), a)
  | some id =>
    match invoke h "setContainer" [.string id] a with
    | (.error f, a) => (.error f, a)
    | (.ok _, a) => (.ok (), a.register fun _ => .empty)

def makeDraggable (item : ItemId) (a : Adapter π) : Except Fault Unit × Adapter π :=
  match element h item a with
  | .error f => (.error f, a)
  | .ok n =>
    match setStyles h n [("position", "absolute")] a with
    | (.error f, a) => (.error f, a)
    | (.ok (), a) => (.ok (), a.register fun r => r.addDraggable item)

/-- Moves the element, and has its endpoints drawn again if it has any. -/
def moveItem (item : ItemId) (p : Point) (a : Adapter π) : Except Fault Unit × Adapter π :=
  match element h item a with
  | .error f => (.error f, a)
  | .ok n =>
    match setStyles h n [("left", Decimal.pixels p.x), ("top", Decimal.pixels p.y)] a with
    | (.error f, a) => (.error f, a)
    | (.ok (), a) =>
      if a.registry.hasEndpoints item then
        match invoke h "revalidate" [.string item.text] a with
        | (.error f, a) => (.error f, a)
        | (.ok _, a) => (.ok (), a)
      else (.ok (), a)

def addEndpoint (e : Endpoint) (a : Adapter π) : Except Fault Unit × Adapter π :=
  match h.parse (Wiring.endpointOptions e).text a.page with
  | (.error v, page) => (.error (thrown "JSON.parse" v), { a with page := page })
  | (.ok options, page) =>
    match invoke h "addEndpoint" [.string e.item.text, options] { a with page := page } with
    | (.error f, a) => (.error f, a)
    | (.ok handle, a) => (.ok (), a.register fun r => r.addEndpoint e.id e.item handle)

def connect (source target : EndpointId) (a : Adapter π) : Except Fault Unit × Adapter π :=
  match a.registry.handle source with
  | .error f => (.error f, a)
  | .ok first =>
    match a.registry.handle target with
    | .error f => (.error f, a)
    | .ok second =>
      match invoke h "connect" [.object [("source", first), ("target", second)]] a with
      | (.error f, a) => (.error f, a)
      | (.ok v, a) =>
        if v.isPresent then (.ok (), a)
        else (.error (.library "jsPlumb refused the connection"), a)

def removeElement (item : ItemId) (a : Adapter π) : Except Fault Unit × Adapter π :=
  match invoke h "remove" [.string item.text] a with
  | (.error f, a) => (.error f, a)
  | (.ok _, a) => (.ok (), a.register fun r => r.forget item)

def library : Wiring.Library (Adapter π)
  | .setContainer e, a => setContainer h e a
  | .makeDraggable item _, a => makeDraggable h item a
  | .moveItem item p, a => moveItem h item p a
  | .addEndpoint e, a => addEndpoint h e a
  | .connect _ source target, a => connect h source.id target.id a
  | .removeElement item, a => removeElement h item a

end Adapter

end DiagramEditor.Browser
