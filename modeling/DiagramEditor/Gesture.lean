import DiagramEditor.Endpoint
import DiagramEditor.Geometry
/-!
Drag gestures: what a drag starts on, the gesture in progress, what the page is asked to show, and
the events that a finished drag raises.
-/
namespace DiagramEditor

inductive DragSource
  | template (kind : String)
  | item (id : ItemId)
  /-- Any other element of the page; never accepted as a drop. -/
  | foreign
  deriving DecidableEq, Repr

inductive Gesture
  | idle
  | template (kind : String) (last : Point)
  /-- An item follows the pointer, which holds it at `grab`; the drag started with it at `start`. -/
  | item (id : ItemId) (grab start : Point)
  | ignored

def Gesture.isActive : Gesture → Bool
  | .idle => false
  | _ => true

inductive Action
  | showHelper (kind : String) (position : Point)
  | moveHelper (position : Point)
  | removeHelper
  | itemPositioned (id : ItemId) (position : Point)

structure Placement where
  kind : String
  position : Point

/-- An item finished a drag; `index` is its place in the document at that time. -/
structure Move where
  index : Nat
  id : ItemId
  position : Point

inductive Event
  | placement (p : Placement)
  | move (m : Move)

end DiagramEditor
