/-!
Points, sizes and rectangles, in page space or in the frame of a canvas. `contain` moves the corner
of a box to the nearest place where the box lies inside a container anchored at the origin.
-/
namespace DiagramEditor

structure Point where
  x : Float
  y : Float

structure Size where
  width : Float
  height : Float

structure Rect where
  x : Float
  y : Float
  width : Float
  height : Float

def Point.sub (p q : Point) : Point :=
  ⟨p.x - q.x, p.y - q.y⟩

namespace Rect

def zero : Rect := ⟨0, 0, 0, 0⟩

def origin (r : Rect) : Point := ⟨r.x, r.y⟩

def size (r : Rect) : Size := ⟨r.width, r.height⟩

/-- Edges belong to the rectangle. -/
def contains (r : Rect) (p : Point) : Bool :=
  r.x ≤ p.x && p.x ≤ r.x + r.width && r.y ≤ p.y && p.y ≤ r.y + r.height

def toLocal (r : Rect) (page : Point) : Point :=
  page.sub r.origin

def toPage (r : Rect) (inside : Point) : Point :=
  ⟨inside.x + r.x, inside.y + r.y⟩

end Rect

/-- The larger of two doubles. What is not a number gives way to the other. -/
def larger (x y : Float) : Float :=
  if y < x || y.isNaN then x else y

def clampBetween? (low high x : Float) : Option Float :=
  if low ≤ high then some (if x < low then low else if high < x then high else x) else none

def contain? (corner : Point) (box container : Size) : Option Point := do
  let x ← clampBetween? 0 (larger (container.width - box.width) 0) corner.x
  let y ← clampBetween? 0 (larger (container.height - box.height) 0) corner.y
  return ⟨x, y⟩

/-- How far a box may move along an axis: the difference of the extents when it is positive, and
not at all otherwise, also when the difference is not a number. -/
def slack (container box : Float) : Float :=
  if 0 < container - box then container - box else 0

/-- The value itself between `0` and `high`, else the nearer end. What is not a number stays so. -/
def clampTo (high x : Float) : Float :=
  if x < 0 then 0 else if high < x then high else x

/-- What `contain?` gives. A box larger than its container is pinned to the origin on that axis. -/
def contain (corner : Point) (box container : Size) : Point :=
  ⟨clampTo (slack container.width box.width) corner.x,
    clampTo (slack container.height box.height) corner.y⟩

end DiagramEditor
