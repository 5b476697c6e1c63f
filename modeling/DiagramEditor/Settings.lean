import DiagramEditor.Decimal.Layout
import DiagramEditor.Endpoint
import DiagramEditor.Text.Basic
/-!
Settings of a board and the conditions on them. Of several broken conditions the first in the order
of `problem?` is reported.
-/
namespace DiagramEditor

structure Settings where
  itemClass : String := "canvas-item"
  idPrefix : String := "canvasItem"
  itemWidth : Float := 120
  itemHeight : Float := 50
  kindAttribute : String := "data-type"
  sourceStyle : Style := .source
  targetStyle : Style := .target
  logLevel : String := "info"

namespace Settings

def style (s : Settings) : Role → Style
  | .source => s.sourceStyle
  | .target => s.targetStyle

inductive Problem
  | blankClass
  | blankPrefix
  | sizeNotPositive (width height : Float)
  | blankColor (of : Role)
  | shapeNotPositive (of : Role)
  | noConnections (of : Role)
  | unknownLevel (name : String)

def styleField : Role → String
  | .source => "source_endpoint"
  | .target => "target_endpoint"

def Problem.message : Problem → String
  | .blankClass => "item_class must not be empty"
  | .blankPrefix => "item_id_prefix must not be empty"
  | .sizeNotPositive w h =>
    "item size must be positive, got " ++ Decimal.Layout.plain.text w ++ "x"
      ++ Decimal.Layout.plain.text h
  | .blankColor r => styleField r ++ ".color must not be empty"
  | .shapeNotPositive r => styleField r ++ ".shape dimensions must be positive"
  | .noConnections r => styleField r ++ ".max_connections must be at least 1"
  | .unknownLevel name => "unknown log_level: " ++ name

def levels : List String := ["trace", "debug", "info", "warn", "error"]

def isPositive (x : Float) : Bool :=
  x.isFinite && 0 < x

def shapeIsPositive : Shape → Bool
  | .dot r => isPositive r
  | .rectangle w h => isPositive w && isPositive h

def styleProblem? (r : Role) (s : Style) : Option Problem :=
  if Text.blank s.color then some (.blankColor r)
  else if !shapeIsPositive s.shape then some (.shapeNotPositive r)
  else if s.limit = some 0 then some (.noConnections r)
  else none

def levelProblem? (s : Settings) : Option Problem :=
  if levels.contains s.logLevel then none else some (.unknownLevel s.logLevel)

def problem? (s : Settings) : Option Problem :=
  if Text.blank s.itemClass then some .blankClass
  else if Text.blank s.idPrefix then some .blankPrefix
  else if !(isPositive s.itemWidth && isPositive s.itemHeight) then
    some (.sizeNotPositive s.itemWidth s.itemHeight)
  else (styleProblem? .source s.sourceStyle).or
    ((styleProblem? .target s.targetStyle).or s.levelProblem?)

end Settings

end DiagramEditor
