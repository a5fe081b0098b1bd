import Overworld.Button

/-!
The four directions of the map, with y growing downward.
-/

namespace Overworld

/-- A direction to face or to walk in. -/
inductive Direction where
  | left
  | right
  | up
  | down
deriving DecidableEq, Repr

namespace Direction

/-- Every direction once. -/
def all : List Direction := [.left, .right, .up, .down]

theorem mem_all (d : Direction) : d ∈ all := by cases d <;> decide

/-- The name of a direction in files. -/
def name : Direction → String
  | .left => "left"
  | .right => "right"
  | .up => "up"
  | .down => "down"

/-- The direction to the back. -/
def opposite : Direction → Direction
  | .left => .right
  | .right => .left
  | .up => .down
  | .down => .up

/-- The step to the next tile. -/
def offset : Direction → Int × Int
  | .left => (-1, 0)
  | .right => (1, 0)
  | .up => (0, -1)
  | .down => (0, 1)

/-- The button that walks in the direction. -/
def button : Direction → Button
  | .left => .left
  | .right => .right
  | .up => .up
  | .down => .down

end Direction

/-- The axis that a movement takes first. -/
inductive Axis where
  | horizontal
  | vertical
deriving DecidableEq, Repr

/-- The name of an axis in files. -/
def Axis.name : Axis → String
  | .horizontal => "horizontal"
  | .vertical => "vertical"

end Overworld
