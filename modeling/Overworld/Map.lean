import Overworld.Direction

/-!
Tile maps.

A map is a grid of tiles, each `grid` pixels wide and high, stored row by row. A cell of 1 blocks
movement, and so does every place outside the map. Sensors are rectangles of tiles that trigger an
event list when the player steps on them.

Tiles and pixels are numbers of any size here. `Overworld.Proofs.Words` computes the points of a map
with 32 bits.
-/

namespace Overworld

/-- A tile of a map, counted from its top left corner. -/
structure Tile where
  x : Int
  y : Int
deriving DecidableEq, Repr, Inhabited

/-- The tile a step away. -/
def Tile.step (t : Tile) (d : Direction) : Tile := ⟨t.x + d.offset.1, t.y + d.offset.2⟩

/-- A point in pixels. Points of a map count from its top left corner, points of the world and of
the camera from the middle of the map. -/
structure Pixel where
  x : Int
  y : Int
deriving DecidableEq, Repr, Inhabited

/-- The point where both coordinates are zero. -/
def Pixel.origin : Pixel := ⟨0, 0⟩

/-- A reference to an event list of the graph. The handle zero always means the empty list. -/
structure Handle where
  index : Nat
deriving DecidableEq, Repr

/-- The handle of the empty list. -/
def Handle.empty : Handle := ⟨0⟩

instance : Inhabited Handle := ⟨.empty⟩

/-- A rectangle of tiles that triggers an event list. -/
structure Sensor where
  id : String
  x : Int
  y : Int
  width : Int
  height : Int
  events : Handle
deriving DecidableEq, Repr

/-- Whether a tile lies in the rectangle. -/
def Sensor.covers (s : Sensor) (t : Tile) : Bool :=
  s.x ≤ t.x && t.x < s.x + s.width && s.y ≤ t.y && t.y < s.y + s.height

/-- What can be wrong with a map. -/
inductive MapError where
  | negativeSize (width height : Int)
  | badGrid (grid : Int)
  | cellCount (expected actual : Nat)
  | badCell (index value : Nat)
deriving DecidableEq, Repr

/-- The wording of an error. -/
def MapError.message : MapError → String
  | .negativeSize width height =>
    "map dimensions must be non-negative, got " ++ toString width ++ "x" ++ toString height
  | .badGrid grid => "grid size must be positive, got " ++ toString grid
  | .cellCount expected actual =>
    "collision count mismatch: expected " ++ toString expected ++ ", got " ++ toString actual
  | .badCell index value =>
    "collision cell " ++ toString index ++ " holds " ++ toString value ++
      "; only 0 and 1 are allowed"

/-- A map of tiles. -/
structure TileMap where
  width : Int
  height : Int
  /-- The width and height of a tile in pixels. -/
  grid : Int
  /-- Row by row, 1 where movement is blocked. -/
  cells : List Nat
  sensors : List Sensor
deriving DecidableEq, Repr

namespace TileMap

/-- How many cells the size asks for. -/
def area (m : TileMap) : Nat := m.width.toNat * m.height.toNat

/-- The first thing that is wrong with a map. -/
def fault? (m : TileMap) : Option MapError :=
  if m.width < 0 ∨ m.height < 0 then some (.negativeSize m.width m.height)
  else if m.grid ≤ 0 then some (.badGrid m.grid)
  else if m.area ≠ m.cells.length then some (.cellCount m.area m.cells.length)
  else
    (m.cells.zipIdx.find? fun cell => decide (1 < cell.1)).map fun cell => .badCell cell.2 cell.1

/-- A map without sensors, if nothing is wrong with it. -/
def make (width height grid : Int) (cells : List Nat) : Except MapError TileMap :=
  let m : TileMap := ⟨width, height, grid, cells, []⟩
  match m.fault? with
  | some e => .error e
  | none => .ok m

/-- A map on which nothing blocks movement. -/
def clear (width height grid : Int) : Except MapError TileMap :=
  make width height grid (List.replicate (width.toNat * height.toNat) 0)

/-- The map with one more sensor. -/
def withSensor (m : TileMap) (s : Sensor) : TileMap := { m with sensors := m.sensors ++ [s] }

/-- The width in pixels. -/
def pixelWidth (m : TileMap) : Int := m.width * m.grid

/-- The height in pixels. -/
def pixelHeight (m : TileMap) : Int := m.height * m.grid

/-- The top left pixel of a tile. -/
def pixelOf (m : TileMap) (t : Tile) : Pixel := ⟨t.x * m.grid, t.y * m.grid⟩

/-- The tile that a pixel lies on. Tiles of no size have no pixels. -/
def tileOf? (m : TileMap) (p : Pixel) : Option Tile :=
  if m.grid = 0 then none else some ⟨p.x / m.grid, p.y / m.grid⟩

/-- The place of a tile among the cells, if the tile is on the map. -/
def index? (m : TileMap) (t : Tile) : Option Nat :=
  if t.x < 0 ∨ m.width ≤ t.x ∨ t.y < 0 ∨ m.height ≤ t.y then none
  else some (t.y.toNat * m.width.toNat + t.x.toNat)

/-- Whether a tile blocks movement. -/
def blocked (m : TileMap) (t : Tile) : Bool :=
  match m.index? t with
  | some i =>
    match m.cells[i]? with
    | some cell => cell == 1
    | none => true
  | none => true

/-- The first sensor on a tile. -/
def sensorAt? (m : TileMap) (t : Tile) : Option Sensor := m.sensors.find? (·.covers t)

/-- The corner of a tile lies on the tile, if tiles have a size. -/
theorem tileOf?_pixelOf {m : TileMap} (sized : 0 < m.grid) (t : Tile) :
    m.tileOf? (m.pixelOf t) = some t := by
  have size : m.grid ≠ 0 := by omega
  simp [tileOf?, pixelOf, size]

end TileMap

end Overworld
