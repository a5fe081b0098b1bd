import Overworld.Scene
import Overworld.Config
import Overworld.Host

/-!
What stands on the stage: actors, props and the player, and how they are drawn.

An entity knows where it is on the map; the host only knows where its sprite is in the world. Every
change of the one is passed on to the other here.
-/

namespace Overworld

/-! ### Pictures and positions -/

/-- The picture of an entity that stands still, and whether it is flipped: left is right,
flipped. -/
def Direction.idlePicture : Direction → Nat × Bool
  | .down => (0, false)
  | .up => (1, false)
  | .right => (2, false)
  | .left => (2, true)

/-- The four pictures of a walk. -/
def Direction.walkPictures : Direction → List Nat
  | .down => [4, 0, 5, 0]
  | .up => [6, 1, 7, 1]
  | .left | .right => [8, 2, 9, 2]

/-- The middle of a sprite in the world, from the top left corner of the entity on the map. -/
def worldPosition (map : Option TileMap) (corner : Pixel) (sheet : SpriteSheet) : Pixel :=
  let width := (map.map TileMap.pixelWidth).getD 0
  let height := (map.map TileMap.pixelHeight).getD 0
  ⟨corner.x - width.tdiv 2 + sheet.width.tdiv 2, corner.y - height.tdiv 2 + sheet.height.tdiv 2⟩

/-- The corner of a tile; without a map, the corner of everything. -/
def tileCorner (map : Option TileMap) (tile : Tile) : Pixel :=
  match map with
  | some m => m.pixelOf tile
  | none => .origin

/-- The sprite of an entity that has just come. -/
def newSprite (sheet : SpriteSheet) (position : Pixel) (z : Int) (picture : Nat × Bool) :
    Sprite where
  sheet := sheet.name
  width := sheet.width
  height := sheet.height
  position := position
  z := z
  frame := picture.1
  flip := picture.2
  visible := true
  blending := false

/-- Show a sprite facing a direction. -/
def Host.faceSprite (host : Host) (h : SpriteHandle) (d : Direction) : Host :=
  (host.setFrame h d.idlePicture.1).setFlip h d.idlePicture.2

/-! ### Actors -/

/-- An actor on the stage. -/
structure Actor where
  definition : ActorDef
  tile : Tile
  direction : Direction
  visible : Bool
  sprite : SpriteHandle
deriving DecidableEq, Repr

namespace Actor

/-- Whether the actor goes by a name. -/
def answersTo (a : Actor) (name : String) : Bool := a.definition.answersTo name

/-- Whether the actor is in the way on a tile. Hidden actors are not. -/
def occupies (a : Actor) (tile : Tile) : Bool := a.visible && a.tile == tile

/-- An actor that comes onto the stage, on a tile and at a depth. -/
def enter (host : Host) (map : Option TileMap) (definition : ActorDef) (tile : Tile) (z : Int) :
    Actor × Host :=
  let position := worldPosition map (tileCorner map tile) definition.sheet
  let (sprite, host) :=
    host.createSprite (newSprite definition.sheet position z definition.direction.idlePicture)
  (⟨definition, tile, definition.direction, true, sprite⟩, host)

/-- Turn the actor. -/
def face (a : Actor) (host : Host) (d : Direction) : Actor × Host :=
  ({ a with direction := d }, host.faceSprite a.sprite d)

/-- Show or hide the actor. -/
def setVisible (a : Actor) (host : Host) (visible : Bool) : Actor × Host :=
  ({ a with visible := visible }, host.showSprite a.sprite visible)

end Actor

/-! ### Props -/

/-- A prop that comes onto the stage; all that is kept of it is its sprite. -/
def PropDef.enter (host : Host) (map : Option TileMap) (definition : PropDef) (tile : Tile)
    (z : Int) : SpriteHandle × Host :=
  let position := worldPosition map (tileCorner map tile) definition.sheet
  host.createSprite (newSprite definition.sheet position z (0, false))

/-! ### The player -/

/-- The player on the stage, placed by its top left corner on the map. -/
structure Player where
  position : Pixel
  direction : Direction
  sheet : SpriteSheet
  sprite : SpriteHandle
deriving DecidableEq, Repr

namespace Player

/-- A player that comes onto the stage. -/
def enter (host : Host) (map : TileMap) (sheet : SpriteSheet) (tile : Tile) (d : Direction)
    (z : Int) : Player × Host :=
  let corner := map.pixelOf tile
  let (sprite, host) :=
    host.createSprite (newSprite sheet (worldPosition (some map) corner sheet) z d.idlePicture)
  (⟨corner, d, sheet, sprite⟩, host)

/-- Turn the player. -/
def face (p : Player) (host : Host) (d : Direction) : Player × Host :=
  ({ p with direction := d }, host.faceSprite p.sprite d)

/-- Move the player. -/
def place (p : Player) (host : Host) (map : TileMap) (position : Pixel) : Player × Host :=
  ({ p with position := position },
    host.moveSprite p.sprite (worldPosition (some map) position p.sheet))

end Player

/-! ### Walking pictures -/

/-- The pictures of a walk under way. The picture changes once in `wait` ticks, in a cycle of
four. -/
structure WalkCycle where
  pictures : List Nat
  wait : Nat
  /-- The ticks since the picture changed. -/
  counter : Nat
  /-- The next picture. -/
  index : Nat
deriving DecidableEq, Repr

namespace WalkCycle

/-- The walk in a direction, before its first tick. -/
def start (d : Direction) (wait : Nat) : WalkCycle := ⟨d.walkPictures, max wait 1, 0, 0⟩

/-- The picture that the next tick brings, if it brings one. -/
def picture? (w : WalkCycle) : Option Nat := if w.counter = 0 then w.pictures[w.index]? else none

/-- The walk one tick later. -/
def next (w : WalkCycle) : WalkCycle :=
  { w with
    index := if w.counter = 0 then (w.index + 1) % w.pictures.length else w.index
    counter := (w.counter + 1) % w.wait }

/-- Let the walk go on for one tick and show its picture. -/
def tick (w : WalkCycle) (host : Host) (sprite : SpriteHandle) : WalkCycle × Host :=
  match w.picture? with
  | some picture => (w.next, host.setFrame sprite picture)
  | none => (w.next, host)

end WalkCycle

end Overworld
