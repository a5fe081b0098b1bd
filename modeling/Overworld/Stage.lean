import Overworld.Entity

/-!
The stage: everything that lives from the entry to a scene until it is left.
-/

namespace Overworld

/-- A change of scene that an event asked for. -/
structure SceneRequest where
  target : String
  start : StartPosition
deriving DecidableEq, Repr

/-- The stage of a scene. -/
structure Stage where
  scene : Scene
  background : Background
  actors : List Actor
  props : List SpriteHandle
  player : Option Player
  /-- The events that are run again in every frame. -/
  handlers : List Event
  camera : Pixel
  request : Option SceneRequest
deriving DecidableEq, Repr

namespace Stage

/-- The stage of a scene before anything is on it. -/
def bare (scene : Scene) : Stage :=
  ⟨scene, .hidden scene.backgroundName, [], [], none, [], .origin, none⟩

instance : Inhabited Stage := ⟨bare .fallback⟩

/-- The map of the scene. -/
def map (stage : Stage) : Option TileMap := stage.scene.map

/-- Whether the scene is about to change. -/
def changing (stage : Stage) : Bool := stage.request.isSome

/-- The first actor that goes by a name. -/
def actor? (stage : Stage) (name : String) : Option Actor := stage.actors.find? (·.answersTo name)

/-- Whether an actor is in the way on a tile. -/
def occupied (stage : Stage) (tile : Tile) : Bool := stage.actors.any (·.occupies tile)

/-- The first actor that is in the way one step from a tile. -/
def actorBeside? (stage : Stage) (tile : Tile) (d : Direction) : Option Nat :=
  stage.actors.findIdx? (·.occupies (tile.step d))

/-- The sprites of everything on the stage. -/
def sprites (stage : Stage) : List SpriteHandle :=
  stage.actors.map (·.sprite) ++ stage.props ++ (stage.player.map (·.sprite)).toList

/-- Let the player and the actors take part in fades, or not. -/
def setBlending (stage : Stage) (host : Host) (blending : Bool) : Host :=
  ((stage.player.map (·.sprite)).toList ++ stage.actors.map (·.sprite)).foldl
    (fun host sprite => host.setBlending sprite blending) host

/-- Clear the stage: everything leaves, nothing is run any more, and the background is hidden. -/
def clear (stage : Stage) (host : Host) : Stage × Host :=
  let background := { stage.background with visible := false }
  let cleared : Stage :=
    { stage with
      background := background, actors := [], props := [], player := none, handlers := [] }
  (cleared, (stage.sprites.foldl Host.destroySprite host).setBackground background)

/-! ### What fades and leaving keep of the host -/

/-- Letting entities take part in fades changes nothing of the host but sprites. -/
theorem setBlending_eq (stage : Stage) (host : Host) (blending : Bool) :
    stage.setBlending host blending =
      { host with sprites := (stage.setBlending host blending).sprites } := by
  unfold setBlending
  generalize (stage.player.map (·.sprite)).toList ++ stage.actors.map (·.sprite) = handles
  induction handles generalizing host with
  | nil => rfl
  | cons h handles ih => exact ih (host.setBlending h blending)

/-- Clearing the stage changes nothing of the host but sprites and the background. -/
theorem clear_eq (stage : Stage) (host : Host) :
    (stage.clear host).2 =
      { host with
        sprites := (stage.clear host).2.sprites
        background := some { stage.background with visible := false } } := by
  unfold clear
  generalize stage.sprites = handles
  induction handles generalizing host with
  | nil => rfl
  | cons h handles ih => exact ih (host.destroySprite h)

end Stage

end Overworld
