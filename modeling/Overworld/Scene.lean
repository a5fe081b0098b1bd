import Overworld.Event

/-!
Scenes and what stands in them.

A scene has a map, a place where the player may start, actors with behaviour, and sprites without.
All of it is fixed; what changes while a scene is played is the stage.
-/

namespace Overworld

/-- The picture of a sprite and its size in pixels. -/
structure SpriteSheet where
  name : String
  width : Int
  height : Int
deriving DecidableEq, Repr

/-- The sheet of the default size. -/
def SpriteSheet.named (name : String) : SpriteSheet := ⟨name, 16, 16⟩

/-- The sheet of a sprite that names none. -/
def SpriteSheet.standard : SpriteSheet := .named "sprite_default"

/-- Where the player stands when a scene is entered. -/
structure PlayerSpawn where
  x : Expression
  y : Expression
  z : Expression
  direction : Direction
  sheet : SpriteSheet
deriving DecidableEq, Repr

/-- A player on a tile, facing down. -/
def PlayerSpawn.at (x y : Int) : PlayerSpawn := ⟨.ofInt x, .ofInt y, .zero, .down, .standard⟩

/-- An actor of a scene, with the lists to run on entry, when the player turns to it, and in every
frame. -/
structure ActorDef where
  id : String
  name : String
  x : Expression
  y : Expression
  z : Expression
  direction : Direction
  sheet : SpriteSheet
  init : Handle
  interact : Handle
  update : Handle
deriving DecidableEq, Repr

/-- An actor without behaviour on a tile, facing down. -/
def ActorDef.at (name : String) (x y : Int) : ActorDef :=
  ⟨"", name, .ofInt x, .ofInt y, .zero, .down, .standard, .empty, .empty, .empty⟩

/-- Whether an actor goes by a name, which may be its id. -/
def ActorDef.answersTo (a : ActorDef) (name : String) : Bool :=
  a.name == name || (a.id != "" && a.id == name)

/-- A sprite of a scene that does nothing. -/
structure PropDef where
  id : String
  name : String
  x : Expression
  y : Expression
  z : Expression
  sheet : SpriteSheet
deriving DecidableEq, Repr

/-- A prop on a tile. -/
def PropDef.at (name : String) (x y : Int) (sheet : SpriteSheet) : PropDef :=
  ⟨"", name, .ofInt x, .ofInt y, .zero, sheet⟩

/-- An event list with a name, to be run from others. -/
structure Script where
  id : String
  name : String
  events : Handle
deriving DecidableEq, Repr

/-- The script that does nothing. -/
def Script.empty : Script := ⟨"", "", .empty⟩

/-- Whether a script goes by a name, which may be its id. -/
def Script.answersTo (s : Script) (name : String) : Bool :=
  name != "" && (s.name == name || s.id == name)

/-- A scene. Its own events run when it is entered. -/
structure Scene where
  id : String
  name : String
  background : Option String
  events : Handle
  player : Option PlayerSpawn
  map : Option TileMap
  actors : List ActorDef
  props : List PropDef
deriving DecidableEq, Repr

namespace Scene

/-- A scene with nothing in it. -/
def called (name : String) : Scene := ⟨"", name, none, .empty, none, none, [], []⟩

/-- The scene that stands in for every scene that does not exist. -/
def fallback : Scene := .called ""

instance : Inhabited Scene := ⟨fallback⟩

/-- Whether a scene goes by a name, which may be its id. -/
def answersTo (s : Scene) (name : String) : Bool :=
  name != "" && (s.name == name || s.id == name)

/-- The background to show. -/
def backgroundName (s : Scene) : String := s.background.getD "bg_default"

/-- The name to call a scene by in messages. -/
def label (s : Scene) : String := if s.name = "" then "default" else s.name

end Scene

end Overworld
