import Overworld.Graph
import Overworld.Format.Event

/-!
The JSON form of scene graphs.

Everything but names has a default, so a graph may leave out nearly all of its fields; written back
it shows every field. Unknown fields are passed over.
-/

namespace Overworld

open Json

/-! ### Maps -/

/-- The fields of a sensor, as far as they were read. -/
structure SensorFields where
  id : Option String := none
  x : Option Int := none
  y : Option Int := none
  width : Option Int := none
  height : Option Int := none
  events : Option Handle := none

/-- Reads a sensor. -/
def Sensor.reader : Reader Sensor :=
  recordOf
    [field "id" plainText (·.id) fun p v => { p with id := some v },
     field "x" int32 (·.x) fun p v => { p with x := some v },
     field "y" int32 (·.y) fun p v => { p with y := some v },
     field "width" int32 (·.width) fun p v => { p with width := some v },
     field "height" int32 (·.height) fun p v => { p with height := some v },
     field "events" Handle.reader (·.events) fun p v => { p with events := some v }]
    ({} : SensorFields)
    fun p => do
      let x ← p.x
      let y ← p.y
      return ⟨p.id.getD "", x, y, p.width.getD 1, p.height.getD 1, p.events.getD .empty⟩

/-- The fields of a map, as far as they were read. -/
structure MapFields where
  width : Option Int := none
  height : Option Int := none
  grid : Option Int := none
  cells : Option (List Nat) := none
  sensors : Option (List Sensor) := none

/-- Reads a map, whether anything is wrong with it or not. -/
def TileMap.reader : Reader TileMap :=
  recordOf
    [field "width" int32 (·.width) fun p v => { p with width := some v },
     field "height" int32 (·.height) fun p v => { p with height := some v },
     field "grid_size" int32 (·.grid) fun p v => { p with grid := some v },
     field "collisions" (listOf (natBelow 256)) (·.cells) fun p v => { p with cells := some v },
     field "sensors" (listOf Sensor.reader) (·.sensors) fun p v => { p with sensors := some v }]
    ({} : MapFields)
    fun p => do
      let width ← p.width
      let height ← p.height
      return ⟨width, height, p.grid.getD 16, p.cells.getD [], p.sensors.getD []⟩

/-! ### What stands in a scene -/

/-- The fields of a sprite sheet, as far as they were read. -/
structure SheetFields where
  name : Option String := none
  width : Option Int := none
  height : Option Int := none

/-- Reads a sprite sheet. -/
def SpriteSheet.reader : Reader SpriteSheet :=
  recordOf
    [field "name" plainText (·.name) fun p v => { p with name := some v },
     field "width" int32 (·.width) fun p v => { p with width := some v },
     field "height" int32 (·.height) fun p v => { p with height := some v }]
    ({} : SheetFields)
    fun p => some
      ⟨p.name.getD SpriteSheet.standard.name, p.width.getD SpriteSheet.standard.width,
        p.height.getD SpriteSheet.standard.height⟩

/-- The fields of a player spawn, as far as they were read. -/
structure SpawnFields where
  x : Option Expression := none
  y : Option Expression := none
  z : Option Expression := none
  direction : Option Direction := none
  sheet : Option SpriteSheet := none

/-- Reads a player spawn. -/
def PlayerSpawn.reader : Reader PlayerSpawn :=
  recordOf
    [field "x" Expression.reader (·.x) fun p v => { p with x := some v },
     field "y" Expression.reader (·.y) fun p v => { p with y := some v },
     field "z" Expression.reader (·.z) fun p v => { p with z := some v },
     field "direction" Direction.reader (·.direction) fun p v => { p with direction := some v },
     field "sprite" SpriteSheet.reader (·.sheet) fun p v => { p with sheet := some v }]
    ({} : SpawnFields)
    fun p => some
      ⟨p.x.getD .zero, p.y.getD .zero, p.z.getD .zero, p.direction.getD .down,
        p.sheet.getD .standard⟩

/-- The fields of an actor, as far as they were read. -/
structure ActorFields where
  id : Option String := none
  name : Option String := none
  x : Option Expression := none
  y : Option Expression := none
  z : Option Expression := none
  direction : Option Direction := none
  sheet : Option SpriteSheet := none
  init : Option Handle := none
  interact : Option Handle := none
  update : Option Handle := none

/-- Reads an actor. -/
def ActorDef.reader : Reader ActorDef :=
  recordOf
    [field "id" plainText (·.id) fun p v => { p with id := some v },
     field "name" plainText (·.name) fun p v => { p with name := some v },
     field "x" Expression.reader (·.x) fun p v => { p with x := some v },
     field "y" Expression.reader (·.y) fun p v => { p with y := some v },
     field "z" Expression.reader (·.z) fun p v => { p with z := some v },
     field "direction" Direction.reader (·.direction) fun p v => { p with direction := some v },
     field "sprite" SpriteSheet.reader (·.sheet) fun p v => { p with sheet := some v },
     field "init" Handle.reader (·.init) fun p v => { p with init := some v },
     field "interact" Handle.reader (·.interact) fun p v => { p with interact := some v },
     field "update" Handle.reader (·.update) fun p v => { p with update := some v }]
    ({} : ActorFields)
    fun p => p.name.map fun name =>
      ⟨p.id.getD "", name, p.x.getD .zero, p.y.getD .zero, p.z.getD .zero, p.direction.getD .down,
        p.sheet.getD .standard, p.init.getD .empty, p.interact.getD .empty, p.update.getD .empty⟩

/-- The fields of a prop, as far as they were read. -/
structure PropFields where
  id : Option String := none
  name : Option String := none
  x : Option Expression := none
  y : Option Expression := none
  z : Option Expression := none
  sheet : Option SpriteSheet := none

/-- Reads a prop. -/
def PropDef.reader : Reader PropDef :=
  recordOf
    [field "id" plainText (·.id) fun p v => { p with id := some v },
     field "name" plainText (·.name) fun p v => { p with name := some v },
     field "x" Expression.reader (·.x) fun p v => { p with x := some v },
     field "y" Expression.reader (·.y) fun p v => { p with y := some v },
     field "z" Expression.reader (·.z) fun p v => { p with z := some v },
     field "sprite" SpriteSheet.reader (·.sheet) fun p v => { p with sheet := some v }]
    ({} : PropFields)
    fun p => some
      ⟨p.id.getD "", p.name.getD "", p.x.getD .zero, p.y.getD .zero, p.z.getD .zero,
        p.sheet.getD .standard⟩

/-! ### Scenes, scripts, variables -/

/-- The fields of a scene, as far as they were read. -/
structure SceneFields where
  id : Option String := none
  name : Option String := none
  background : Option (Option String) := none
  events : Option Handle := none
  player : Option (Option PlayerSpawn) := none
  map : Option (Option TileMap) := none
  actors : Option (List ActorDef) := none
  props : Option (List PropDef) := none

/-- Reads a scene. -/
def Scene.reader : Reader Scene :=
  recordOf
    [field "id" plainText (·.id) fun p v => { p with id := some v },
     field "name" plainText (·.name) fun p v => { p with name := some v },
     field "background" (nullable plainText) (·.background)
       fun p v => { p with background := some v },
     field "events" Handle.reader (·.events) fun p v => { p with events := some v },
     field "player" (nullable PlayerSpawn.reader) (·.player) fun p v => { p with player := some v },
     field "map" (nullable TileMap.reader) (·.map) fun p v => { p with map := some v },
     field "actors" (listOf ActorDef.reader) (·.actors) fun p v => { p with actors := some v },
     field "sprites" (listOf PropDef.reader) (·.props) fun p v => { p with props := some v }]
    ({} : SceneFields)
    fun p => p.name.map fun name =>
      ⟨p.id.getD "", name, p.background.getD none, p.events.getD .empty, p.player.getD none,
        p.map.getD none, p.actors.getD [], p.props.getD []⟩

/-- The fields of a script, as far as they were read. -/
structure ScriptFields where
  id : Option String := none
  name : Option String := none
  events : Option Handle := none

/-- Reads a script. -/
def Script.reader : Reader Script :=
  recordOf
    [field "id" plainText (·.id) fun p v => { p with id := some v },
     field "name" plainText (·.name) fun p v => { p with name := some v },
     field "events" Handle.reader (·.events) fun p v => { p with events := some v }]
    ({} : ScriptFields)
    fun p => p.name.map fun name => ⟨p.id.getD "", name, p.events.getD .empty⟩

/-- The fields of a variable, as far as they were read. -/
structure DeclFields where
  name : Option String := none
  value : Option Value := none

/-- Reads a variable. -/
def VariableDecl.reader : Reader VariableDecl :=
  recordOf
    [field "name" plainText (·.name) fun p v => { p with name := some v },
     field "value" Value.reader (·.value) fun p v => { p with value := some v }]
    ({} : DeclFields)
    fun p => p.name.map fun name => ⟨name, p.value.getD .blank⟩

/-! ### Graphs -/

/-- The fields of a graph, as far as they were read. -/
structure GraphFields where
  start : Option (Option String) := none
  declarations : Option (List VariableDecl) := none
  scenes : Option (List Scene) := none
  scripts : Option (List Script) := none
  lists : Option (List (List Event)) := none

/-- Reads a graph, whether anything is wrong with it or not. -/
def SceneGraph.reader : Reader SceneGraph :=
  recordOf
    [field "starting_scene" (nullable plainText) (·.start) fun p v => { p with start := some v },
     field "variables" (listOf VariableDecl.reader) (·.declarations)
       fun p v => { p with declarations := some v },
     field "scenes" (listOf Scene.reader) (·.scenes) fun p v => { p with scenes := some v },
     field "scripts" (listOf Script.reader) (·.scripts) fun p v => { p with scripts := some v },
     field "event_lists" (listOf (listOf Event.reader)) (·.lists)
       fun p v => { p with lists := some v }]
    ({} : GraphFields)
    fun p => some
      ⟨p.start.getD none, p.declarations.getD [], p.scenes.getD [], p.scripts.getD [],
        p.lists.getD [[]]⟩

/-- The graph that a text starts with. -/
def SceneGraph.ofText (text : String) : Except Misread SceneGraph := readFirst reader text

/-! ### Writing -/

/-- Null, or the form of what is there. -/
def Json.ofOption {α : Type} (form : α → Json) : Option α → Json
  | none => .null
  | some x => form x

/-- The JSON form of a sensor. -/
def Sensor.toJson (s : Sensor) : Json :=
  .record
    [("id", .string s.id), ("x", .ofInt s.x), ("y", .ofInt s.y), ("width", .ofInt s.width),
     ("height", .ofInt s.height), ("events", s.events.toJson)]

/-- The JSON form of a map. -/
def TileMap.toJson (m : TileMap) : Json :=
  .record
    [("width", .ofInt m.width), ("height", .ofInt m.height), ("grid_size", .ofInt m.grid),
     ("collisions", .list (m.cells.map Json.ofNat)),
     ("sensors", .list (m.sensors.map Sensor.toJson))]

/-- The JSON form of a sprite sheet. -/
def SpriteSheet.toJson (s : SpriteSheet) : Json :=
  .record [("name", .string s.name), ("width", .ofInt s.width), ("height", .ofInt s.height)]

/-- The JSON form of a player spawn. -/
def PlayerSpawn.toJson (s : PlayerSpawn) : Json :=
  .record
    [("x", s.x.toJson), ("y", s.y.toJson), ("z", s.z.toJson), ("direction", s.direction.toJson),
     ("sprite", s.sheet.toJson)]

/-- The JSON form of an actor. -/
def ActorDef.toJson (a : ActorDef) : Json :=
  .record
    [("id", .string a.id), ("name", .string a.name), ("x", a.x.toJson), ("y", a.y.toJson),
     ("z", a.z.toJson), ("direction", a.direction.toJson), ("sprite", a.sheet.toJson),
     ("init", a.init.toJson), ("interact", a.interact.toJson), ("update", a.update.toJson)]

/-- The JSON form of a prop. -/
def PropDef.toJson (p : PropDef) : Json :=
  .record
    [("id", .string p.id), ("name", .string p.name), ("x", p.x.toJson), ("y", p.y.toJson),
     ("z", p.z.toJson), ("sprite", p.sheet.toJson)]

/-- The JSON form of a scene. -/
def Scene.toJson (s : Scene) : Json :=
  .record
    [("id", .string s.id), ("name", .string s.name),
     ("background", Json.ofOption Json.string s.background), ("events", s.events.toJson),
     ("player", Json.ofOption PlayerSpawn.toJson s.player),
     ("map", Json.ofOption TileMap.toJson s.map), ("actors", .list (s.actors.map ActorDef.toJson)),
     ("sprites", .list (s.props.map PropDef.toJson))]

/-- The JSON form of a script. -/
def Script.toJson (s : Script) : Json :=
  .record [("id", .string s.id), ("name", .string s.name), ("events", s.events.toJson)]

/-- The JSON form of a variable. -/
def VariableDecl.toJson (d : VariableDecl) : Json :=
  .record [("name", .string d.name), ("value", d.value.toJson)]

/-- The JSON form of a graph. -/
def SceneGraph.toJson (g : SceneGraph) : Json :=
  .record
    [("starting_scene", Json.ofOption Json.string g.startingScene),
     ("variables", .list (g.declarations.map VariableDecl.toJson)),
     ("scenes", .list (g.scenes.map Scene.toJson)),
     ("scripts", .list (g.scripts.map Script.toJson)),
     ("event_lists", .list (g.lists.map fun events => .list (events.map Event.toJson)))]

end Overworld
