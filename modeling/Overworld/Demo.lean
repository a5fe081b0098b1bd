import Overworld.Graph.Builder

/-!
The demo: a small game for when no other is given.

A village has a guard to talk to and a well that leads to a cellar; the cellar shows itself by
moving the camera, and leads back.
-/

namespace Overworld.Demo

/-- A change of scene. -/
def goTo (target : String) (x y : Int) (d : Direction) : Event :=
  .goToScene target ⟨.ofInt x, .ofInt y, d⟩

/-- A fade of the usual length. -/
def fadeIn : Event := .fadeIn (.ofInt 200)

/-- A fade of the usual length. -/
def fadeOut : Event := .fadeOut (.ofInt 200)

/-- A movement of the camera of half a second. -/
def pan (x y : Int) (diagonal : Bool) : Event :=
  .moveCamera (.ofInt x) (.ofInt y) (.ofInt 500) diagonal .horizontal

/-- A map on which nothing blocks movement, with one sensor. -/
def sensorMap (label : String) (width height : Int) (s : Sensor) : Except GraphError TileMap :=
  match TileMap.clear width height 16 with
  | .ok m => .ok (m.withSensor s)
  | .error e => .error (.badMap label e)

/-- The demo graph. -/
def graph : Except GraphError SceneGraph := do
  let g := SceneGraph.empty.addVariable "met_guard" (.ofBool false)
  let (pause, g) := g.addList [.playSound "menu_open" 100 1 0 32767, .showDialog "Paused"]
  let g := g.addScript "pause_menu" pause
  let (greet, g) := g.addList
    [.showDialog "Halt! The cellar is below the old well.", .setVariable "met_guard" (.ofBool true)]
  let (remind, g) := g.addList [.showDialog "Go on then."]
  let met : Condition := ⟨.equal, .variable "met_guard", .literal (.ofBool false)⟩
  let (talk, g) := g.addList [.branch [met] greet remind]
  let (toCellar, g) := g.addList [fadeOut, goTo "cellar" 1 5 .right]
  let (toVillage, g) := g.addList [fadeOut, goTo "village" 8 8 .left]
  let (openMenu, g) := g.addList [.runScript "pause_menu"]
  let (villageEvents, g) := g.addList
    [fadeIn, .playMusic "village_theme" 80 true, .onButtonPress [.start] openMenu]
  let (cellarEvents, g) := g.addList
    [fadeIn, .stopMusic, pan 19 0 false, .wait (.ofInt 250), pan 0 5 true]
  let villageMap ← sensorMap "village" 16 12 ⟨"", 10, 8, 1, 1, toCellar⟩
  let cellarMap ← sensorMap "cellar" 20 12 ⟨"", 0, 5, 1, 1, toVillage⟩
  let village : Scene :=
    { Scene.called "village" with
      id := "scene_village"
      background := some "bg_village"
      events := villageEvents
      map := some villageMap
      player := some { PlayerSpawn.at 8 8 with direction := .right, z := .ofInt 1 }
      actors := [{ ActorDef.at "guard" 8 7 with id := "actor_guard", interact := talk }]
      props := [.at "well" 11 8 (.named "well")] }
  let cellar : Scene :=
    { Scene.called "cellar" with
      id := "scene_cellar"
      background := some "bg_cellar"
      events := cellarEvents
      map := some cellarMap
      player := some { PlayerSpawn.at 2 5 with z := .ofInt 1 } }
  (((g.addScene village).addScene cellar).startAt "village").finish

end Overworld.Demo
