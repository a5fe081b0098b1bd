import Overworld.Play.Control

/-!
Playing scenes.

A scene is entered, played frame by frame until an event asks for another one, and left. A run goes
from scene to scene until the host stops, which is its only regular end.
-/

namespace Overworld.Play

/-! ### Entering a scene -/

/-- Where the player shall stand: where the last request said, if it was for this scene and gave
both coordinates, and else where the scene says. A request is used once. -/
def startPosition (scene : Scene) (spawn : PlayerSpawn) : Play (Tile × Direction) := do
  match (← get).pending with
  | some request =>
    if scene.answersTo request.target then
      let tile ← tileAt request.start.x request.start.y
      if tile.x ≠ unsetCoordinate ∧ tile.y ≠ unsetCoordinate then
        modify fun s => { s with pending := none }
        return (tile, request.start.direction)
  | none => pure ()
  let tile ← tileAt spawn.x spawn.y
  return (tile, spawn.direction)

/-- Bring the player onto the stage, and the camera to it. Without a map there is no player. -/
def enterPlayer (config : Config) (scene : Scene) (spawn : PlayerSpawn) : Play Unit := do
  match scene.map with
  | none => return
  | some map =>
    let (tile, d) ← startPosition scene spawn
    let z ← intOf spawn.z
    modify fun s =>
      let (player, host) := Player.enter s.host map spawn.sheet tile d z
      let camera := (ScrollBounds.ofMap map config).following map player.position
      { s with host := host, stage := { s.stage with player := some player, camera := camera } }

/-- Bring a prop onto the stage. -/
def enterProp (map : Option TileMap) (definition : PropDef) : Play Unit := do
  let tile ← tileAt definition.x definition.y
  let z ← intOf definition.z
  modify fun s =>
    let (prop, host) := definition.enter s.host map tile z
    { s with host := host, stage := { s.stage with props := s.stage.props ++ [prop] } }

/-- Bring an actor onto the stage. -/
def enterActor (map : Option TileMap) (definition : ActorDef) : Play Unit := do
  let tile ← tileAt definition.x definition.y
  let z ← intOf definition.z
  modify fun s =>
    let (actor, host) := Actor.enter s.host map definition tile z
    { s with host := host, stage := { s.stage with actors := s.stage.actors ++ [actor] } }

/-- The scene of a name, or the fallback; a scene that does not exist is reported. -/
def findScene (graph : SceneGraph) (name : String) : Play Scene := do
  match graph.scene? name with
  | some scene => return scene
  | none =>
    note (.sceneMissing name)
    return .fallback

/-- Leave the stage for the bare one of another scene. -/
def openScene (graph : SceneGraph) (name : String) : Play Scene := do
  recordScene name
  modify fun s =>
    let (stage, host) := s.stage.clear s.host
    { s with host := host, stage := stage }
  let scene ← findScene graph name
  onStage fun _ => .bare scene
  return scene

/-- Show the scene from where its camera is, bring the props and the actors onto the stage, each
actor with its first events, and run the events of the scene. Handlers that actors register are
dropped. -/
def furnish (game : Game) (scene : Scene) : Play Unit := do
  modify fun s => { s with host := s.host.setCamera s.stage.camera }
  scene.props.forM (enterProp scene.map)
  scene.actors.forM fun definition => do
    enterActor scene.map definition
    runList game definition.init false
  modify fun s => { s with stage := { s.stage with handlers := [] }, entered := s.entered + 1 }
  note (.sceneEntered scene.label scene.actors.length (← get).stage.player.isSome)
  runList game scene.events false

/-- Fill the bare stage of a scene: the background, the player, and then everything else with its
first events. -/
def build (game : Game) (scene : Scene) : Play Unit := do
  showBackground
  if let some spawn := scene.player then enterPlayer game.config scene spawn
  furnish game scene

/-- Leave the stage and build that of another scene. -/
def enterScene (game : Game) (name : String) : Play Unit := do
  let scene ← openScene game.graph name
  build game scene

/-! ### Playing a scene -/

/-- Run everything that happens in a frame: the handlers, the player, the actors. -/
def enactFrame (game : Game) : Play Unit := do
  (← get).stage.handlers.forM (runEvent game game.config.maxDepth true)
  if (← get).stage.player.isSome then control game
  (← get).stage.actors.forM fun actor => runList game actor.definition.update true

/-- One frame: everything that happens in it, and then the host. -/
def playFrame (game : Game) : Play Unit := do
  enactFrame game
  advance

/-- Play frames until a scene is asked for, at most as many as given. -/
def framesUntilRequest (game : Game) : Nat → Play SceneRequest
  | 0 => throw .endless
  | n + 1 => do
    match (← get).stage.request with
    | some request => return request
    | none =>
      playFrame game
      framesUntilRequest game n

/-- Play the scene until it asks for another, hide it and keep the request in mind. -/
def playScene (game : Game) : Play SceneRequest := do
  let request ← framesUntilRequest game patience
  changeBackground fun b => { b with visible := false }
  showBackground
  modify fun s => { s with pending := some request }
  return request

/-! ### Whole runs -/

/-- Enter a scene and play it until it asks for another. -/
def visit (game : Game) (name : String) : Play SceneRequest := do
  enterScene game name
  playScene game

/-- How many scenes a run can enter, since they are counted in 32 bits. -/
def sceneCeiling : Nat := Number.word32

/-- Play from scene to scene, starting with the one of a name, until the host stops; how it did. -/
def playScenes (game : Game) : (scenes : Nat) → (name : String) → Play HostStop
  | 0, _ => throw .endless
  | scenes + 1, name => fun s =>
    match visit game name s with
    | .ok request s => playScenes game scenes request.target s
    | .error (.host stop) s => .ok stop s
    | .error halt s => .error halt s

/-- Play a game from its starting scene until the host stops. -/
def run (game : Game) : Play RunSummary := do
  let stop ← playScenes game (sceneCeiling - (← get).entered) game.graph.start
  let s ← get
  let summary : RunSummary := ⟨s.host.frame, s.entered, s.stage.scene.label, stop⟩
  note (.runStopped summary)
  return summary

end Overworld.Play

namespace Overworld

/-- A session of a game before its first scene is entered. -/
def Game.session (game : Game) (host : Host) : Except VariableError Session := do
  let vars ← game.graph.freshVariables
  return .start host vars (.bare .fallback)

end Overworld
