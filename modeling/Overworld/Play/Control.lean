import Overworld.Play.Events

/-!
The player under control of the buttons.

In a frame the player may turn to an actor, or walk at most once across and once up or down. A walk
goes tile by tile for as long as its button is held, and blocks until then; whatever the player
steps on is triggered on the way.

Positions are numbers of any size here, and the strides of a step are counted before the first one.
`Overworld.Proofs.Steps` computes steps with 32 bits, and counts how far the player has come.
-/

namespace Overworld.Play

/-- Change the player, if there is one. -/
def onPlayer (change : Player → Host → Player × Host) : Play Unit :=
  modify fun s =>
    match s.stage.player with
    | none => s
    | some player =>
      let (player, host) := change player s.host
      { s with host := host, stage := { s.stage with player := some player } }

/-- Turn the player. -/
def facePlayer (d : Direction) : Play Unit := onPlayer fun player host => player.face host d

/-- Let the walk go on for one tick. -/
def tick (walk : WalkCycle) (sprite : SpriteHandle) : Play WalkCycle := do
  let (walk, host) := walk.tick (← get).host sprite
  onHost fun _ => host
  return walk

/-- Point the camera of the stage, and show it. -/
def setCamera (camera : Pixel) : Play Unit := do
  onStage fun stage => { stage with camera := camera }
  onHost fun host => host.setCamera camera

/-- How many frames the way across a tile takes. -/
def stridesPerTile (config : Config) (map : TileMap) : Nat :=
  (map.grid.toNat + config.stride.toNat - 1) / config.stride.toNat

/-- Move the player by a number of strides, a frame each, with the camera behind it. -/
def stride (config : Config) (map : TileMap) (d : Direction) (sprite : SpriteHandle) :
    (count : Nat) → Pixel → WalkCycle → Play WalkCycle
  | 0, _, walk => return walk
  | count + 1, position, walk => do
    let position : Pixel :=
      ⟨position.x + d.offset.1 * config.stride, position.y + d.offset.2 * config.stride⟩
    onPlayer fun player host => player.place host map position
    setCamera ((ScrollBounds.ofMap map config).following map position)
    let walk ← tick walk sprite
    advance
    stride config map d sprite count position walk

/-- Run what the sensor of a tile has to run, if there is one, and then walk on for one frame. -/
def trigger (game : Game) (map : TileMap) (tile : Tile) (sprite : SpriteHandle) (walk : WalkCycle) :
    Play WalkCycle := do
  match map.sensorAt? tile with
  | some sensor =>
    if sensor.events = .empty then return walk
    runList game sensor.events true
    let walk ← tick walk sprite
    advance
    return walk
  | none => return walk

/-- Walk to the next tile and trigger the sensor there. Where the way is blocked, the player walks
on the spot for one frame. -/
def step (game : Game) (map : TileMap) (d : Direction) (sprite : SpriteHandle) (walk : WalkCycle) :
    Play WalkCycle := do
  match (← get).stage.player with
  | none => return walk
  | some player =>
    let goal := (← tileOf map player.position).step d
    if map.blocked goal || (← get).stage.occupied goal then
      let walk ← tick walk sprite
      advance
      return walk
    let walk ← stride game.config map d sprite (stridesPerTile game.config map) player.position walk
    trigger game map goal sprite walk

/-- Walk for as long as the button is held and the scene stays, at most the given number of
steps. -/
def steps (game : Game) (map : TileMap) (d : Direction) (sprite : SpriteHandle) :
    Nat → WalkCycle → Play Unit
  | 0, _ => throw .endless
  | n + 1, walk => do
    if (← held d.button) && !(← get).stage.changing then
      let walk ← step game map d sprite walk
      steps game map d sprite n walk

/-- Turn in a direction, and walk if the button is held. -/
def walk (game : Game) (map : TileMap) (d : Direction) : Play Unit := do
  match (← get).stage.player with
  | none => return
  | some player =>
    facePlayer d
    if ← held d.button then
      steps game map d player.sprite patience (.start d game.config.walkWait)
      facePlayer d

/-- Turn an actor. -/
def faceActor (index : Nat) (d : Direction) : Play Unit :=
  modify fun s =>
    match s.stage.actors[index]? with
    | none => s
    | some actor =>
      let (actor, host) := actor.face s.host d
      { s with host := host, stage := { s.stage with actors := s.stage.actors.set index actor } }

/-- The actor in front of the player that has something to do when the player turns to it. -/
def actorInFront (game : Game) (map : TileMap) (player : Player) : Play (Option (Nat × Actor)) := do
  let tile ← tileOf map player.position
  let stage := (← get).stage
  match stage.actorBeside? tile player.direction with
  | none => return none
  | some index =>
    match stage.actors[index]? with
    | none => return none
    | some actor =>
      if (game.graph.events actor.definition.interact).isEmpty then return none
      else return some (index, actor)

/-- Whether the button of a direction calls for a walk. -/
def wants (d : Direction) : Play Bool := do
  return (← pressed d.button) || (← held d.button)

/-- Walk in the first of two directions that is called for. -/
def walkEither (game : Game) (map : TileMap) (first second : Direction) : Play Unit := do
  if ← wants first then walk game map first
  else if ← wants second then walk game map second

/-- One frame of control: an interaction, or else the walks. -/
def control (game : Game) : Play Unit := do
  let stage := (← get).stage
  match stage.map, stage.player with
  | some map, some player =>
    if ← pressed .activate then
      if let some (index, actor) ← actorInFront game map player then
        faceActor index player.direction.opposite
        runList game actor.definition.interact true
        advance
        return
    walkEither game map .left .right
    walkEither game map .up .down
  | _, _ => return

end Overworld.Play
