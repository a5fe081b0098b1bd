import Overworld.Session

/-!
Running events.

`runEvent` runs one event: what it does itself (`enact`), and then the list that it has run, if any.
Lists may run themselves again, so the nesting of events is limited; the recursion is on the levels
that are left. Whatever waits for the player does so frame by frame, and ends with the host at the
latest.
-/

namespace Overworld.Play

/-! ### Single events -/

/-- Play frames until a duration is over. -/
def wait (config : Config) (duration : Int) : Play Unit :=
  forSteps (fun _ => advance) 1 (config.framesCovering duration)

/-- Change the background of the stage, on the stage alone. -/
def changeBackground (change : Background → Background) : Play Unit :=
  onStage fun stage => { stage with background := change stage.background }

/-- Show the background of the stage. -/
def showBackground : Play Unit :=
  modify fun s => { s with host := s.host.setBackground s.stage.background }

/-- Let the player and the actors take part in fades, or not. -/
def setBlending (blending : Bool) : Play Unit :=
  modify fun s => { s with host := s.stage.setBlending s.host blending }

/-- Play frames with an overlay whose strength is a function of the share of the frames that is
over. -/
def fade (strength : Float32 → Float32) (frames : Nat) : Play Unit :=
  forSteps (fun step => do
    onHost fun host => host.setAlpha (strength (Float32.ofNat step / Float32.ofNat frames))
    advance) 1 frames

/-- Show the scene, gradually if there are frames for it. -/
def fadeIn (frames : Nat) : Play Unit := do
  setBlending true
  changeBackground fun b => { b with visible := true }
  if frames ≠ 0 then
    onHost fun host => host.setAlpha 1
    changeBackground fun b => { b with blending := true }
    showBackground
    fade (fun t => 1 - t) frames
  onHost fun host => host.setAlpha 0
  changeBackground fun b => { b with blending := false }
  showBackground
  setBlending false

/-- Hide the scene, gradually if there are frames for it. The sprites still take part in fades
afterwards. -/
def fadeOut (frames : Nat) : Play Unit := do
  setBlending true
  if frames ≠ 0 then
    onHost fun host => host.setAlpha 0
    changeBackground fun b => { b with blending := true }
    showBackground
    fade (fun t => t) frames
  onHost fun host => host.setAlpha 1
  changeBackground fun b => { b with visible := false, blending := false }
  showBackground

/-- Ask for another scene. The last request counts. -/
def requestScene (request : SceneRequest) : Play Unit := do
  note (.sceneRequested request.target)
  onStage fun stage => { stage with request := some request }

/-- Play frames until one of some buttons is pressed. Without buttons there is nothing to wait
for. -/
def waitForButton (buttons : List Button) : Play Unit := do
  if buttons.isEmpty then return
  advanceUntil (anyPressed buttons) patience

/-- Show a text until the button for it is pressed, for one frame at least. -/
def showDialog (config : Config) (text : String) : Play Unit := do
  note (.dialogOpened text)
  onHost fun host => host.openDialog text
  advance
  advanceUntil (pressed config.dialogButton) patience
  onHost fun host => host.closeDialog

/-- Give a variable another value. -/
def setVariable (name : String) (value : Value) : Play Unit := fun s =>
  match s.vars.set name value with
  | .ok vars => .ok () { s with vars := vars }
  | .error e => .error (.variable e) s

/-- Show or hide the first actor that goes by a name. -/
def setActorVisible (name : String) (visible : Bool) : Play Unit := do
  let s ← get
  match s.stage.actors.findIdx? (·.answersTo name) with
  | none => note (.actorMissing name)
  | some index =>
    match s.stage.actors[index]? with
    | none => note (.actorMissing name)
    | some actor =>
      let (actor, host) := actor.setVisible s.host visible
      let stage := { s.stage with actors := s.stage.actors.set index actor }
      set { s with host := host, stage := stage }
      note (if visible then .actorEnabled name else .actorDisabled name)

/-- A hundredth of an integer. -/
def hundredth (n : Int) : Float32 := Float32.ofInt n / 100

/-- Start a piece of music, unless one is playing. -/
def startMusic (name : String) (volume : Int) (loops : Bool) : Play Unit := do
  if (← get).host.music.isSome then return
  note (.musicStarted name volume loops)
  onHost fun host => host.playMusic ⟨name, hundredth volume, loops⟩

/-- Let the music fade out and stop it, if any is playing. -/
def stopMusic (config : Config) : Play Unit := do
  let host := (← get).host
  if host.music.isNone then return
  let volume := host.musicVolume
  let steps := config.musicFadeSteps
  forSteps (fun step => do
    let remaining : Float32 := 1 - Float32.ofNat step / Float32.ofNat steps
    onHost fun host => host.setMusicVolume (volume * remaining)
    advance) 1 steps
  onHost fun host => host.stopMusic
  note .musicStopped

/-- Move the camera until a tile is at the top left of the screen. -/
def moveCamera (config : Config) (x y duration : Expression) (diagonal : Bool) (first : Axis) :
    Play Unit := do
  let s ← get
  match s.stage.map with
  | none => note (.cameraWithoutMap s.stage.scene.label)
  | some map =>
    let bounds := ScrollBounds.ofMap map config
    let tile ← tileAt x y
    let frames := config.framesWithin (← intOf duration)
    let move : CameraMove := ⟨bounds.towardsTile map tile, frames, diagonal, first⟩
    let camera ← runHost (move.run s.stage.camera bounds)
    onStage fun stage => { stage with camera := camera }

/-! ### Events and lists -/

/-- Do something after which no list is to be run. -/
def alone (act : Play Unit) : Play (Option (Handle × Bool)) := do
  act
  return none

/-- Do what an event does itself. If it has a list run, the answer is that list, and whether it is
run in a frame. In a frame (`inFrame`) the handlers of buttons run if their button is pressed; on
entry to a scene they are registered. -/
def enact (game : Game) (inFrame : Bool) (event : Event) : Play (Option (Handle × Bool)) :=
  match event with
  | .wait duration => alone do wait game.config (← intOf duration)
  | .fadeIn duration => alone do fadeIn (game.config.framesWithin (← intOf duration))
  | .fadeOut duration => alone do fadeOut (game.config.framesWithin (← intOf duration))
  | .goToScene target start => alone do requestScene ⟨target, start⟩
  | .waitForButton buttons => alone do waitForButton buttons
  | .onButtonPress buttons body =>
    if inFrame then do
      if ← anyPressed buttons then return some (body, true) else return none
    else alone do onStage fun stage => { stage with handlers := stage.handlers ++ [event] }
  | .showDialog text => alone do showDialog game.config text
  | .setVariable name value => alone do setVariable name value
  | .branch conditions yes no => do
    if ← allHold conditions then return some (yes, inFrame) else return some (no, inFrame)
  | .disableActor actor => alone do setActorVisible actor false
  | .enableActor actor => alone do setActorVisible actor true
  | .playMusic name volume loops => alone do startMusic name volume loops
  | .stopMusic => alone do stopMusic game.config
  | .playSound name volume speed panning priority => alone do
    onHost fun host =>
      host.playSound ⟨name, hundredth volume, speed, hundredth panning, priority⟩
  | .runScript name => return some ((game.graph.script name).events, inFrame)
  | .moveCamera x y duration diagonal first => alone do
    moveCamera game.config x y duration diagonal first
  | .disabled _ => return none
  | .unknown => alone do note .unknownEvent

/-- Run an event with a number of levels left to nest. -/
def runEvent (game : Game) : (room : Nat) → (inFrame : Bool) → Event → Play Unit
  | 0, _, _ => throw (.nestingTooDeep game.config.maxDepth)
  | room + 1, inFrame, event => do
    recordEvent event inFrame (game.config.maxDepth - room)
    match ← enact game inFrame event with
    | none => return
    | some (list, inFrame) => (game.graph.events list).forM (runEvent game room inFrame)

/-- Run events one after the other, with a number of levels left to nest. -/
def runEvents (game : Game) (room : Nat) (inFrame : Bool) (events : List Event) : Play Unit :=
  events.forM (runEvent game room inFrame)

/-- Run an event list from the outermost level. -/
def runList (game : Game) (list : Handle) (inFrame : Bool) : Play Unit :=
  runEvents game game.config.maxDepth inFrame (game.graph.events list)

end Overworld.Play
