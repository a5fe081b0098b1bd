import Overworld.Expression
import Overworld.Map

/-!
Events: the steps of a scripted behaviour.

An event list is run in order. Events do not hold further lists but handles of them, so a list may
run itself again.
-/

namespace Overworld

/-- The coordinate of a start position that is left to the scene. -/
def unsetCoordinate : Int := -1

/-- Where and how the player shall stand after a change of scene. -/
structure StartPosition where
  x : Expression
  y : Expression
  direction : Direction
deriving DecidableEq, Repr

/-- The start position that leaves everything to the scene. -/
def StartPosition.unset : StartPosition := ⟨.ofInt unsetCoordinate, .ofInt unsetCoordinate, .down⟩

/-- How many buttons one event may name. -/
def buttonLimit : Nat := 10

/-- One step of a scripted behaviour. Durations are in milliseconds, volumes and panning in
hundredths. -/
inductive Event where
  | wait (duration : Expression)
  | fadeIn (duration : Expression)
  | fadeOut (duration : Expression)
  | goToScene (target : String) (start : StartPosition)
  | waitForButton (buttons : List Button)
  /-- On entry to a scene, register the body to be run at each later press; in a frame, run it if
  one of the buttons is pressed. -/
  | onButtonPress (buttons : List Button) (body : Handle)
  | showDialog (text : String)
  | setVariable (name : String) (value : Value)
  /-- Run one of two lists, the first if all conditions hold. -/
  | branch (conditions : List Condition) (yes no : Handle)
  | disableActor (actor : String)
  | enableActor (actor : String)
  | playMusic (name : String) (volume : Int) (loops : Bool)
  | stopMusic
  | playSound (name : String) (volume : Int) (speed : Float32) (panning priority : Int)
  | runScript (name : String)
  /-- Move the camera until a tile is at the top left of the screen, both axes at once or one after
  the other. -/
  | moveCamera (x y duration : Expression) (diagonal : Bool) (first : Axis)
  /-- An event that was switched off where the graph was made. -/
  | disabled (kind : String)
  /-- An event of a kind that is not known. -/
  | unknown
deriving DecidableEq, Repr

namespace Event

/-- The name of the kind of an event. -/
def kind : Event → String
  | .wait .. => "wait"
  | .fadeIn .. => "fade-in"
  | .fadeOut .. => "fade-out"
  | .goToScene .. => "go-to-scene"
  | .waitForButton .. => "wait-for-button"
  | .onButtonPress .. => "on-button-press"
  | .showDialog .. => "show-dialog"
  | .setVariable .. => "set-variable"
  | .branch .. => "if"
  | .disableActor .. => "disable-actor"
  | .enableActor .. => "enable-actor"
  | .playMusic .. => "play-music"
  | .stopMusic => "stop-music"
  | .playSound .. => "play-sound"
  | .runScript .. => "execute-script"
  | .moveCamera .. => "move-camera-to"
  | .disabled .. => "disabled"
  | .unknown => "unknown"

/-- The lists that an event refers to by handle. -/
def children : Event → List Handle
  | .onButtonPress _ body => [body]
  | .branch _ yes no => [yes, no]
  | _ => []

/-- The buttons that an event waits for. -/
def buttons : Event → List Button
  | .waitForButton buttons => buttons
  | .onButtonPress buttons _ => buttons
  | _ => []

end Event

end Overworld
