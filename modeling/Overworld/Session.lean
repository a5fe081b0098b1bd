import Overworld.Camera
import Overworld.Stage
import Overworld.Graph
import Overworld.Journal
import Overworld.Notice

/-!
Sessions: a game while it is played.

Everything that playing changes is in the session, and `Play` is an action on it. An action that
halts leaves the session as it was at that moment, so what a game did before it was stopped can
always be seen.
-/

namespace Overworld

/-- What is played: a graph and the settings to play it with. -/
structure Game where
  graph : SceneGraph
  config : Config
deriving Inhabited

/-- Why playing halts. -/
inductive Halt where
  | variable (error : VariableError)
  | host (stop : HostStop)
  | nestingTooDeep (limit : Nat)
  /-- A tile was asked for on a map whose tiles have no size. -/
  | noTileSize
  /-- Playing would go on for ever. -/
  | endless
deriving DecidableEq, Repr

/-- The wording of a halt. -/
def Halt.message : Halt → String
  | .variable error => error.message
  | .host stop => stop.message
  | .nestingTooDeep limit => "event nesting exceeded " ++ toString limit ++ " levels"
  | .noTileSize => "the tiles of the map have no size"
  | .endless => "the game does not end"

/-- A game while it is played. -/
structure Session where
  host : Host
  vars : Variables
  stage : Stage
  /-- The request that the last finished scene made, while its start position is not used. -/
  pending : Option SceneRequest
  /-- How many scenes were entered. -/
  entered : Nat
  notices : Array Notice
  /-- What was entered and run, the last entry first. -/
  journal : List Entry
deriving Inhabited

/-- A session that starts on a stage. -/
def Session.start (host : Host) (vars : Variables) (stage : Stage) : Session :=
  ⟨host, vars, stage, none, 0, #[], []⟩

/-- An action in a session. -/
abbrev Play := EStateM Halt Session

namespace Play

/-- Report something. -/
def note (notice : Notice) : Play Unit :=
  modify fun s => { s with notices := s.notices.push notice }

/-- Write down that a scene is entered. -/
def recordScene (name : String) : Play Unit :=
  modify fun s => { s with journal := .scene name :: s.journal }

/-- Write down that an event is run. -/
def recordEvent (event : Event) (inFrame : Bool) (depth : Nat) : Play Unit :=
  modify fun s =>
    { s with journal := .event ⟨event, inFrame, depth, s.host.frame, s.vars, s.stage⟩ :: s.journal }

/-- Change the host. -/
def onHost (change : Host → Host) : Play Unit :=
  modify fun s => { s with host := change s.host }

/-- Change the stage. -/
def onStage (change : Stage → Stage) : Play Unit :=
  modify fun s => { s with stage := change s.stage }

/-- Run something on the host. -/
def runHost {α : Type} (run : HostRun α) : Play α := fun s =>
  match run s.host with
  | .ok x host => .ok x { s with host := host }
  | .error stop host => .error (.host stop) { s with host := host }

/-- Play one frame. -/
def advance : Play Unit := runHost HostRun.advance

/-- Whether a button is pressed in this frame. -/
def pressed (button : Button) : Play Bool := do return (← get).host.states.pressed.has button

/-- Whether a button is held in this frame. -/
def held (button : Button) : Play Bool := do return (← get).host.states.held.has button

/-- Whether one of several buttons is pressed in this frame. -/
def anyPressed (buttons : List Button) : Play Bool := do
  return (← get).host.states.anyPressed buttons

/-! ### Expressions -/

/-- The value of an expression. A variable that does not exist is reported. -/
def valueOf (e : Expression) : Play (Option Value) := do
  match e, e.value? (← get).vars with
  | .variable name, none =>
    note (.variableMissing name)
    return none
  | _, value => return value

/-- The integer reading of an expression. -/
def intOf (e : Expression) : Play Int := do return ((← valueOf e).map Value.int).getD 0

/-- The text of an expression. -/
def textOf (e : Expression) : Play String := do return ((← valueOf e).map Value.text).getD ""

/-- The tile that two expressions name. -/
def tileAt (x y : Expression) : Play Tile := do
  let x ← intOf x
  let y ← intOf y
  return ⟨x, y⟩

/-- Whether a condition holds. -/
def conditionHolds (c : Condition) : Play Bool := do
  let left ← textOf c.left
  let right ← textOf c.right
  return c.comparison.holds left right

/-- Whether all conditions hold. None is looked at after the first that does not. -/
def allHold : List Condition → Play Bool
  | [] => return true
  | c :: conditions => do
    if ← conditionHolds c then allHold conditions else return false

/-- The tile of a point on a map. -/
def tileOf (map : TileMap) (p : Pixel) : Play Tile :=
  match map.tileOf? p with
  | some tile => return tile
  | none => throw .noTileSize

/-! ### Waiting -/

/-- A bound on how often something can be repeated that takes a frame each time: once for every
frame that a host can play, and once more to find that none is left. -/
def patience : Nat := Host.frameCeiling + 1

/-- Play frames until a test holds, at most as many as given. -/
def advanceUntil (test : Play Bool) : Nat → Play Unit
  | 0 => throw .endless
  | n + 1 => do
    if ← test then return
    advance
    advanceUntil test n

end Play

end Overworld
