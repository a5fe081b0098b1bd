import Overworld.Button

/-!
The settings that a game is played with.
-/

namespace Overworld

/-- The settings of a game. -/
structure Config where
  /-- The milliseconds of a frame. -/
  frameMs : Int
  screenWidth : Int
  screenHeight : Int
  /-- How many pixels the player walks in a frame. -/
  playerSpeed : Int
  /-- How many frames a picture of the walk is shown. -/
  walkWait : Nat
  /-- How deep events may nest. -/
  maxDepth : Nat
  /-- How many frames music takes to fade out. -/
  musicFadeSteps : Nat
  /-- The button that closes a dialog. -/
  dialogButton : Button
deriving DecidableEq, Repr

namespace Config

/-- The settings of a game that asks for nothing else. -/
def standard : Config where
  frameMs := 16
  screenWidth := 240
  screenHeight := 160
  playerSpeed := 2
  walkWait := 7
  maxDepth := 64
  musicFadeSteps := 10
  dialogButton := .activate

instance : Inhabited Config := ⟨standard⟩

/-- The milliseconds of a frame, at least one. -/
def tick (config : Config) : Int := max config.frameMs 1

/-- The pixels the player walks in a frame, at least one. -/
def stride (config : Config) : Int := max config.playerSpeed 1

/-- The whole frames that fit into a duration. -/
def framesWithin (config : Config) (duration : Int) : Nat :=
  if duration ≤ 0 then 0 else (duration / config.tick).toNat

/-- The frames that it takes for a duration to be over. -/
def framesCovering (config : Config) (duration : Int) : Nat :=
  ((max duration 0 + config.tick - 1) / config.tick).toNat

end Config

end Overworld
