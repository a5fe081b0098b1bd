import Overworld.Config
import Overworld.Host

/-!
The camera: how far it may go on a map, and how it moves.

A movement goes to its end in a given number of frames, on both axes at once or on one after the
other. In the second case the frames are shared out in proportion to the distances, and an axis
without distance takes none.
-/

namespace Overworld

/-- The bounds of the camera on a map, between which the screen shows nothing but the map. -/
structure ScrollBounds where
  minX : Int
  maxX : Int
  minY : Int
  maxY : Int
deriving DecidableEq, Repr

namespace ScrollBounds

/-- The bounds on a map: half the map less half the screen, to either side of the middle. -/
def ofMap (map : TileMap) (config : Config) : ScrollBounds :=
  let x := map.pixelWidth.tdiv 2 - config.screenWidth.tdiv 2
  let y := map.pixelHeight.tdiv 2 - config.screenHeight.tdiv 2
  ⟨-x, x, -y, y⟩

/-- The point within the bounds that is nearest to a point. Where the map is smaller than the screen
the bounds cross, and the upper one counts. -/
def clamp (bounds : ScrollBounds) (p : Pixel) : Pixel :=
  ⟨min (max p.x bounds.minX) bounds.maxX, min (max p.y bounds.minY) bounds.maxY⟩

/-- Where the camera has a tile at the top left of the screen. -/
def towardsTile (bounds : ScrollBounds) (map : TileMap) (tile : Tile) : Pixel :=
  ⟨bounds.minX + (map.pixelOf tile).x, bounds.minY + (map.pixelOf tile).y⟩

/-- Where the camera follows an entity whose corner is at a point of the map. -/
def following (bounds : ScrollBounds) (map : TileMap) (corner : Pixel) : Pixel :=
  bounds.clamp ⟨corner.x - map.pixelWidth.tdiv 2, corner.y - map.pixelHeight.tdiv 2⟩

end ScrollBounds

/-- A movement of the camera. -/
structure CameraMove where
  target : Pixel
  frames : Nat
  diagonal : Bool
  first : Axis
deriving DecidableEq, Repr

/-- A coordinate after a number of steps of a movement. -/
def between (start delta : Int) (step frames : Nat) : Int :=
  start + (delta * step).tdiv frames

/-- A run of the host that may come to its end. -/
abbrev HostRun := EStateM HostStop Host

namespace HostRun

/-- Play one frame. -/
def advance : HostRun Unit := fun host =>
  match host.advance with
  | .ok host => .ok () host
  | .error stop => .error stop host

/-- Point the camera. -/
def setCamera (position : Pixel) : HostRun Unit := modify fun host => host.setCamera position

end HostRun

/-- Do something once for each number from `step` on, `count` times. -/
@[specialize]
def forSteps {m : Type → Type} [Monad m] (act : Nat → m Unit) : (step count : Nat) → m Unit
  | _, 0 => pure ()
  | step, count + 1 => do
    act step
    forSteps act (step + 1) count

namespace CameraMove

/-- How many frames a movement on one axis after the other spends on the horizontal one. -/
def horizontalFrames (frames : Nat) (dx dy : Int) : Nat :=
  frames * dx.natAbs / (dx.natAbs + dy.natAbs)

/-- Move on one axis. Without a distance there is nothing to do, and without frames the camera
jumps. The position is a function of the step and the number of steps. -/
def alongAxis (frames : Nat) (delta : Int) (position : Nat → Nat → Pixel) : HostRun Unit :=
  if delta = 0 then pure ()
  else if frames = 0 then HostRun.setCamera (position 1 1)
  else
    forSteps (fun step => do
      HostRun.setCamera (position step frames)
      HostRun.advance) 1 frames

/-- Move the camera from a point; the point where it ends, which lies within the bounds. -/
def run (start : Pixel) (bounds : ScrollBounds) (move : CameraMove) : HostRun Pixel := do
  let goal := bounds.clamp move.target
  if move.frames = 0 then
    HostRun.setCamera goal
    return goal
  let dx := goal.x - start.x
  let dy := goal.y - start.y
  if move.diagonal then
    forSteps (fun step => do
      HostRun.setCamera
        ⟨between start.x dx step move.frames, between start.y dy step move.frames⟩
      HostRun.advance) 1 move.frames
  else
    let across := horizontalFrames move.frames dx dy
    let down := move.frames - across
    match move.first with
    | .horizontal =>
      alongAxis across dx fun step frames => ⟨between start.x dx step frames, start.y⟩
      alongAxis down dy fun step frames => ⟨goal.x, between start.y dy step frames⟩
    | .vertical =>
      alongAxis down dy fun step frames => ⟨start.x, between start.y dy step frames⟩
      alongAxis across dx fun step frames => ⟨between start.x dx step frames, goal.y⟩
  HostRun.setCamera goal
  return goal

end CameraMove

end Overworld
