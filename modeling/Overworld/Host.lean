import Overworld.InputScript
import Overworld.Map

/-!
The host: what a game shows and plays, frame by frame.

The host replays scripted input and keeps a record of every frame and every sound. Time passes only
in `advance`, which fails when the host has come to its end: the budget of frames is used up, or the
script of a host that stops with its script.
-/

namespace Overworld

/-- The name of a sprite in the host. -/
structure SpriteHandle where
  number : Nat
deriving DecidableEq, Repr

/-- A sprite as the host shows it. The position is that of its middle, counted from the middle of
the map. -/
structure Sprite where
  sheet : String
  width : Int
  height : Int
  position : Pixel
  z : Int
  frame : Nat
  flip : Bool
  visible : Bool
  blending : Bool
deriving DecidableEq, Repr

/-- A background picture. -/
structure Background where
  name : String
  visible : Bool
  blending : Bool
deriving DecidableEq, Repr

/-- A background before it is first shown. -/
def Background.hidden (name : String) : Background := ⟨name, false, false⟩

/-- A piece of music that is playing. -/
structure Music where
  name : String
  /-- From 0 to 1. -/
  volume : Float32
  loops : Bool
deriving DecidableEq, Repr

/-- A sound that was played. -/
structure Sound where
  name : String
  volume : Float32
  speed : Float32
  /-- From -1 on the left to 1 on the right. -/
  panning : Float32
  priority : Int
deriving DecidableEq, Repr

/-- What a frame showed when it was over. -/
structure FrameRecord where
  camera : Pixel
  alpha : Float32
  dialogOpen : Bool
deriving DecidableEq, Repr

/-- Why a host stops. -/
inductive HostStop where
  | shutdown
  | budgetExhausted (frames : Nat)
deriving DecidableEq, Repr

/-- The wording of a stop. -/
def HostStop.message : HostStop → String
  | .shutdown => "host requested shutdown"
  | .budgetExhausted frames => "frame budget of " ++ toString frames ++ " frames exhausted"

/-- The state of the host. -/
structure Host where
  input : InputScript
  states : ButtonStates
  /-- How many frames are over. -/
  frame : Nat
  /-- How many frames may be played at most. -/
  budget : Option Nat
  /-- Whether the host stops when the input script is over. -/
  stopsWithInput : Bool
  nextSprite : Nat
  /-- The sprites with their handles, in ascending order. -/
  sprites : List (SpriteHandle × Sprite)
  camera : Pixel
  /-- The strength of the black overlay, from 0 to 1. -/
  alpha : Float32
  background : Option Background
  dialog : Option String
  dialogs : Array String
  music : Option Music
  musicStarted : Array String
  sounds : Array Sound
  /-- What the frames that are over showed, the last one first. -/
  past : List FrameRecord
deriving Repr

namespace Host

/-- A host before its first frame. -/
def fresh (input : InputScript) (budget : Option Nat) (stopsWithInput : Bool) : Host where
  input := input
  states := ButtonStates.idle.next (input.heldAt 0)
  frame := 0
  budget := budget
  stopsWithInput := stopsWithInput
  nextSprite := 0
  sprites := []
  camera := .origin
  alpha := 0
  background := none
  dialog := none
  dialogs := #[]
  music := none
  musicStarted := #[]
  sounds := #[]
  past := []

instance : Inhabited Host := ⟨fresh .empty none false⟩

/-! ### Time -/

/-- Why the host cannot play another frame, if it cannot. -/
def stop? (host : Host) : Option HostStop :=
  match host.budget with
  | some limit =>
    if limit ≤ host.frame then some (.budgetExhausted limit)
    else if host.stopsWithInput && host.input.length ≤ host.frame then some .shutdown
    else none
  | none => if host.stopsWithInput && host.input.length ≤ host.frame then some .shutdown else none

/-- What the current frame shows. -/
def record (host : Host) : FrameRecord := ⟨host.camera, host.alpha, host.dialog.isSome⟩

/-- What the frames that are over showed, in order. -/
def frames (host : Host) : List FrameRecord := host.past.reverse

/-- The host after one more frame. -/
def afterFrame (host : Host) : Host :=
  { host with
    past := host.record :: host.past
    frame := host.frame + 1
    states := host.states.next (host.input.heldAt (host.frame + 1)) }

/-- Play one frame. A host that stops is left as it is. -/
def advance (host : Host) : Except HostStop Host :=
  match host.stop? with
  | some stop => .error stop
  | none => .ok host.afterFrame

/-- The number of frames that no host exceeds, since frames are counted in 64 bits. -/
def frameCeiling : Nat := Number.word64

/-- The frame at which the host stops at the latest. -/
def horizon (host : Host) : Nat :=
  min (host.budget.getD frameCeiling)
    (if host.stopsWithInput then host.input.length else frameCeiling)

/-- How many frames are left before the host stops. -/
def framesLeft (host : Host) : Nat := host.horizon - host.frame

/-! ### Sprites -/

/-- The sprite of a handle, if it was not destroyed. -/
def sprite? (host : Host) (h : SpriteHandle) : Option Sprite := host.sprites.lookup h

/-- The handles of the sprites. -/
def handles (host : Host) : List SpriteHandle := host.sprites.map (·.1)

/-- The sprites of a sheet. -/
def spritesOf (host : Host) (sheet : String) : List Sprite :=
  (host.sprites.map (·.2)).filter (·.sheet == sheet)

/-- Show a new sprite. Handles are never given out twice. -/
def createSprite (host : Host) (sprite : Sprite) : SpriteHandle × Host :=
  (⟨host.nextSprite⟩,
    { host with
      nextSprite := host.nextSprite + 1
      sprites := host.sprites ++ [(⟨host.nextSprite⟩, sprite)] })

/-- Change a sprite, if it exists. -/
def updateSprite (host : Host) (h : SpriteHandle) (change : Sprite → Sprite) : Host :=
  { host with
    sprites := host.sprites.map fun entry =>
      if entry.1 = h then (entry.1, change entry.2) else entry }

/-- Take a sprite away, if it exists. -/
def destroySprite (host : Host) (h : SpriteHandle) : Host :=
  { host with sprites := host.sprites.filter (·.1 != h) }

/-- Move a sprite. -/
def moveSprite (host : Host) (h : SpriteHandle) (position : Pixel) : Host :=
  host.updateSprite h fun s => { s with position := position }

/-- Show or hide a sprite. -/
def showSprite (host : Host) (h : SpriteHandle) (visible : Bool) : Host :=
  host.updateSprite h fun s => { s with visible := visible }

/-- Choose the picture of a sprite. -/
def setFrame (host : Host) (h : SpriteHandle) (frame : Nat) : Host :=
  host.updateSprite h fun s => { s with frame := frame }

/-- Flip a sprite from left to right, or not. -/
def setFlip (host : Host) (h : SpriteHandle) (flip : Bool) : Host :=
  host.updateSprite h fun s => { s with flip := flip }

/-- Let a sprite take part in fades, or not. -/
def setBlending (host : Host) (h : SpriteHandle) (blending : Bool) : Host :=
  host.updateSprite h fun s => { s with blending := blending }

/-! ### Picture and sound -/

/-- Point the camera. -/
def setCamera (host : Host) (position : Pixel) : Host := { host with camera := position }

/-- Show a background. -/
def setBackground (host : Host) (background : Background) : Host :=
  { host with background := some background }

/-- Set the strength of the overlay. -/
def setAlpha (host : Host) (alpha : Float32) : Host := { host with alpha := alpha }

/-- Open a dialog. -/
def openDialog (host : Host) (text : String) : Host :=
  { host with dialog := some text, dialogs := host.dialogs.push text }

/-- Close the dialog. -/
def closeDialog (host : Host) : Host := { host with dialog := none }

/-- Start a piece of music. -/
def playMusic (host : Host) (music : Music) : Host :=
  { host with music := some music, musicStarted := host.musicStarted.push music.name }

/-- Stop the music. -/
def stopMusic (host : Host) : Host := { host with music := none }

/-- How loud the music is, 0 when none is playing. -/
def musicVolume (host : Host) : Float32 := (host.music.map (·.volume)).getD 0

/-- Change how loud the music is, if any is playing. -/
def setMusicVolume (host : Host) (volume : Float32) : Host :=
  { host with music := host.music.map fun m => { m with volume := volume } }

/-- Play a sound. -/
def playSound (host : Host) (sound : Sound) : Host := { host with sounds := host.sounds.push sound }

/-! ### How far a frame brings the host -/

/-- A frame adds what it showed to the frames that are over. -/
theorem frames_afterFrame (host : Host) :
    host.afterFrame.frames = host.frames ++ [host.record] := by
  simp [frames, afterFrame]

/-- A host stops exactly when no frame is left before its horizon. -/
theorem stop?_eq_none_iff {host : Host} (bounded : host.frame < frameCeiling) :
    host.stop? = none ↔ host.frame < host.horizon := by
  unfold stop? horizon
  cases host.budget with
  | none =>
    cases host.stopsWithInput with
    | false => simp [bounded]
    | true =>
      simp
      omega
  | some limit =>
    by_cases hl : limit ≤ host.frame
    · simp only [hl, if_true, Option.getD_some, reduceCtorEq, false_iff]
      omega
    · cases host.stopsWithInput <;> simp [hl] <;> omega

end Host

end Overworld
