import Overworld.Button

/-!
Keyboard input between frames.

Keys are bound to buttons, several to one. The collector follows the keys that go down and up, and
gives one state of all buttons per frame; a button that went down and up again between two frames
still counts as pressed.
-/

namespace Overworld

/-- The button that a key is bound to, by the name of the key. -/
def Button.ofKey? : String → Option Button
  | "KeyW" | "ArrowUp" => some .up
  | "KeyS" | "ArrowDown" => some .down
  | "KeyA" | "ArrowLeft" => some .left
  | "KeyD" | "ArrowRight" => some .right
  | "KeyZ" | "Space" => some .activate
  | "KeyX" | "Backspace" => some .cancel
  | "Enter" => some .start
  | "Tab" => some .select
  | "KeyQ" => some .l
  | "KeyE" => some .r
  | _ => none

/-- A keyboard as it stands between two frames. -/
structure Keyboard where
  down : ButtonSet
  /-- The buttons that went down since the last frame. -/
  wentDown : ButtonSet
deriving DecidableEq, Repr, Inhabited

namespace Keyboard

/-- A keyboard that nobody touches. -/
def untouched : Keyboard := ⟨.empty, .empty⟩

/-- A key goes down, or repeats while it is down. -/
def keyDown (keyboard : Keyboard) (key : String) : Keyboard :=
  match Button.ofKey? key with
  | none => keyboard
  | some b =>
    { down := keyboard.down.update b true
      wentDown :=
        if keyboard.down.has b then keyboard.wentDown else keyboard.wentDown.update b true }

/-- A key goes up. -/
def keyUp (keyboard : Keyboard) (key : String) : Keyboard :=
  match Button.ofKey? key with
  | none => keyboard
  | some b => { keyboard with down := keyboard.down.update b false }

/-- The state of the buttons for the next frame; the presses are used up by it. -/
def frame (keyboard : Keyboard) : ButtonStates × Keyboard :=
  (⟨keyboard.down, keyboard.wentDown⟩, { keyboard with wentDown := .empty })

end Keyboard

end Overworld
