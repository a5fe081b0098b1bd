import Overworld.Button
import Overworld.Number.Decimal

/-!
Scripted input: which buttons are held in each frame.

A script has a text form such as `right:12,a:1,idle:4`: steps between commas, each a `+` separated
set of buttons or the word `idle`, with an optional count of frames. `InputScript.read` accepts it
with blanks around every part and in any case.
-/

namespace Overworld

open Overworld.Text Overworld.Number

/-- The buttons held in each frame, from the first frame on. Nothing is held after the last one. -/
structure InputScript where
  frames : Array (List Button)
deriving DecidableEq, Repr

namespace InputScript

/-- The script that holds nothing. -/
def empty : InputScript := ⟨#[]⟩

instance : Inhabited InputScript := ⟨empty⟩

/-- How many frames the script lasts. -/
def length (script : InputScript) : Nat := script.frames.size

/-- The script, and then some buttons held for a number of frames. -/
def hold (script : InputScript) (buttons : List Button) (count : Nat) : InputScript :=
  ⟨script.frames ++ Array.replicate count buttons⟩

/-- The script, and then frames in which nothing is held. -/
def idle (script : InputScript) (count : Nat) : InputScript := script.hold [] count

/-- The script, and then a button held for one frame and released for one, so that the next tap is a
press of its own. -/
def tap (script : InputScript) (button : Button) : InputScript := (script.hold [button] 1).idle 1

/-- The buttons held in a frame. -/
def heldAt (script : InputScript) (frame : Nat) : List Button := (script.frames[frame]?).getD []

@[simp] theorem length_hold (script : InputScript) (buttons : List Button) (count : Nat) :
    (script.hold buttons count).length = script.length + count := by
  simp [hold, length]

end InputScript

/-! ### The text form -/

/-- What can be wrong with the text of an input script. The step is the one that is wrong. -/
inductive InputScriptError where
  | malformedStep (step : String)
  | unknownButton (name step : String)
  | badCount (step : String)
deriving DecidableEq, Repr

/-- The wording of an error. -/
def InputScriptError.message : InputScriptError → String
  | .malformedStep step => "input step '" ++ step ++ "' must look like 'button:frames'"
  | .unknownButton name step => "unknown button '" ++ name ++ "' in input step '" ++ step ++ "'"
  | .badCount step => "frame count in input step '" ++ step ++ "' is not a number"

namespace InputScript

/-- The steps of a text: its pieces between commas, trimmed, without the blank ones. -/
def steps (cs : List Char) : List (List Char) :=
  ((splitChars ',' cs).map trimChars).filter (!·.isEmpty)

/-- The part of a step before its first colon, and the count after it, one where there is no colon.
There is no count if the part after the colon is no number. -/
def nameAndCount (step : List Char) : List Char × Option Nat :=
  match step.dropWhile (· != ':') with
  | [] => (step, some 1)
  | _ :: count => (trimChars (step.takeWhile (· != ':')), count? (trimChars count))

/-- The button of a name, or the error that there is none in a step. -/
def buttonNamed (step name : List Char) : Except InputScriptError Button :=
  match Button.ofWord? name with
  | some button => .ok button
  | none => .error (.unknownButton (String.ofList name) (String.ofList step))

/-- The buttons that a step holds, and for how many frames. -/
def readStep (step : List Char) : Except InputScriptError (List Button × Nat) :=
  match nameAndCount step with
  | (_, none) => .error (.badCount (String.ofList step))
  | (names, some count) =>
    if names.isEmpty then .error (.malformedStep (String.ofList step))
    else if names.map Char.toLower = ['i', 'd', 'l', 'e'] then .ok ([], count)
    else do
      let buttons ← ((splitChars '+' names).map trimChars).mapM (buttonNamed step)
      return (buttons, count)

/-- Add the steps of a text to a script, up to the first that is wrong. -/
def readSteps (script : InputScript) : List (List Char) → Except InputScriptError InputScript
  | [] => .ok script
  | step :: rest => do
    let (buttons, count) ← readStep step
    readSteps (script.hold buttons count) rest

/-- The script that a text writes. -/
def read (text : String) : Except InputScriptError InputScript :=
  readSteps empty (steps text.toList)

end InputScript

end Overworld
