import Overworld.Text.Blank
import Overworld.Number.Decimal

/-!
Launch settings: what the command line and the environment ask for.
-/

namespace Overworld.Launch

open Overworld.Text Overworld.Number

/-- The environment variable with the path of the graph. -/
def graphVariable : String := "TILESCRIPT_GRAPH"

/-- The environment variable with the number of frames to play. -/
def framesVariable : String := "TILESCRIPT_MAX_FRAMES"

/-- The environment variable with the input script. -/
def inputVariable : String := "TILESCRIPT_INPUT"

/-- The environment variable with the levels that events may nest. -/
def depthVariable : String := "TILESCRIPT_MAX_EVENT_DEPTH"

/-- How many frames are played when nothing else is asked for. -/
def standardFrames : Nat := 600

/-- The launch settings. -/
structure Settings where
  graphPath : Option String
  maxFrames : Nat
  inputScript : Option String
  maxDepth : Option Nat
deriving DecidableEq, Repr

/-- A setting that must be a positive integer and is not. -/
structure BadNumber where
  name : String
  value : String
deriving DecidableEq, Repr

/-- The wording of the error. -/
def BadNumber.message (e : BadNumber) : String :=
  e.name ++ " must be a positive integer, got '" ++ e.value ++ "'"

/-- The positive integer in an environment variable, if the variable is set. -/
def positive (lookUp : String → Option String) (name : String) :
    Except BadNumber (Option Nat) :=
  match lookUp name with
  | none => .ok none
  | some text =>
    match count? (trimChars text.toList) with
    | some (n + 1) => .ok (some (n + 1))
    | _ => .error ⟨name, text⟩

/-- The settings of a first argument and an environment. The argument counts before the environment,
and a blank path is none. -/
def Settings.resolve (argument : Option String) (lookUp : String → Option String) :
    Except BadNumber Settings := do
  let path := (argument <|> lookUp graphVariable).map trim
  let frames ← positive lookUp framesVariable
  let depth ← positive lookUp depthVariable
  return ⟨path.filter (· != ""), frames.getD standardFrames, lookUp inputVariable, depth⟩

end Overworld.Launch
