import Overworld.Stage
import Overworld.Variables

/-!
The journal of a session: what was entered and run in it, step by step.

Each event leaves an entry when it is run, before it does anything, with the frame, the variables
and the stage as it found them. The journal is for looking back; nothing that is played reads it.
-/

namespace Overworld

/-- An event that was run, and what it found. -/
structure Dispatch where
  event : Event
  inFrame : Bool
  /-- How many events deep it was nested, itself included. -/
  depth : Nat
  frame : Nat
  vars : Variables
  stage : Stage
deriving DecidableEq, Repr

/-- An entry of the journal. -/
inductive Entry where
  /-- A scene of this name was asked for, and everything of the last one left the stage. -/
  | scene (name : String)
  | event (dispatch : Dispatch)
deriving DecidableEq, Repr

end Overworld
