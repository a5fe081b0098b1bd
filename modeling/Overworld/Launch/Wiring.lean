import Overworld.Demo
import Overworld.Format.Graph
import Overworld.Launch.Settings
import Overworld.Play.Scenes

/-!
From launch settings to a finished run.

Wiring loads the graph and reads the input script. It reads no file itself: it is given the contents
of the file that the settings name.
-/

namespace Overworld.Launch

/-- Why a file could not be read as text. -/
inductive FileFault where
  | notFound
  | isDirectory
  | notText
  | other (reason : String)
deriving DecidableEq, Repr

/-- The wording of a fault. -/
def FileFault.message : FileFault → String
  | .notFound => "no such file"
  | .isDirectory => "it is a directory"
  | .notText => "it does not hold valid UTF-8"
  | .other reason => reason

/-- Why a game cannot be wired. -/
inductive WiringError where
  | unreadable (path : String) (fault : FileFault)
  | misread (path : String) (reason : Json.Misread)
  | badGraph (path : String) (error : GraphError)
  | badDemo (error : GraphError)
  | badInput (error : InputScriptError)
deriving DecidableEq, Repr

/-- What is wrong with a text, in words. -/
def misreadText : Json.Misread → String
  | .stopped .cutShort => "the text ends inside a value"
  | .stopped .malformed => "the text is not JSON"
  | .misshapen path => "the value at " ++ Json.pathText path ++ " has the wrong shape"

/-- The wording of an error. -/
def WiringError.message : WiringError → String
  | .unreadable path fault => "read graph '" ++ path ++ "': " ++ fault.message
  | .misread path reason => "parse graph '" ++ path ++ "': " ++ misreadText reason
  | .badGraph path error => "graph '" ++ path ++ "' is invalid: " ++ error.message
  | .badDemo error => "built-in demo graph is invalid: " ++ error.message
  | .badInput error => inputVariable ++ " is not a valid input script: " ++ error.message

/-- A game ready to be played. -/
structure Wiring where
  game : Game
  input : InputScript
  maxFrames : Nat

/-- Notices that were made up to some point, and what came of it. -/
abbrev Noted (α : Type) := Array Notice × α

/-- The warning that a graph names a starting scene which it does not have. -/
def startWarning (graph : SceneGraph) : Array Notice :=
  if graph.startExists then #[] else #[.startingSceneMissing graph.start]

/-- The graph of a file. -/
def loadGraph (path : String) (contents : Except FileFault String) :
    Noted (Except WiringError SceneGraph) :=
  match contents with
  | .error fault => (#[], .error (.unreadable path fault))
  | .ok text =>
    match SceneGraph.ofText text with
    | .error reason => (#[], .error (.misread path reason))
    | .ok graph =>
      match graph.check with
      | .error e => (#[], .error (.badGraph path e))
      | .ok () =>
        let loaded : Notice :=
          .graphLoaded path graph.scenes.length graph.scripts.length graph.declarations.length
        ((startWarning graph).push loaded, .ok graph)

/-- The demo graph. -/
def loadDemo : Noted (Except WiringError SceneGraph) :=
  match Demo.graph with
  | .error e => (#[.demoChosen], .error (.badDemo e))
  | .ok graph => (#[.demoChosen] ++ startWarning graph, .ok graph)

/-- The input script of the settings. -/
def readInput (settings : Settings) : Except WiringError InputScript :=
  match settings.inputScript with
  | none => .ok .empty
  | some text => (InputScript.read text).mapError .badInput

/-- Wire the game that the settings ask for, given the contents of files. -/
def wire (settings : Settings) (contents : String → Except FileFault String) :
    Noted (Except WiringError Wiring) :=
  let (notices, graph) :=
    match settings.graphPath with
    | some path => loadGraph path (contents path)
    | none => loadDemo
  match graph with
  | .error e => (notices, .error e)
  | .ok graph =>
    match readInput settings with
    | .error e => (notices, .error e)
    | .ok input =>
      let config : Config :=
        { Config.standard with maxDepth := settings.maxDepth.getD Config.standard.maxDepth }
      let wired : Notice := .gameWired settings.maxFrames input.length config.maxDepth
      (notices.push wired, .ok ⟨⟨graph, config⟩, input, settings.maxFrames⟩)

/-- Play a wired game to its end; whether it ended well. -/
def Wiring.play (wiring : Wiring) : Noted Bool :=
  match wiring.game.session (.fresh wiring.input (some wiring.maxFrames) false) with
  | .error e => (#[.startFailed e.message], false)
  | .ok session =>
    match EStateM.run (Play.run wiring.game) session with
    | .ok summary s =>
      (s.notices.push (.runComplete summary s.host.dialogs.size s.host.sounds.size), true)
    | .error halt s => (s.notices.push (.runFailed halt.message), false)

end Overworld.Launch
