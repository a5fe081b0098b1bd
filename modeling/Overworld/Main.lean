import Overworld.Launch.Wiring

/-!
The command line: plays the game of the launch settings without a window, and reports on it.
-/

namespace Overworld.Launch

/-- The contents of a file, as text. -/
def readTextFile (path : String) : IO (Except FileFault String) := do
  let attempt ← (IO.FS.readBinFile path).toBaseIO
  match attempt with
  | .ok bytes =>
    match String.fromUTF8? bytes with
    | some text => return .ok text
    | none => return .error .notText
  | .error (.noFileOrDirectory ..) => return .error .notFound
  | .error e =>
    if e.toString.contains "directory" then return .error .isDirectory
    else return .error (.other e.toString)

/-- The name of a level. -/
def levelName : Level → String
  | .info => "INFO"
  | .warn => "WARN"
  | .error => "ERROR"

/-- The text of what a field holds. -/
def valueText : NoticeValue → String
  | .text s => s
  | .number n => toString n
  | .flag b => if b then "true" else "false"

/-- Print a notice on a line. -/
def printNotice (notice : Notice) : IO Unit := do
  let fields := notice.fields.map fun field => " " ++ field.1 ++ "=" ++ valueText field.2
  IO.println (levelName notice.level ++ " " ++ notice.message ++ String.join fields)

/-- Report that the program could not start. -/
def failStart (message : String) : IO UInt32 := do
  printNotice (.startFailed message)
  return 1

/-- Resolve, wire and play. -/
def launch (arguments : List String) : IO UInt32 := do
  IO.println "INFO === Tilescript Startup ==="
  let names := [graphVariable, framesVariable, inputVariable, depthVariable]
  let environment ← names.mapM fun name => do return (name, ← IO.getEnv name)
  match Settings.resolve arguments.head? fun name => (environment.lookup name).join with
  | .error e => failStart e.message
  | .ok settings =>
    let contents ←
      match settings.graphPath with
      | some path => readTextFile path
      | none => pure (.error .notFound)
    let (notices, wired) := wire settings fun _ => contents
    notices.forM printNotice
    match wired with
    | .error e => failStart e.message
    | .ok wiring =>
      let (notices, success) := wiring.play
      notices.forM printNotice
      return if success then 0 else 1

end Overworld.Launch

/-- Play the game that the command line and the environment ask for. -/
def main (arguments : List String) : IO UInt32 := Overworld.Launch.launch arguments
