import Overworld.Host

/-!
Notices: what a running game reports of itself.

Each notice has a level, a message and named fields. Warnings tell of things that a graph refers to
and that do not exist; the game goes on after each of them.
-/

namespace Overworld

/-- How much a notice matters. -/
inductive Level where
  | info
  | warn
  | error
deriving DecidableEq, Repr

/-- What a field of a notice holds. -/
inductive NoticeValue where
  | text (s : String)
  | number (n : Int)
  | flag (b : Bool)
deriving DecidableEq, Repr

/-- How a run ended. -/
structure RunSummary where
  frames : Nat
  scenesEntered : Nat
  lastScene : String
  stop : HostStop
deriving DecidableEq, Repr

/-- Something that a running game reports. -/
inductive Notice where
  | startingSceneMissing (scene : String)
  | variableMissing (name : String)
  | sceneMissing (scene : String)
  | actorMissing (actor : String)
  | cameraWithoutMap (scene : String)
  | unknownEvent
  | sceneRequested (scene : String)
  | sceneEntered (scene : String) (actors : Nat) (hasPlayer : Bool)
  | dialogOpened (text : String)
  | actorEnabled (actor : String)
  | actorDisabled (actor : String)
  | musicStarted (name : String) (volume : Int) (loops : Bool)
  | musicStopped
  | runStopped (summary : RunSummary)
  | demoChosen
  | graphLoaded (path : String) (scenes scripts declarations : Nat)
  | gameWired (maxFrames scriptedFrames maxDepth : Nat)
  | runComplete (summary : RunSummary) (dialogs sounds : Nat)
  | startFailed (error : String)
  | runFailed (error : String)
deriving DecidableEq, Repr

namespace Notice

/-- How much a notice matters. -/
def level : Notice → Level
  | startingSceneMissing _ | variableMissing _ | sceneMissing _ | actorMissing _
  | cameraWithoutMap _ | unknownEvent => .warn
  | startFailed _ | runFailed _ => .error
  | _ => .info

/-- The message of a notice. -/
def message : Notice → String
  | startingSceneMissing _ => "starting_scene_not_found"
  | variableMissing _ => "variable_not_found"
  | sceneMissing _ => "scene_not_found"
  | actorMissing _ => "actor_not_found"
  | cameraWithoutMap _ => "camera_move_without_map"
  | unknownEvent => "unknown_event"
  | sceneRequested _ => "scene_change_requested"
  | sceneEntered .. => "scene_entered"
  | dialogOpened _ => "dialog_opened"
  | actorEnabled _ => "actor_enabled"
  | actorDisabled _ => "actor_disabled"
  | musicStarted .. => "music_started"
  | musicStopped => "music_stopped"
  | runStopped _ => "run_stopped"
  | demoChosen => "graph_path_not_set_using_demo"
  | graphLoaded .. => "graph_loaded"
  | gameWired .. => "app_wired"
  | runComplete .. => "run_complete"
  | startFailed _ => "startup_failed"
  | runFailed _ => "runtime_failed"

/-- The fields of a summary. -/
def summaryFields (s : RunSummary) : List (String × NoticeValue) :=
  [("frames", .number s.frames), ("scenes_entered", .number s.scenesEntered),
   ("last_scene", .text s.lastScene), ("stop", .text s.stop.message)]

/-- The fields of a notice. -/
def fields : Notice → List (String × NoticeValue)
  | startingSceneMissing scene | sceneMissing scene | cameraWithoutMap scene
  | sceneRequested scene => [("scene", .text scene)]
  | variableMissing name => [("variable", .text name)]
  | actorMissing actor | actorEnabled actor | actorDisabled actor => [("actor", .text actor)]
  | unknownEvent | musicStopped | demoChosen => []
  | sceneEntered scene actors hasPlayer =>
    [("scene", .text scene), ("actor_count", .number actors), ("has_player", .flag hasPlayer)]
  | dialogOpened text => [("text", .text text)]
  | musicStarted name volume loops =>
    [("music", .text name), ("volume", .number volume), ("looping", .flag loops)]
  | runStopped summary => summaryFields summary
  | graphLoaded path scenes scripts declarations =>
    [("path", .text path), ("scenes", .number scenes), ("scripts", .number scripts),
     ("variables", .number declarations)]
  | gameWired maxFrames scriptedFrames maxDepth =>
    [("max_frames", .number maxFrames), ("scripted_frames", .number scriptedFrames),
     ("max_event_depth", .number maxDepth)]
  | runComplete summary dialogs sounds =>
    summaryFields summary ++ [("dialogs", .number dialogs), ("sounds", .number sounds)]
  | startFailed error | runFailed error => [("error", .text error)]

end Notice

end Overworld
