import Overworld.Scene

/-!
The scene graph: all scenes, scripts, variables and event lists of a game.

The lists stand in one array, and everything refers to them by handle. Looking something up never
fails: what does not exist is an empty list, an empty script or the fallback scene.
-/

namespace Overworld

/-- A variable and its first value. -/
structure VariableDecl where
  name : String
  value : Value
deriving DecidableEq, Repr

/-- A whole game as it is loaded. -/
structure SceneGraph where
  startingScene : Option String
  declarations : List VariableDecl
  scenes : List Scene
  scripts : List Script
  /-- The first list is the one of the handle zero, and has to be empty. -/
  lists : List (List Event)
deriving DecidableEq, Repr

namespace SceneGraph

/-- The graph with nothing in it but the reserved list. -/
def empty : SceneGraph := ⟨none, [], [], [], [[]]⟩

instance : Inhabited SceneGraph := ⟨empty⟩

/-- The events of a list; none for a handle of no list. -/
def events (g : SceneGraph) (h : Handle) : List Event := (g.lists[h.index]?).getD []

/-- The first scene that goes by a name. -/
def scene? (g : SceneGraph) (name : String) : Option Scene := g.scenes.find? (·.answersTo name)

/-- The scene of a name, or the fallback. -/
def scene (g : SceneGraph) (name : String) : Scene := (g.scene? name).getD .fallback

/-- The first script that goes by a name, or the empty one. -/
def script (g : SceneGraph) (name : String) : Script :=
  (g.scripts.find? (·.answersTo name)).getD .empty

/-- The name of the scene to start with: the one asked for, else the first scene, by its id if it
has one. -/
def start (g : SceneGraph) : String :=
  match g.startingScene, g.scenes with
  | some name, _ => name
  | none, scene :: _ => if scene.id = "" then scene.name else scene.id
  | none, [] => ""

/-- Whether the scene to start with exists. -/
def startExists (g : SceneGraph) : Bool := (g.scene? g.start).isSome

/-- The variables as declared. -/
def freshVariables (g : SceneGraph) : Except VariableError Variables :=
  Variables.ofDeclarations (g.declarations.map fun d => (d.name, d.value))

end SceneGraph

end Overworld
