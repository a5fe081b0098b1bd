import Overworld.Graph.Faults

/-!
Building a graph piece by piece.

Lists are added first, and adding one gives the handle to refer to it by; handles stay good whatever
is added later. Empty lists are never stored, their handle is the empty one.
-/

namespace Overworld.SceneGraph

/-- Add an event list; its handle, and the graph with it. -/
def addList (g : SceneGraph) (events : List Event) : Handle × SceneGraph :=
  if events.isEmpty then (.empty, g)
  else (⟨g.lists.length⟩, { g with lists := g.lists ++ [events] })

/-- Declare a variable. -/
def addVariable (g : SceneGraph) (name : String) (value : Value) : SceneGraph :=
  { g with declarations := g.declarations ++ [⟨name, value⟩] }

/-- Add a scene. -/
def addScene (g : SceneGraph) (scene : Scene) : SceneGraph :=
  { g with scenes := g.scenes ++ [scene] }

/-- Add a script. -/
def addScript (g : SceneGraph) (name : String) (events : Handle) : SceneGraph :=
  { g with scripts := g.scripts ++ [⟨"", name, events⟩] }

/-- Name the scene to start with. -/
def startAt (g : SceneGraph) (name : String) : SceneGraph := { g with startingScene := some name }

/-- The finished graph, if nothing is wrong with it. -/
def finish (g : SceneGraph) : Except GraphError SceneGraph := g.check.map fun _ => g

end Overworld.SceneGraph
