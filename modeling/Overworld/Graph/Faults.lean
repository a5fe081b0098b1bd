import Overworld.Graph

/-!
What can be wrong with a scene graph.

`SceneGraph.faults` lists every fault in a fixed order, and `SceneGraph.check` reports the first.
A graph without faults has an empty reserved list, distinct variables, sound maps, handles of
existing lists only, and no event with too many buttons.
-/

namespace Overworld

/-- What a handle belongs to. -/
inductive Owner where
  | scene (label : String)
  | sensor (scene id : String)
  | actor (scene name : String)
  | script (name : String)
  | event (position list : Nat) (kind : String)
deriving DecidableEq, Repr

/-- The name of an owner in messages. -/
def Owner.text : Owner → String
  | .scene label => "scene " ++ label
  | .sensor label id => "scene " ++ label ++ " sensor " ++ id
  | .actor label name => "scene " ++ label ++ " actor " ++ name
  | .script name => "script " ++ name
  | .event position list kind =>
    "event " ++ toString position ++ " of list " ++ toString list ++ " (" ++ kind ++ ")"

/-- What can be wrong with a graph. -/
inductive GraphError where
  | reservedListNotEmpty (length : Nat)
  | danglingHandle (owner : Owner) (list available : Nat)
  | tooManyButtons (owner : Owner) (count : Nat)
  | duplicateVariable (name : String)
  | badMap (scene : String) (error : MapError)
deriving DecidableEq, Repr

/-- The wording of an error. -/
def GraphError.message : GraphError → String
  | .reservedListNotEmpty length =>
    "event list 0 is reserved for the empty list but holds " ++ toString length ++ " events"
  | .danglingHandle owner list available =>
    owner.text ++ " references event list " ++ toString list ++ " but the graph has " ++
      toString available ++ " lists"
  | .tooManyButtons owner count =>
    owner.text ++ " lists " ++ toString count ++ " buttons; at most " ++ toString buttonLimit ++
      " are allowed"
  | .duplicateVariable name => "variable " ++ name ++ " is declared more than once"
  | .badMap scene error => "map of scene " ++ scene ++ " is invalid: " ++ error.message

namespace SceneGraph

/-- Whether a handle belongs to a list of the graph, or is the empty one. -/
def resolves (g : SceneGraph) (h : Handle) : Bool := h.index < g.lists.length || h == .empty

/-- The fault of a handle, if it has one. -/
def handleFaults (g : SceneGraph) (owner : Owner) (h : Handle) : List GraphError :=
  if g.resolves h then [] else [.danglingHandle owner h.index g.lists.length]

/-- The fault of the reserved list. -/
def reservedFaults (g : SceneGraph) : List GraphError :=
  match g.lists with
  | (event :: events) :: _ => [.reservedListNotEmpty (event :: events).length]
  | _ => []

/-- The names of a list that came before in it, or were seen already. -/
def repeated (seen : List String) : List String → List String
  | [] => []
  | name :: names =>
    if seen.contains name then name :: repeated seen names else repeated (name :: seen) names

/-- The faults of a map: its own, and those of its sensors. -/
def mapFaults (g : SceneGraph) (label : String) (m : TileMap) : List GraphError :=
  (m.fault?.map (GraphError.badMap label)).toList ++
    m.sensors.flatMap fun s => g.handleFaults (.sensor label s.id) s.events

/-- The faults of a scene. -/
def sceneFaults (g : SceneGraph) (s : Scene) : List GraphError :=
  g.handleFaults (.scene s.label) s.events ++
    (match s.map with
      | some m => g.mapFaults s.label m
      | none => []) ++
    s.actors.flatMap fun a =>
      [a.init, a.interact, a.update].flatMap (g.handleFaults (.actor s.label a.name))

/-- The faults of an event: its handles, then its buttons. -/
def eventFaults (g : SceneGraph) (owner : Owner) (e : Event) : List GraphError :=
  e.children.flatMap (g.handleFaults owner) ++
    if buttonLimit < e.buttons.length then [.tooManyButtons owner e.buttons.length] else []

/-- The faults of all event lists. -/
def listFaults (g : SceneGraph) : List GraphError :=
  g.lists.zipIdx.flatMap fun (list, index) =>
    list.zipIdx.flatMap fun (event, position) =>
      g.eventFaults (.event position index event.kind) event

/-- Everything that is wrong with a graph, in the order in which it is reported. -/
def faults (g : SceneGraph) : List GraphError :=
  g.reservedFaults ++
    (repeated [] (g.declarations.map (·.name))).map GraphError.duplicateVariable ++
    g.scenes.flatMap g.sceneFaults ++
    (g.scripts.flatMap fun s => g.handleFaults (.script s.name) s.events) ++
    g.listFaults

/-- The first fault of a graph, if it has any. -/
def check (g : SceneGraph) : Except GraphError Unit :=
  match g.faults with
  | [] => .ok ()
  | e :: _ => .error e

/-- A graph passes the check exactly when nothing is wrong with it. -/
theorem check_eq_ok_iff {g : SceneGraph} : g.check = .ok () ↔ g.faults = [] := by
  unfold check
  split <;> simp_all

end SceneGraph

end Overworld
