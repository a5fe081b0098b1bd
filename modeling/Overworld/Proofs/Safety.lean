import Overworld.Proofs.Repertoire
import Overworld.Proofs.Termination

/-!
Valid graphs play safely.

Everything that a game can come to run in a valid graph has handles of lists that the graph has: the
lists of the scenes do, and the events of any list do, so they are a repertoire
(`SceneGraph.Valid.repertoire`). Lists in place of those that are missing can therefore not be told
from none. The maps are those of the scenes, so that tiles have a size wherever one is asked for,
and no cell is looked for that a map does not have.
-/

namespace Overworld

namespace SceneGraph.Valid

variable {g : SceneGraph} (valid : g.Valid)
include valid

/-- The lists of every scene are there, and the fallback has only the empty one. -/
theorem has_root {name : String} {list : Handle} (root : list ∈ (g.scene name).roots) :
    g.Has list := by
  unfold scene at root
  cases found : g.scene? name with
  | some scene =>
    rw [found] at root
    exact valid.roots scene (List.mem_of_find?_eq_some found) list root
  | none =>
    rw [found] at root
    rw [List.mem_singleton.mp root]
    exact .inl rfl

/-- So is the list of every script, and that of the one that stands in for the others is empty. -/
theorem has_script (name : String) : g.Has (g.script name).events := by
  unfold script
  cases found : g.scripts.find? (·.answersTo name) with
  | some script => exact valid.scripts script (List.mem_of_find?_eq_some found)
  | none => exact .inl rfl

/-- Every list is there that an event of the graph can have run. -/
theorem has_nested {list nested : Handle} {event : Event} (mem : event ∈ g.events list)
    (is : nested ∈ event.lists g) : g.Has nested := by
  obtain ⟨events, known, mem⟩ : ∃ events ∈ g.lists, event ∈ events := by
    unfold events at mem
    cases found : g.lists[list.index]? with
    | some events =>
      rw [found] at mem
      exact ⟨events, List.mem_of_getElem? found, mem⟩
    | none =>
      rw [found] at mem
      exact nomatch mem
  cases event with
  | runScript name =>
    rw [List.mem_singleton.mp is]
    exact valid.has_script name
  | _ => exact valid.children events known _ mem nested is

end SceneGraph.Valid

open SceneGraph

/-- Other lists for a graph, which agree with its own for every handle that it has. -/
def SceneGraph.Agrees (g : SceneGraph) (lists : List (List Event)) : Prop :=
  ∀ list, g.Has list → { g with lists := lists }.events list = g.events list

/-- In a valid graph everything that is run has handles of lists that are there. -/
def SceneGraph.Valid.repertoire {game : Game} (valid : game.graph.Valid) {lists : List (List Event)}
    (agrees : game.graph.Agrees lists) : Repertoire game lists where
  admits _ event := ∀ list ∈ event.lists game.graph, game.graph.Has list
  ends e := e ≠ .noTileSize
  common e common is := by
    rw [is] at common
    exact common
  sized := .inr fun name map has =>
    (valid.maps _ (scene_mem has) map has).grid
  rises _ admitted := admitted
  bottom _ := nofun
  nested admitted list is :=
    ⟨agrees list (admitted list is), fun _ mem _ nested => valid.has_nested mem nested⟩
  roots name list root :=
    ⟨agrees list (valid.has_root root), fun _ mem _ nested => valid.has_nested mem nested⟩

/-! ### Safe sessions -/

/-- A session from which a game plays safely. -/
structure Session.Safe (game : Game) (s : Session) : Prop where
  /-- Whatever the session comes to, its map has tiles of some size, -/
  grid {t : Session} {map : TileMap} (comes : Course game s t) (onMap : t.stage.map = some map) :
    0 < map.grid
  /-- and a cell for each of its tiles. -/
  cells {t : Session} {map : TileMap} {tile : Tile} {i : Nat} (comes : Course game s t)
    (onMap : t.stage.map = some map) (is : map.index? tile = some i) : i < map.cells.length
  /-- No call asks for a tile of no size, -/
  tiles {call : Call} (directed : call.Directed) (t : Session) :
    call.perform game s ≠ .error .noTileSize t
  /-- and no run does. -/
  tilesRun (t : Session) : Play.run game s ≠ .error .noTileSize t
  /-- The lists of whatever scene it comes to are there, those that the handlers can have run, and
  those that any event of any list can have run. -/
  roots {t : Session} (comes : Course game s t) : ∀ list ∈ t.stage.scene.roots, game.graph.Has list
  handlers : ∀ event ∈ s.stage.handlers, ∀ list ∈ event.lists game.graph, game.graph.Has list
  nested {list : Handle} : ∀ event ∈ game.graph.events list, ∀ inner ∈ event.lists game.graph,
    game.graph.Has inner
  /-- What no handle of the graph refers to is never run: with other lists in its place every call
  does the same, -/
  resolves {lists : List (List Event)} (agrees : game.graph.Agrees lists) {call : Call}
    (directed : call.Directed) : call.perform (game.withLists lists) s = call.perform game s
  /-- and so does every run. -/
  resolvesRun {lists : List (List Event)} (agrees : game.graph.Agrees lists) :
    Play.run (game.withLists lists) s = Play.run game s

/-- All along, the scene of a session is one of the graph, or the fallback. -/
theorem Course.scene_of_graph {game : Game} {s t : Session} (course : Course game s t)
    (known : ∃ name, s.stage.scene = game.graph.scene name) :
    ∃ name, t.stage.scene = game.graph.scene name :=
  course.keeps (P := fun u => ∃ name, u.stage.scene = game.graph.scene name)
    (fun u v move ⟨name, is⟩ => by
      cases move with
      | stay step => exact ⟨name, (Stretch.scene_eq (.single step)).trans is⟩
      | arrive a allowed => exact ⟨name, by cases a <;> exact is⟩
      | enter name => exact ⟨name, rfl⟩)
    known

/-- A session on a stage of a valid graph is safe. -/
theorem Session.safe_of_billed {game : Game} (valid : game.graph.Valid) {s : Session}
    (billed : (valid.repertoire (fun _ _ => rfl) : Repertoire game game.graph.lists).Billed s) :
    s.Safe game := by
  obtain ⟨name, on⟩ := billed
  have billed {lists : List (List Event)} (agrees : game.graph.Agrees lists) :
      (valid.repertoire agrees).Billed s := ⟨name, on.scene, on.actors, on.handlers⟩
  have scene {t : Session} (comes : Course game s t) :
      ∃ name, t.stage.scene = game.graph.scene name := comes.scene_of_graph ⟨name, on.scene⟩
  have sound {t : Session} {map : TileMap} (comes : Course game s t)
      (onMap : t.stage.map = some map) : map.Valid := by
    obtain ⟨name, is⟩ := scene comes
    rw [Stage.map, is] at onMap
    exact valid.maps _ (scene_mem onMap) map onMap
  exact
    { grid := fun comes onMap => (sound comes onMap).grid
      cells := fun comes onMap is => (sound comes onMap).index_lt is
      tiles := fun directed t stops =>
        (Repertoire.conforms_perform (valid.repertoire fun _ _ => rfl) directed.directs).halts
          (billed _) stops rfl
      tilesRun := fun t stops =>
        Repertoire.Conforms.run.halts (billed fun _ _ => rfl) stops rfl
      roots := fun comes list root => by
        obtain ⟨name, is⟩ := scene comes
        exact valid.has_root (is ▸ root)
      handlers := on.handlers
      nested := fun event mem inner is => valid.has_nested mem is
      resolves := fun {lists} agrees {call} directed =>
        ((valid.repertoire agrees).conforms_perform directed.directs).same (billed agrees)
      resolvesRun := fun agrees => Repertoire.Conforms.run.same (billed agrees) }

/-! ### The law of the check -/

/-- What the check of a graph comes to. -/
structure SceneGraph.CheckedExactly (g : SceneGraph) : Prop where
  /-- It accepts exactly the valid graphs. -/
  exact : g.check = .ok () ↔ g.Valid
  /-- A game with an accepted graph can be started, -/
  starts (checked : g.check = .ok ()) (config : Config) (host : Host) :
    ∃ s, Game.session ⟨g, config⟩ host = .ok s
  /-- and is safe whatever was asked of it. -/
  safe (checked : g.check = .ok ()) {config : Config} {host : Host} {s : Session}
    (started : Game.session ⟨g, config⟩ host = .ok s) (calls : List Call)
    (directed : ∀ call ∈ calls, call.Directed) : (s.after ⟨g, config⟩ calls).Safe ⟨g, config⟩

/-- **The check is exact, and it is enough.** It accepts exactly the graphs in which nothing is
wrong; games with such a graph start, ask for no tile or cell that is not there, and run no list
that is not there. -/
theorem checkedExactly (g : SceneGraph) : g.CheckedExactly where
  exact := check_eq_ok_iff_valid
  starts checked config host := by
    obtain ⟨vars, fresh⟩ := freshVariables_isOk_iff.mpr (check_eq_ok_iff_valid.mp checked).names
    exact ⟨_, Game.session_eq_ok_iff.mpr ⟨vars, fresh, rfl⟩⟩
  safe checked config host s started calls directed := by
    obtain ⟨vars, -, rfl⟩ := Game.session_eq_ok_iff.mp started
    have valid := check_eq_ok_iff_valid.mp checked
    exact Session.safe_of_billed valid
      (Repertoire.billed_after _ (Repertoire.billed_start _ host vars) fun call mem =>
        (directed call mem).directs).1

/-- The graph of the bell is accepted, and the yard is safe when its first frame was played. -/
theorem checkedExactly_bell :
    Game.bell.graph.check = .ok () ∧ Game.bell.graph.CheckedExactly ∧
      ∃ s, Game.bell.session (.fresh .empty (some 9) false) = .ok s ∧
        (s.after Game.bell [.enter "yard", .frame]).Safe Game.bell :=
  ⟨by decide +kernel, checkedExactly _, _, rfl,
    (checkedExactly _).safe (by decide +kernel) rfl _ (by decide)⟩

end Overworld
