import Overworld.Proofs.Presses
import Overworld.Proofs.Validity

/-!
Where everything comes from that a game runs.

A frame and the entry to a scene run the lists of the scene, of its sensors and of its actors, the
lists nested in them, and the handlers that were registered on the way; a list is nested in an event
if the event can have it run (`Event.lists`). A `Repertoire` names the events that may be run with a
number of levels left, in a way that the lists of the scenes keep to and the nested ones as well.
Then everything that is run keeps to it, through all of a game (`Repertoire.conforms_perform`):
playing halts only where the repertoire says so, and other lists in the place of those that are
never run make no difference.
-/

namespace Overworld

open Simulation

/-! ### Lists that are run -/

/-- The lists that an event can have run: those it refers to, and that of the script it names. -/
def Event.lists (g : SceneGraph) : Event → List Handle
  | .runScript name => [(g.script name).events]
  | event => event.children

/-- What an event has run is one of its lists. -/
theorem Play.mem_lists_of_enact {game : Game} {inFrame again : Bool} {event : Event} {list : Handle}
    {s t : Session} (h : Play.enact game inFrame event s = .ok (some (list, again)) t) :
    list ∈ event.lists game.graph := by
  unfold Play.enact at h
  cases event with
  | onButtonPress buttons body =>
    cases inFrame with
    | false => exact absurd h Play.alone_ne_some
    | true =>
      obtain ⟨pressed, u, -, h⟩ := Play.bind_eq_ok_iff.mp h
      cases pressed with
      | true =>
        cases h
        exact List.mem_singleton_self list
      | false => exact nomatch h
  | branch conditions yes no =>
    obtain ⟨holds, u, -, h⟩ := Play.bind_eq_ok_iff.mp h
    cases holds with
    | true =>
      cases h
      exact List.mem_cons_self
    | false =>
      cases h
      exact List.mem_cons_of_mem _ (List.mem_singleton_self list)
  | runScript name =>
    cases h
    exact List.mem_singleton_self _
  | disabled kind => exact nomatch h
  | _ => exact absurd h Play.alone_ne_some

/-- The actor that is addressed is on the stage. -/
theorem Play.mem_actors_of_addressed {game : Game} {map : TileMap} {player : Player}
    {found : Nat × Actor} {s t : Session}
    (h : Play.addressed game map player s = .ok (some found) t) : found.2 ∈ s.stage.actors := by
  obtain ⟨activates, u, looked, h⟩ := Play.bind_eq_ok_iff.mp h
  cases looked
  split at h
  · exact (Play.of_actorInFront h).1
  · exact nomatch h

/-- The game with other event lists. -/
def Game.withLists (game : Game) (lists : List (List Event)) : Game :=
  { game with graph := { game.graph with lists := lists } }

/-- An arrival in a scene: whoever comes is one of its actors. -/
def Arrival.Of (scene : Scene) : Arrival → Prop
  | .actor _ definition _ _ => definition ∈ scene.actors
  | _ => True

/-- A halt that playing can come to whatever the graph. -/
def Halt.Common : Halt → Prop
  | .nestingTooDeep _ | .noTileSize => False
  | _ => True

/-- A routine neither nests nor asks for tiles. -/
theorem Play.Routine.halts {α : Type} {x : Play α} (h : Play.Routine x) {s t : Session} {e : Halt}
    (is : x s = .error e t) : e.Common := by
  induction h generalizing s t with
  | pure a => exact nomatch is
  | @bind α β x f first next ih ih' =>
    rw [Play.bind_apply] at is
    cases ran : x s with
    | ok a u =>
      rw [ran] at is
      exact ih' a is
    | error e' u =>
      rw [ran] at is
      cases is
      exact ih ran
  | look f same next ih =>
    rw [same] at is
    exact ih _ is
  | deed d ordinary does =>
    rw [does] at is
    exact nomatch is
  | frame =>
    rw [Play.advance_eq] at is
    cases stops : s.host.stop? with
    | none =>
      rw [stops] at is
      exact nomatch is
    | some stop =>
      rw [stops] at is
      cases is
      trivial
  | setVariable name value =>
    unfold Play.setVariable at is
    cases set : s.vars.set name value with
    | ok vars =>
      rw [set] at is
      exact nomatch is
    | error e' =>
      rw [set] at is
      cases is
      trivial
  | @await test p looks =>
    have waits (n : Nat) (s : Session) (is : Play.advanceUntil test n s = .error e t) :
        e.Common := by
      induction n generalizing s with
      | zero =>
        cases is
        trivial
      | succ n ih =>
        rw [looks.advanceUntil_succ] at is
        split at is
        · exact nomatch is
        · rw [Play.bind_apply, Play.advance_eq] at is
          cases stops : s.host.stop? with
          | none =>
            rw [stops] at is
            exact ih _ is
          | some stop =>
            rw [stops] at is
            cases is
            trivial
    exact waits _ s is

/-- Calls of a game itself, which runs no list but on its own account. -/
def Call.Directed : Call → Prop
  | .list .. => False
  | _ => True

instance : DecidablePred Call.Directed
  | .list .. => .isFalse id
  | .enter _ | .frame | .scene | .run => .isTrue trivial

/-! ### Repertoires -/

/-- A list that has the same events with other lists in the graph, all of them with a property. -/
structure Game.Offers (game : Game) (lists : List (List Event)) (p : Event → Prop)
    (list : Handle) : Prop where
  same : (game.withLists lists).graph.events list = game.graph.events list
  all : ∀ event ∈ game.graph.events list, p event

/-- What a game may run, and to which halts it may come then, with other lists in its graph as with
its own. -/
structure Repertoire (game : Game) (lists : List (List Event)) where
  /-- The events that may be run with a number of levels left. -/
  admits : Nat → Event → Prop
  ends : Halt → Prop
  common : ∀ e, e.Common → ends e
  /-- The tiles of all maps have a size, or playing may halt for want of one. -/
  sized : ends .noTileSize ∨ ∀ name map, (game.graph.scene name).map = some map → 0 < map.grid
  rises : ∀ {room more event}, room ≤ more → admits room event → admits more event
  bottom : ∀ {event}, admits 0 event → ends (.nestingTooDeep game.config.maxDepth)
  nested : ∀ {room event}, admits (room + 1) event →
    ∀ list ∈ event.lists game.graph, game.Offers lists (admits room) list
  roots : ∀ name, ∀ list ∈ (game.graph.scene name).roots,
    game.Offers lists (admits game.config.maxDepth) list

namespace Repertoire

variable {game : Game} {lists : List (List Event)} {rep : Repertoire game lists} {name : String}
  {α β : Type}

/-- Deeds that a repertoire permits: to register what may be run, and all others. -/
def Permits (rep : Repertoire game lists) : Deed → Prop
  | .register event => rep.admits game.config.maxDepth event
  | _ => True

/-- A session on the stage of a scene, on which nobody stands who is not of the scene and everything
registered may be run. -/
structure Stages (rep : Repertoire game lists) (name : String) (s : Session) : Prop where
  scene : s.stage.scene = game.graph.scene name
  actors : s.stage.actors.map (·.definition) ⊆ (game.graph.scene name).actors
  handlers : ∀ event ∈ s.stage.handlers, rep.admits game.config.maxDepth event

namespace Stages

variable {s : Session}

/-- Whatever is permitted keeps to the scene. -/
theorem deed (h : rep.Stages name s) {d : Deed} (permitted : rep.Permits d) :
    rep.Stages name (d.apply s) where
  scene := (congrArg (·.1) (d.cast_apply s)).trans h.scene
  actors := by
    rw [d.definitions_apply]
    exact h.actors
  handlers := by
    cases d with
    | register event =>
      intro handler mem
      rcases List.mem_append.mp mem with old | new
      · exact h.handlers handler old
      · rw [List.mem_singleton.mp new]
        exact permitted
    | _ => exact h.handlers

theorem frame (h : rep.Stages name s) :
    rep.Stages name { s with host := s.host.afterFrame } :=
  ⟨h.scene, h.actors, h.handlers⟩

/-- So does everybody who is of the scene. -/
theorem arrival (h : rep.Stages name s) {a : Arrival} (known : a.Of (game.graph.scene name)) :
    rep.Stages name (a.apply game s) := by
  cases a with
  | actor map definition tile z =>
    refine ⟨h.scene, ?_, h.handlers⟩
    change ((s.stage.actors ++ [_]).map _) ⊆ _
    rw [List.map_append]
    exact List.append_subset.mpr
      ⟨h.actors, List.cons_subset.mpr ⟨known, List.nil_subset _⟩⟩
  | ready => exact ⟨h.scene, h.actors, List.forall_mem_nil _⟩
  | _ => exact ⟨h.scene, h.actors, h.handlers⟩

/-- Who is on the stage has lists of the scene. -/
theorem mem_roots (h : rep.Stages name s) {actor : Actor} (mem : actor ∈ s.stage.actors)
    {list : Handle}
    (is : list ∈ [actor.definition.init, actor.definition.interact, actor.definition.update]) :
    list ∈ (game.graph.scene name).roots :=
  List.mem_cons_of_mem _ <| List.mem_append_right _ <|
    List.mem_flatMap.mpr ⟨actor.definition, h.actors (List.mem_map_of_mem mem), is⟩

theorem interact_mem (h : rep.Stages name s) {actor : Actor} (mem : actor ∈ s.stage.actors) :
    actor.definition.interact ∈ (game.graph.scene name).roots :=
  h.mem_roots mem (by simp)

theorem update_mem (h : rep.Stages name s) {actor : Actor} (mem : actor ∈ s.stage.actors) :
    actor.definition.update ∈ (game.graph.scene name).roots :=
  h.mem_roots mem (by simp)

/-- The stage of a scene is bare when it is entered. -/
theorem entering (rep : Repertoire game lists) (name : String) (s : Session) :
    rep.Stages name (s.entering game name) :=
  ⟨rfl, List.nil_subset _, List.forall_mem_nil _⟩

end Stages

/-- A session on the stage of some scene of the graph, or of the fallback. -/
def Billed (rep : Repertoire game lists) (s : Session) : Prop := ∃ name, rep.Stages name s

/-- A game starts on the stage of the fallback. -/
theorem billed_start (rep : Repertoire game lists) (host : Host) (vars : Variables) :
    rep.Billed (.start host vars (.bare .fallback)) := by
  have fallback : game.graph.scene "" = .fallback := by
    have none : game.graph.scene? "" = .none :=
      List.find?_eq_none.mpr fun scene _ => by simp [Scene.answersTo]
    rw [SceneGraph.scene, none]
    rfl
  exact ⟨"", fallback.symm, List.nil_subset _, List.forall_mem_nil _⟩

/-- An action that keeps to a repertoire from some sessions on: it keeps them, does the same with
other lists in the graph, and halts only where it may. -/
structure Conforms (rep : Repertoire game lists) (I : Session → Prop) (x y : Play α) : Prop where
  same : ∀ {s}, I s → y s = x s
  kept : Play.Keeps I x
  halts : ∀ {s t e}, I s → x s = .error e t → rep.ends e

namespace Conforms

variable {I : Session → Prop}

theorem pure (a : α) : rep.Conforms I (Pure.pure a : Play α) (Pure.pure a) :=
  ⟨fun _ => rfl, .pure a, fun _ is => nomatch is⟩

theorem throw {e : Halt} (may : rep.ends e) :
    rep.Conforms I (MonadExcept.throw e : Play α) (MonadExcept.throw e) where
  same _ := rfl
  kept := .throw e
  halts _ is := by
    cases is
    exact may

/-- What goes on goes on from a session that the first action came to. -/
theorem bind {x y : Play α} {f g : α → Play β} (first : rep.Conforms I x y)
    (next : ∀ a, (∃ s t, I s ∧ x s = .ok a t) → rep.Conforms I (f a) (g a)) :
    rep.Conforms I (x >>= f) (y >>= g) where
  same {s} hs := by
    rw [Play.bind_apply, Play.bind_apply, first.same hs]
    have kept := first.kept.final hs
    cases is : x s with
    | ok a t =>
      rw [is] at kept
      exact (next a ⟨s, t, hs, is⟩).same kept
    | error e t => rfl
  kept := ⟨fun {s} hs => by
    have kept := first.kept.final hs
    rw [Play.bind_apply]
    cases is : x s with
    | ok a t =>
      rw [is] at kept
      exact (next a ⟨s, t, hs, is⟩).kept.final kept
    | error e t =>
      rw [is] at kept
      exact kept⟩
  halts {s t e} hs stops := by
    have kept := first.kept.final hs
    rw [Play.bind_apply] at stops
    cases is : x s with
    | ok a u =>
      rw [is] at kept stops
      exact (next a ⟨s, u, hs, is⟩).halts kept stops
    | error e' u =>
      rw [is] at stops
      cases stops
      exact first.halts hs is

theorem reads {f g : Session → Play α} (next : ∀ s, I s → rep.Conforms I (f s) (g s)) :
    rep.Conforms I (get >>= f) (get >>= g) where
  same {s} hs := (next s hs).same hs
  kept := ⟨fun {s} hs => (next s hs).kept.final hs⟩
  halts {s _ _} hs is := (next s hs).halts hs is

theorem ite {c : Prop} [Decidable c] {x y x' y' : Play α} (yes : rep.Conforms I x y)
    (no : rep.Conforms I x' y') :
    rep.Conforms I (if c then x else x') (if c then y else y') := by
  split
  · exact yes
  · exact no

theorem forM {xs : List β} {f g : β → Play Unit} (h : ∀ x ∈ xs, rep.Conforms I (f x) (g x)) :
    rep.Conforms I (xs.forM f) (xs.forM g) := by
  induction xs with
  | nil => exact .pure ()
  | cons x xs ih =>
    exact (h x List.mem_cons_self).bind fun _ _ => ih fun y mem => h y (List.mem_cons_of_mem _ mem)

/-- From some scene on is from each. -/
theorem billed {x y : Play α} (h : ∀ name, rep.Conforms (rep.Stages name) x y) :
    rep.Conforms rep.Billed x y where
  same := fun ⟨name, on⟩ => (h name).same on
  kept := ⟨fun ⟨name, on⟩ => ⟨name, (h name).kept.final on⟩⟩
  halts := fun ⟨name, on⟩ is => (h name).halts on is

/-! ### Single actions -/

theorem arrival {x : Play Unit} (a : Arrival) (known : a.Of (game.graph.scene name))
    (is : ∀ s, x s = .ok () (a.apply game s)) : rep.Conforms (rep.Stages name) x x where
  same _ := rfl
  kept := ⟨fun {s} on => by
    rw [is]
    exact on.arrival known⟩
  halts {s _ _} _ stops := by
    rw [is] at stops
    exact nomatch stops

theorem deed {x : Play Unit} (d : Deed) (permitted : rep.Permits d)
    (is : ∀ s, x s = .ok () (d.apply s)) : rep.Conforms (rep.Stages name) x x where
  same _ := rfl
  kept := .deed d (fun _ on => on.deed permitted) is
  halts {s _ _} _ stops := by
    rw [is] at stops
    exact nomatch stops

/-- What an event does itself, short of registering a handler, keeps to every repertoire. -/
theorem routine {x : Play α} (h : Play.Routine x) : rep.Conforms (rep.Stages name) x x where
  same _ := rfl
  kept := h.keeps
    (fun d _ ordinary on => on.deed <| by
      cases d with
      | register event => exact ordinary.elim
      | _ => trivial)
    (fun _ _ on => ⟨on.scene, on.actors, on.handlers⟩) fun _ on => on.frame
  halts _ is := rep.common _ (h.halts is)

theorem advance : rep.Conforms (rep.Stages name) Play.advance Play.advance := routine .frame

theorem pressed (button : Button) :
    rep.Conforms (rep.Stages name) (Play.pressed button) (Play.pressed button) :=
  .reads fun _ _ => .pure _

theorem held (button : Button) :
    rep.Conforms (rep.Stages name) (Play.held button) (Play.held button) :=
  .reads fun _ _ => .pure _

/-! ### Events -/

/-- An event is run alike with other lists in the graph, up to the list that it has run. -/
theorem enact (inFrame : Bool) {event : Event}
    (admitted : rep.admits game.config.maxDepth event) :
    rep.Conforms (rep.Stages name) (Play.enact game inFrame event)
      (Play.enact (game.withLists lists) inFrame event) := by
  have same : Play.enact (game.withLists lists) inFrame event = Play.enact game inFrame event := by
    cases event <;> rfl
  rw [same]
  by_cases lasting : event.Lasting inFrame
  · cases event with
    | goToScene target start =>
      refine ⟨fun _ => rfl, ⟨fun on => ?_⟩, fun _ is => nomatch is⟩
      exact ⟨on.scene, on.actors, on.handlers⟩
    | onButtonPress buttons body =>
      cases lasting
      have registers : rep.Conforms (rep.Stages name) _ _ :=
        .deed (.register (.onButtonPress buttons body)) admitted fun _ => rfl
      exact registers.bind fun _ _ => .pure none
    | _ => exact lasting.elim
  · exact routine (.enact game lasting)

/-- An event that may be run keeps to the repertoire. -/
theorem runEvent {room : Nat} (inside : room ≤ game.config.maxDepth) (inFrame : Bool)
    {event : Event} (admitted : rep.admits room event) :
    rep.Conforms (rep.Stages name) (Play.runEvent game room inFrame event)
      (Play.runEvent (game.withLists lists) room inFrame event) := by
  induction room generalizing inFrame event with
  | zero => exact .throw (rep.bottom admitted)
  | succ room ih =>
    have records : rep.Conforms (rep.Stages name) _ _ :=
      .deed (.record event inFrame (game.config.maxDepth - room)) trivial fun _ => rfl
    refine records.bind fun _ _ =>
      (enact inFrame (rep.rises inside admitted)).bind fun next ran => ?_
    cases next with
    | none => exact .pure ()
    | some next =>
      -- What is run next is known from the session in which the event was enacted.
      obtain ⟨s, t, -, ran⟩ := ran
      have offers := rep.nested admitted next.1 (Play.mem_lists_of_enact ran)
      dsimp only
      rw [offers.same]
      exact .forM fun event mem => ih (Nat.le_of_succ_le inside) next.2 (offers.all event mem)

/-- A list that may be run keeps to the repertoire. -/
theorem runList {list : Handle} (offers : game.Offers lists (rep.admits game.config.maxDepth) list)
    (inFrame : Bool) :
    rep.Conforms (rep.Stages name) (Play.runList game list inFrame)
      (Play.runList (game.withLists lists) list inFrame) := by
  unfold Play.runList
  rw [offers.same]
  exact .forM fun event mem => runEvent (Nat.le_refl _) inFrame (offers.all event mem)

/-! ### The player under control -/

theorem tick (walk : WalkCycle) (sprite : SpriteHandle) :
    rep.Conforms (rep.Stages name) (Play.tick walk sprite) (Play.tick walk sprite) := by
  rw [tick_eq]
  split
  · rename_i picture _
    have shows : rep.Conforms (rep.Stages name) _ _ :=
      .deed (.present (.picture sprite picture)) trivial fun _ => rfl
    exact shows.bind fun _ _ => .pure _
  · exact .pure _

theorem facePlayer (d : Direction) :
    rep.Conforms (rep.Stages name) (Play.facePlayer d) (Play.facePlayer d) :=
  .deed (.turn d) trivial (facePlayer_eq d)

theorem stride (config : Config) (map : TileMap) (d : Direction) (sprite : SpriteHandle)
    (count : Nat) (position : Pixel) (walk : WalkCycle) :
    rep.Conforms (rep.Stages name) (Play.stride config map d sprite count position walk)
      (Play.stride config map d sprite count position walk) := by
  induction count generalizing position walk with
  | zero => exact .pure walk
  | succ count ih =>
    refine (deed (.place map _) trivial (placePlayer_eq map _)).bind fun _ _ => ?_
    refine bind (.bind (.deed (.camera _) trivial fun _ => rfl) fun _ _ =>
      .deed (.present (.camera _)) trivial fun _ => rfl) fun _ _ => ?_
    exact (tick walk sprite).bind fun walk _ => advance.bind fun _ _ => ih _ walk

section

variable {map : TileMap} (onMap : (game.graph.scene name).map = some map)
include onMap

/-- The tiles of a map of the graph have a size, or playing may halt. -/
theorem tileOf (p : Pixel) :
    rep.Conforms (rep.Stages name) (Play.tileOf map p) (Play.tileOf map p) := by
  unfold Play.tileOf
  cases found : map.tileOf? p with
  | some tile => exact .pure tile
  | none =>
    rcases rep.sized with may | sized
    · exact .throw may
    · have size : map.grid ≠ 0 := by
        have := sized name map onMap
        omega
      simp [TileMap.tileOf?, size] at found

/-- What a sensor has to run is of the scene. -/
theorem trigger (tile : Tile) (sprite : SpriteHandle) (walk : WalkCycle) :
    rep.Conforms (rep.Stages name) (Play.trigger game map tile sprite walk)
      (Play.trigger (game.withLists lists) map tile sprite walk) := by
  unfold Play.trigger
  cases found : map.sensorAt? tile with
  | none => exact .pure walk
  | some sensor =>
    have root : sensor.events ∈ (game.graph.scene name).roots := by
      refine List.mem_cons_of_mem _ (List.mem_append_left _ ?_)
      rw [onMap]
      exact List.mem_map_of_mem (List.mem_of_find?_eq_some found)
    refine .ite (.pure walk) ?_
    exact (runList (rep.roots name _ root) true).bind fun _ _ => (tick walk sprite).bind
      fun walk _ => advance.bind fun _ _ => .pure walk

theorem step (d : Direction) (sprite : SpriteHandle) (walk : WalkCycle) :
    rep.Conforms (rep.Stages name) (Play.step game map d sprite walk)
      (Play.step (game.withLists lists) map d sprite walk) := by
  refine .reads fun s _ => ?_
  split
  · exact .pure walk
  · refine (tileOf onMap _).bind fun tile _ => .reads fun _ _ => .ite ?_ ?_
    · exact (tick walk sprite).bind fun walk _ => advance.bind fun _ _ => .pure walk
    · exact (stride ..).bind fun walk _ => trigger onMap _ sprite walk

theorem steps (d : Direction) (sprite : SpriteHandle) (n : Nat) (walk : WalkCycle) :
    rep.Conforms (rep.Stages name) (Play.steps game map d sprite n walk)
      (Play.steps (game.withLists lists) map d sprite n walk) := by
  induction n generalizing walk with
  | zero => exact .throw (rep.common _ trivial)
  | succ n ih =>
    refine (held _).bind fun _ _ => .reads fun _ _ => .ite ?_ (.pure ())
    exact (step onMap d sprite walk).bind fun walk _ => ih walk

theorem walk (d : Direction) :
    rep.Conforms (rep.Stages name) (Play.walk game map d)
      (Play.walk (game.withLists lists) map d) := by
  refine .reads fun s _ => ?_
  split
  · exact .pure ()
  · refine (facePlayer d).bind fun _ _ => (held _).bind fun _ _ => .ite ?_ (.pure ())
    exact (steps onMap d _ _ _).bind fun _ _ => facePlayer d

theorem walkEither (first second : Direction) :
    rep.Conforms (rep.Stages name) (Play.walkEither game map first second)
      (Play.walkEither (game.withLists lists) map first second) := by
  have wants (d : Direction) :
      rep.Conforms (rep.Stages name) (Play.wants d) (Play.wants d) :=
    (pressed _).bind fun _ _ => (held _).bind fun _ _ => .pure _
  exact (wants first).bind fun _ _ => .ite (walk onMap first) <|
    (wants second).bind fun _ _ => .ite (walk onMap second) (.pure ())

/-- The actor that the player turns to is of the scene, and it has as much to do with other lists
in the graph. -/
theorem actorInFront (player : Player) :
    rep.Conforms (rep.Stages name) (Play.actorInFront game map player)
      (Play.actorInFront (game.withLists lists) map player) := by
  refine (tileOf onMap _).bind fun tile _ => .reads fun s on => ?_
  dsimp only
  cases s.stage.actorBeside? tile player.direction with
  | none => exact .pure none
  | some index =>
    dsimp only
    cases stands : s.stage.actors[index]? with
    | none => exact .pure none
    | some actor =>
      have offers := rep.roots name _ (on.interact_mem (List.mem_of_getElem? stands))
      dsimp only
      rw [offers.same]
      exact .ite (.pure _) (.pure _)

theorem addressed (player : Player) :
    rep.Conforms (rep.Stages name) (Play.addressed game map player)
      (Play.addressed (game.withLists lists) map player) :=
  (pressed _).bind fun _ _ => .ite (actorInFront onMap player) (.pure none)

end

/-- One frame of control keeps to the repertoire. -/
theorem control : rep.Conforms (rep.Stages name) (Play.control game)
    (Play.control (game.withLists lists)) := by
  rw [Play.control_eq, Play.control_eq]
  refine .reads fun s on => ?_
  cases has : s.stage.map with
  | none => exact .pure ()
  | some map =>
    cases s.stage.player with
    | none => exact .pure ()
    | some player =>
      have onMap : (game.graph.scene name).map = some map := on.scene ▸ has
      refine (addressed onMap player).bind fun found ⟨u, v, on, addressed⟩ => ?_
      cases found with
      | none => exact (walkEither onMap _ _).bind fun _ _ => walkEither onMap _ _
      | some found =>
        have mem : found.2 ∈ u.stage.actors := Play.mem_actors_of_addressed addressed
        exact (deed (.turnActor _ _) trivial (faceActor_eq _ _)).bind fun _ _ =>
          (runList (rep.roots name _ (on.interact_mem mem)) true).bind fun _ _ => advance

/-! ### Frames and scenes -/

theorem enactFrame : rep.Conforms (rep.Stages name) (Play.enactFrame game)
    (Play.enactFrame (game.withLists lists)) := by
  refine .reads fun s on => .bind (.forM fun event mem =>
    runEvent (Nat.le_refl _) true (on.handlers event mem)) fun _ _ => .reads fun t _ => ?_
  have updates : rep.Conforms (rep.Stages name)
      (get >>= fun s => s.stage.actors.forM fun actor =>
        Play.runList game actor.definition.update true)
      (get >>= fun s => s.stage.actors.forM fun actor =>
        Play.runList (game.withLists lists) actor.definition.update true) :=
    .reads fun s on => .forM fun actor mem => runList (rep.roots name _ (on.update_mem mem)) true
  exact .ite (control.bind fun _ _ => updates) updates

theorem playFrame : rep.Conforms (rep.Stages name) (Play.playFrame game)
    (Play.playFrame (game.withLists lists)) :=
  enactFrame.bind fun _ _ => advance

theorem playScene : rep.Conforms (rep.Stages name) (Play.playScene game)
    (Play.playScene (game.withLists lists)) := by
  have frames (n : Nat) : rep.Conforms (rep.Stages name) (Play.framesUntilRequest game n)
      (Play.framesUntilRequest (game.withLists lists) n) := by
    induction n with
    | zero => exact .throw (rep.common _ trivial)
    | succ n ih =>
      refine .reads fun s _ => ?_
      split
      · exact .pure _
      · exact playFrame.bind fun _ _ => ih
  refine (frames _).bind fun request _ => (routine (.changeBackground _)).bind fun _ _ =>
    (routine .showBackground).bind fun _ _ => ?_
  have remembers : rep.Conforms (rep.Stages name) _ _ :=
    .deed (.remember request) trivial fun _ => rfl
  exact remembers.bind fun _ _ => .pure request

/-! ### Entering a scene -/

theorem startPosition (scene : Scene) (spawn : PlayerSpawn) :
    rep.Conforms (rep.Stages name) (Play.startPosition scene spawn)
      (Play.startPosition scene spawn) := by
  have own : rep.Conforms (rep.Stages name)
      (do let tile ← Play.tileAt spawn.x spawn.y; return (tile, spawn.direction))
      (do let tile ← Play.tileAt spawn.x spawn.y; return (tile, spawn.direction)) :=
    (routine (.tileAt _ _)).bind fun _ _ => .pure _
  refine .reads fun s _ => ?_
  dsimp only
  split
  · refine .ite ((routine (.tileAt _ _)).bind fun tile _ => .ite ?_ own) own
    exact .bind (.arrival .forget trivial fun _ => rfl) fun _ _ => .pure _
  · exact own

theorem enterPlayer (scene : Scene) (spawn : PlayerSpawn) :
    rep.Conforms (rep.Stages name) (Play.enterPlayer game.config scene spawn)
      (Play.enterPlayer game.config scene spawn) := by
  unfold Play.enterPlayer
  split
  · exact .pure ()
  · exact (startPosition scene spawn).bind fun start _ => (routine (.intOf _)).bind fun z _ =>
      .arrival (.player _ spawn.sheet start.1 start.2 z) trivial fun _ => rfl

theorem enterProp (map : Option TileMap) (definition : PropDef) :
    rep.Conforms (rep.Stages name) (Play.enterProp map definition)
      (Play.enterProp map definition) :=
  (routine (.tileAt _ _)).bind fun tile _ => (routine (.intOf _)).bind fun z _ =>
    .arrival (.prop map definition tile z) trivial fun _ => rfl

theorem enterActor (map : Option TileMap) {definition : ActorDef}
    (mem : definition ∈ (game.graph.scene name).actors) :
    rep.Conforms (rep.Stages name) (Play.enterActor map definition)
      (Play.enterActor map definition) :=
  (routine (.tileAt _ _)).bind fun tile _ => (routine (.intOf _)).bind fun z _ =>
    .arrival (.actor map definition tile z) mem fun _ => rfl

/-- A scene that is furnished has its actors and its own events run. -/
theorem furnish : rep.Conforms (rep.Stages name) (Play.furnish game (game.graph.scene name))
    (Play.furnish (game.withLists lists) (game.graph.scene name)) := by
  have shows : rep.Conforms (rep.Stages name)
      (modify fun s => { s with host := s.host.setCamera s.stage.camera } : Play Unit)
      (modify fun s => { s with host := s.host.setCamera s.stage.camera }) :=
    ⟨fun _ => rfl, ⟨fun {s} on => on.deed (d := .present (.camera s.stage.camera)) trivial⟩,
      fun _ is => nomatch is⟩
  refine shows.bind fun _ _ => .bind (.forM fun definition _ => enterProp _ definition) fun _ _ =>
    .bind (.forM fun definition mem => (enterActor _ mem).bind fun _ _ => ?_) fun _ _ =>
      .bind (.arrival .ready trivial fun _ => rfl) fun _ _ => .reads fun _ _ =>
        (routine (.note _)).bind fun _ _ => runList (rep.roots name _ List.mem_cons_self) false
  have root : definition.init ∈ (game.graph.scene name).roots :=
    List.mem_cons_of_mem _ <| List.mem_append_right _ <|
      List.mem_flatMap.mpr ⟨definition, mem, List.mem_cons_self⟩
  exact runList (rep.roots name _ root) false

theorem build : rep.Conforms (rep.Stages name) (Play.build game (game.graph.scene name))
    (Play.build (game.withLists lists) (game.graph.scene name)) := by
  refine (routine .showBackground).bind fun _ _ => ?_
  dsimp only
  split
  · exact (enterPlayer _ _).bind fun _ _ => furnish
  · exact furnish

/-- Whatever the stage was, entering a scene keeps to the repertoire. -/
theorem enterScene (name : String) : rep.Conforms rep.Billed (Play.enterScene game name)
    (Play.enterScene (game.withLists lists) name) := by
  -- The stage is that of the last scene until the new one is opened, so the sessions before and
  -- after the opening are of different kinds.
  have opens (s : Session) : ∃ t, rep.Stages name t ∧
      Play.enterScene game name s = Play.build game (game.graph.scene name) t ∧
      Play.enterScene (game.withLists lists) name s =
        Play.build (game.withLists lists) (game.graph.scene name) t := by
    have entered := Stages.entering rep name s
    have same : Play.openScene (game.withLists lists).graph name s =
      Play.openScene game.graph name s := rfl
    rw [Play.enterScene, Play.enterScene, Play.bind_apply, Play.bind_apply, same, openScene_eq]
    cases game.graph.scene? name with
    | some scene => exact ⟨_, entered, rfl, rfl⟩
    | none => exact ⟨_, entered.deed (d := .note _) trivial, rfl, rfl⟩
  constructor
  · intro s _
    obtain ⟨t, on, is, is'⟩ := opens s
    rw [is, is', build.same on]
  · refine ⟨fun {s} _ => ?_⟩
    obtain ⟨t, on, is, -⟩ := opens s
    rw [is]
    exact ⟨name, build.kept.final on⟩
  · intro s t e _ stops
    obtain ⟨u, on, is, -⟩ := opens s
    rw [is] at stops
    exact build.halts on stops

/-! ### Whole runs -/

theorem visit (name : String) : rep.Conforms rep.Billed (Play.visit game name)
    (Play.visit (game.withLists lists) name) :=
  (enterScene name).bind fun _ _ => .billed fun _ => playScene

theorem playScenes (scenes : Nat) (name : String) :
    rep.Conforms rep.Billed (Play.playScenes game scenes name)
      (Play.playScenes (game.withLists lists) scenes name) := by
  induction scenes generalizing name with
  | zero => exact .throw (rep.common _ trivial)
  | succ scenes ih =>
    have visits : rep.Conforms rep.Billed _ _ := visit name
    constructor
    · intro s billed
      have kept := visits.kept.final billed
      rw [Play.playScenes_succ, Play.playScenes_succ, visits.same billed]
      cases visited : Play.visit game name s with
      | ok request t =>
        rw [visited] at kept
        exact (ih request.target).same kept
      | error e t => cases e <;> rfl
    · refine ⟨fun {s} billed => ?_⟩
      have kept := visits.kept.final billed
      rw [Play.playScenes_succ]
      cases visited : Play.visit game name s with
      | ok request t =>
        rw [visited] at kept
        exact (ih request.target).kept.final kept
      | error e t =>
        rw [visited] at kept
        cases e <;> exact kept
    · intro s t e billed stops
      have kept := visits.kept.final billed
      rw [Play.playScenes_succ] at stops
      cases visited : Play.visit game name s with
      | ok request u =>
        rw [visited] at kept stops
        exact (ih request.target).halts kept stops
      | error e' u =>
        have may := visits.halts billed visited
        rw [visited] at stops
        cases e' with
        | host stop => exact nomatch stops
        | _ =>
          cases stops
          exact may

theorem run : rep.Conforms rep.Billed (Play.run game) (Play.run (game.withLists lists)) := by
  refine .reads fun s _ => (playScenes _ _).bind fun stop _ => .reads fun t _ => ?_
  exact .billed fun _ => (routine (.note _)).bind fun _ _ => .pure _

end Conforms

/-- What may be asked of a game: to run a list only if it may be run. -/
def Directs (rep : Repertoire game lists) : Call → Prop
  | .list list _ => game.Offers lists (rep.admits game.config.maxDepth) list
  | _ => True

/-- **Everything that is asked of a game keeps to its repertoire**, from a stage of the graph on. -/
theorem conforms_perform (rep : Repertoire game lists) {call : Call} (directed : rep.Directs call) :
    rep.Conforms rep.Billed (call.perform game) (call.perform (game.withLists lists)) := by
  cases call with
  | enter name => exact .enterScene name
  | frame => exact .billed fun _ => .playFrame
  | scene => exact .billed fun _ => Conforms.playScene.bind fun _ _ => .pure ()
  | run => exact Conforms.run.bind fun _ _ => .pure ()
  | list list inFrame => exact .billed fun _ => .runList directed inFrame

/-- Any number of calls ends on a stage of the graph, and in the same session with other lists. -/
theorem billed_after (rep : Repertoire game lists) {s : Session} (billed : rep.Billed s)
    {calls : List Call} (directed : ∀ call ∈ calls, rep.Directs call) :
    rep.Billed (s.after game calls) ∧
      s.after (game.withLists lists) calls = s.after game calls := by
  induction calls generalizing s with
  | nil =>
    simp only [Session.after, List.foldl_nil, and_true]
    exact billed
  | cons call calls ih =>
    have conforms := rep.conforms_perform (directed call List.mem_cons_self)
    have next := ih (conforms.kept.final billed) fun other mem =>
      directed other (List.mem_cons_of_mem _ mem)
    refine ⟨next.1, ?_⟩
    change (Play.final (call.perform (game.withLists lists) s)).after _ calls = _
    rw [conforms.same billed]
    exact next.2

end Repertoire

theorem Call.Directed.directs {game : Game} {lists : List (List Event)}
    {rep : Repertoire game lists} {call : Call} (directed : call.Directed) : rep.Directs call := by
  cases call with
  | list => exact directed.elim
  | _ => trivial

end Overworld
