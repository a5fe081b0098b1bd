import Overworld.Proofs.Pairing

/-!
Graphs that are the same but for their handles.

Lists are only reached by handles, so two graphs are the same game if their handles correspond: the
scenes, the scripts and the events are the same but for the handles in them, and handles that stand
for each other lead to lists of events that are alike again (`Rewiring`). Two sessions of such games
then differ in the handles of what is on the stage alone (`Session.Rewired`), and whatever is done
to both of them leaves it at that. Where the graphs are one, and the handles too, that says what a
session refers to.
-/

namespace Overworld

open List (Forall₂)

/-! ### Lists side by side -/

namespace Forall₂

variable {α β γ : Type} {R : α → β → Prop} {xs : List α} {ys : List β}

/-- What corresponding elements have in common, the lists have. -/
theorem map_eq (h : Forall₂ R xs ys) {f : α → γ} {g : β → γ} (same : ∀ a b, R a b → g b = f a) :
    ys.map g = xs.map f := by
  induction h with
  | nil => rfl
  | cons is _ ih => rw [List.map_cons, List.map_cons, same _ _ is, ih]

theorem findIdx?_eq (h : Forall₂ R xs ys) {p : α → Bool} {q : β → Bool}
    (same : ∀ a b, R a b → q b = p a) : ys.findIdx? q = xs.findIdx? p := by
  have tests := congrArg (List.findIdx? id) (map_eq h same)
  rwa [List.findIdx?_map, List.findIdx?_map] at tests

theorem any_eq (h : Forall₂ R xs ys) {p : α → Bool} {q : β → Bool}
    (same : ∀ a b, R a b → q b = p a) : ys.any q = xs.any p := by
  have tests := congrArg (List.any · id) (map_eq h same)
  simp only [List.any_map] at tests
  exact tests

theorem find? (h : Forall₂ R xs ys) {p : α → Bool} {q : β → Bool}
    (same : ∀ a b, R a b → q b = p a) : Option.Rel R (xs.find? p) (ys.find? q) := by
  induction h with
  | nil => exact .none
  | @cons a b xs ys is _ ih =>
    rw [List.find?_cons, List.find?_cons, same _ _ is]
    cases p a with
    | true => exact .some is
    | false => exact ih

theorem getElem? (h : Forall₂ R xs ys) (index : Nat) : Option.Rel R xs[index]? ys[index]? := by
  induction h generalizing index with
  | nil => exact .none
  | cons is _ ih =>
    cases index with
    | zero => exact .some is
    | succ index => exact ih index

theorem set (h : Forall₂ R xs ys) {a : α} {b : β} (is : R a b) (index : Nat) :
    Forall₂ R (xs.set index a) (ys.set index b) := by
  induction h generalizing index with
  | nil => exact .nil
  | cons first rest ih =>
    cases index with
    | zero => exact .cons is rest
    | succ index => exact .cons first (ih index)

end Forall₂

/-! ### What refers to lists -/

/-- How handles and events of two graphs correspond. -/
structure Wiring where
  /-- Handles of lists that stand for each other. -/
  stands : Handle → Handle → Prop
  /-- Handles of sensors that do. -/
  triggers : Handle → Handle → Prop
  /-- Events in such lists. -/
  alike : Event → Event → Prop

/-- Two events that are the same but for their handles. -/
inductive Event.Rewired (stands : Handle → Handle → Prop) : Event → Event → Prop
  | onButtonPress (buttons : List Button) {body body' : Handle} (h : stands body body') :
    Rewired stands (.onButtonPress buttons body) (.onButtonPress buttons body')
  | branch (conditions : List Condition) {yes yes' no no' : Handle} (h : stands yes yes')
    (h' : stands no no') : Rewired stands (.branch conditions yes no) (.branch conditions yes' no')
  | bare {event : Event} (none : event.children = []) : Rewired stands event event

section

variable (w : Wiring)

/-- Two sensors that are the same but for their handles; so for all that follows. -/
structure Sensor.Rewired (a b : Sensor) : Prop where
  same : b = { a with events := b.events }
  events : w.triggers a.events b.events

structure TileMap.Rewired (a b : TileMap) : Prop where
  same : b = { a with sensors := b.sensors }
  sensors : Forall₂ (Sensor.Rewired w) a.sensors b.sensors

structure ActorDef.Rewired (a b : ActorDef) : Prop where
  same : b = { a with init := b.init, interact := b.interact, update := b.update }
  init : w.stands a.init b.init
  interact : w.stands a.interact b.interact
  update : w.stands a.update b.update

structure Scene.Rewired (a b : Scene) : Prop where
  same : b = { a with events := b.events, map := b.map, actors := b.actors }
  events : w.stands a.events b.events
  map : Option.Rel (TileMap.Rewired w) a.map b.map
  actors : Forall₂ (ActorDef.Rewired w) a.actors b.actors

structure Script.Rewired (a b : Script) : Prop where
  same : b = { a with events := b.events }
  events : w.stands a.events b.events

structure Actor.Rewired (a b : Actor) : Prop where
  same : b = { a with definition := b.definition }
  definition : a.definition.Rewired w b.definition

/-- Two sessions that are the same but for the handles of what is on the stage. What they have run
so far is not compared. -/
inductive Session.Rewired (s : Session) : Session → Prop
  | intro {scene : Scene} {actors : List Actor} {handlers : List Event} (journal : List Entry)
    (sameScene : s.stage.scene.Rewired w scene)
    (sameActors : Forall₂ (Actor.Rewired w) s.stage.actors actors)
    (sameHandlers : Forall₂ w.alike s.stage.handlers handlers) :
    Rewired s
      { s with
        stage := { s.stage with scene := scene, actors := actors, handlers := handlers }
        journal := journal }

/-- Two arrivals that are the same but for the handles of what comes. -/
inductive Arrival.Rewired : Arrival → Arrival → Prop
  | player {map map' : TileMap} (h : map.Rewired w map') (sheet : SpriteSheet) (tile : Tile)
    (d : Direction) (z : Int) : Rewired (.player map sheet tile d z) (.player map' sheet tile d z)
  | prop {map map' : Option TileMap} (h : Option.Rel (TileMap.Rewired w) map map')
    (definition : PropDef) (tile : Tile) (z : Int) :
    Rewired (.prop map definition tile z) (.prop map' definition tile z)
  | actor {map map' : Option TileMap} (h : Option.Rel (TileMap.Rewired w) map map')
    {definition definition' : ActorDef} (same : definition.Rewired w definition') (tile : Tile)
    (z : Int) : Rewired (.actor map definition tile z) (.actor map' definition' tile z)
  | ready : Rewired .ready .ready
  | forget : Rewired .forget .forget

end

/-- The game with another graph. -/
def Game.withGraph (game : Game) (graph : SceneGraph) : Game := { game with graph := graph }

/-- Graphs that correspond: whatever is looked up in both is alike. -/
structure Rewiring (g g' : SceneGraph) extends Wiring where
  rewired : ∀ {e e'}, alike e e' → e.Rewired stands e'
  lists : ∀ {h h'}, stands h h' → Forall₂ alike (g.events h) (g'.events h')
  /-- Whether a sensor triggers anything goes by its handle, and not by the list. -/
  triggered : ∀ {h h'}, triggers h h' → stands h h' ∧ (h' = .empty ↔ h = .empty)
  empty : stands .empty .empty
  startingScene : g'.startingScene = g.startingScene
  scenes : Forall₂ (Scene.Rewired toWiring) g.scenes g'.scenes
  scripts : Forall₂ (Script.Rewired toWiring) g.scripts g'.scripts

variable {w : Wiring}

namespace TileMap.Rewired

variable {m m' : TileMap}

/-- The first sensors on a tile correspond. -/
theorem sensorAt? (h : m.Rewired w m') (tile : Tile) :
    Option.Rel (Sensor.Rewired w) (m.sensorAt? tile) (m'.sensorAt? tile) :=
  Forall₂.find? h.sensors fun _ _ is => by rw [is.same]; rfl

end TileMap.Rewired

namespace Rewiring

variable {g g' : SceneGraph} (r : Rewiring g g')
include r

theorem start_eq : g'.start = g.start := by
  unfold SceneGraph.start
  have scenes := r.scenes
  rw [r.startingScene]
  generalize g.scenes = xs, g'.scenes = ys at scenes
  cases scenes with
  | nil => rfl
  | cons is _ =>
    rw [is.same]
    cases g.startingScene <;> rfl

theorem scene? (name : String) :
    Option.Rel (Scene.Rewired r.toWiring) (g.scene? name) (g'.scene? name) :=
  Forall₂.find? r.scenes fun _ _ is => by rw [is.same]; rfl

theorem scene (name : String) : (g.scene name).Rewired r.toWiring (g'.scene name) := by
  have found := r.scene? name
  unfold SceneGraph.scene
  generalize g.scene? name = a, g'.scene? name = b at found
  cases found with
  | none => exact ⟨rfl, r.empty, .none, .nil⟩
  | some is => exact is

theorem script (name : String) : r.stands (g.script name).events (g'.script name).events := by
  have found : Option.Rel (Script.Rewired r.toWiring) (g.scripts.find? (·.answersTo name))
      (g'.scripts.find? (·.answersTo name)) :=
    Forall₂.find? r.scripts fun _ _ is => by rw [is.same]; rfl
  unfold SceneGraph.script
  generalize g.scripts.find? _ = a, g'.scripts.find? _ = b at found
  cases found with
  | none => exact r.empty
  | some is => exact is.events

end Rewiring

/-! ### Sessions -/

/-- Actors that correspond have their sprites and their places in common, and go by the same names.
-/
theorem Actor.Rewired.answersTo_eq {a b : Actor} (h : a.Rewired w b) (name : String) :
    b.answersTo name = a.answersTo name := by
  rw [Actor.answersTo, h.definition.same]
  rfl

namespace Session.Rewired

variable {s t : Session}

theorem player_eq (h : s.Rewired w t) : t.stage.player = s.stage.player := by cases h; rfl

theorem request_eq (h : s.Rewired w t) : t.stage.request = s.stage.request := by cases h; rfl

theorem host_eq (h : s.Rewired w t) : t.host = s.host := by cases h; rfl

theorem vars_eq (h : s.Rewired w t) : t.vars = s.vars := by cases h; rfl

theorem pending_eq (h : s.Rewired w t) : t.pending = s.pending := by cases h; rfl

theorem entered_eq (h : s.Rewired w t) : t.entered = s.entered := by cases h; rfl

theorem notices_eq (h : s.Rewired w t) : t.notices = s.notices := by cases h; rfl

theorem scene (h : s.Rewired w t) : s.stage.scene.Rewired w t.stage.scene := by
  cases h; assumption

theorem actors (h : s.Rewired w t) : Forall₂ (Actor.Rewired w) s.stage.actors t.stage.actors := by
  cases h; assumption

theorem handlers (h : s.Rewired w t) : Forall₂ w.alike s.stage.handlers t.stage.handlers := by
  cases h; assumption

theorem map (h : s.Rewired w t) : Option.Rel (TileMap.Rewired w) s.stage.map t.stage.map :=
  h.scene.map

theorem label_eq (h : s.Rewired w t) : t.stage.scene.label = s.stage.scene.label := by
  rw [h.scene.same]
  rfl

/-- They look alike. -/
theorem outlook_eq (h : s.Rewired w t) : t.outlook = s.outlook := by
  have bare : t.stage.map.map (·.bare) = s.stage.map.map (·.bare) := by
    have map := h.map
    generalize s.stage.map = a, t.stage.map = b at map
    cases map with
    | none => rfl
    | some is =>
      rw [Option.map_some, is.same]
      rfl
  unfold outlook
  rw [bare, h.label_eq]
  cases h
  rfl

theorem occupied_eq (h : s.Rewired w t) (tile : Tile) :
    t.stage.occupied tile = s.stage.occupied tile :=
  Forall₂.any_eq h.actors fun _ _ is => by rw [is.same]; rfl

theorem actorBeside?_eq (h : s.Rewired w t) (tile : Tile) (d : Direction) :
    t.stage.actorBeside? tile d = s.stage.actorBeside? tile d :=
  Forall₂.findIdx?_eq h.actors fun _ _ is => by rw [is.same]; rfl

theorem findIdx?_eq (h : s.Rewired w t) (name : String) :
    t.stage.actors.findIdx? (·.answersTo name) = s.stage.actors.findIdx? (·.answersTo name) :=
  Forall₂.findIdx?_eq h.actors fun _ _ is => is.answersTo_eq name

theorem sprites_eq (h : s.Rewired w t) :
    t.stage.actors.map (·.sprite) = s.stage.actors.map (·.sprite) :=
  Forall₂.map_eq h.actors fun _ _ is => by rw [is.same]

/-! ### What is done to both -/

theorem recorded (h : s.Rewired w t) (event event' : Event) (inFrame : Bool) (depth : Nat) :
    (s.recorded event inFrame depth).Rewired w (t.recorded event' inFrame depth) := by
  cases h
  exact .intro _ ‹_› ‹_› ‹_›

theorem frame (h : s.Rewired w t) :
    Rewired w { s with host := s.host.afterFrame } { t with host := t.host.afterFrame } := by
  cases h
  exact .intro _ ‹_› ‹_› ‹_›

theorem assign (h : s.Rewired w t) (vars : Variables) :
    Rewired w { s with vars := vars } { t with vars := vars } := by
  cases h
  exact .intro _ ‹_› ‹_› ‹_›

theorem ask (h : s.Rewired w t) (request : SceneRequest) :
    Rewired w { s with stage := { s.stage with request := some request } }
      { t with stage := { t.stage with request := some request } } := by
  cases h
  exact .intro _ ‹_› ‹_› ‹_›

/-- Handlers that are alike may be registered. -/
theorem register (h : s.Rewired w t) {event event' : Event} (alike : w.alike event event') :
    ((Deed.register event).apply s).Rewired w ((Deed.register event').apply t) := by
  cases h
  exact .intro _ ‹_› ‹_› (List.rel_append ‹_› (.cons alike .nil))

/-- A change of an actor that goes by its sprite is made in both. -/
theorem withActor (h : s.Rewired w t) (index : Nat) (change : Actor → Host → Actor × Host)
    (goes : ∀ a b host, Actor.Rewired w a b → Actor.Rewired w (change a host).1 (change b host).1 ∧
      (change b host).2 = (change a host).2) :
    (s.withActor index change).Rewired w (t.withActor index change) := by
  have found := Forall₂.getElem? h.actors index
  cases h with
  | @intro scene actors handlers journal sameScene sameActors sameHandlers =>
    unfold withActor
    dsimp only at found ⊢
    generalize is : s.stage.actors[index]? = a, is' : actors[index]? = b at found
    cases found with
    | none => exact .intro _ sameScene sameActors sameHandlers
    | some same =>
      obtain ⟨sameActor, sameHost⟩ := goes _ _ s.host same
      simp only [Option.elim_some, sameHost]
      exact .intro _ sameScene (Forall₂.set sameActors sameActor index) sameHandlers

/-- Whatever is done to both but to register a handler is done alike. -/
theorem deed (h : s.Rewired w t) {d : Deed} (other : ∀ event, d ≠ .register event) :
    (d.apply s).Rewired w (d.apply t) := by
  cases d with
  | register event => exact absurd rfl (other event)
  | blend blending =>
    have same : t.stage.setBlending t.host blending = s.stage.setBlending s.host blending := by
      unfold Stage.setBlending
      rw [h.sprites_eq, h.player_eq, h.host_eq]
    simp only [Deed.apply, same]
    cases h
    exact .intro _ ‹_› ‹_› ‹_›
  | showActor index visible =>
    refine h.withActor index (fun actor host => actor.setVisible host visible) ?_
    rintro a b host ⟨is, definition⟩
    generalize b.definition = role at is definition
    subst is
    exact ⟨⟨rfl, definition⟩, rfl⟩
  | turnActor index d =>
    refine h.withActor index (fun actor host => actor.face host d) ?_
    rintro a b host ⟨is, definition⟩
    generalize b.definition = role at is definition
    subst is
    exact ⟨⟨rfl, definition⟩, rfl⟩
  | _ =>
    cases h
    exact .intro _ ‹_› ‹_› ‹_›

/-- Whoever comes comes alike, with the handles of its own. -/
theorem arrival (h : s.Rewired w t) {a b : Arrival} (same : a.Rewired w b) (game : Game)
    (graph : SceneGraph) : (a.apply game s).Rewired w (b.apply (game.withGraph graph) t) := by
  cases h with
  | intro journal sameScene sameActors sameHandlers =>
    cases same with
    | player map sheet tile d z =>
      obtain ⟨is, -⟩ := map
      rw [is]
      exact .intro _ sameScene sameActors sameHandlers
    | prop map definition tile z =>
      cases map with
      | none => exact .intro _ sameScene sameActors sameHandlers
      | some map =>
        rw [map.same]
        exact .intro _ sameScene sameActors sameHandlers
    | @actor map map' sameMap role role' same tile z =>
      have enters : Actor.enter s.host map' role' tile z =
          ({ (Actor.enter s.host map role tile z).1 with definition := role' },
            (Actor.enter s.host map role tile z).2) := by
        rw [same.same]
        cases sameMap with
        | none => rfl
        | some sameMap => rw [sameMap.same]; rfl
      simp only [Arrival.apply, enters]
      exact .intro _ sameScene (List.rel_append sameActors (.cons ⟨rfl, same⟩ .nil)) sameHandlers
    | ready => exact .intro _ sameScene sameActors .nil
    | forget => exact .intro _ sameScene sameActors sameHandlers

/-- The bare stages of scenes that correspond do so. -/
theorem entering (h : s.Rewired w t) {game : Game} {graph : SceneGraph} {name : String}
    (scene : (game.graph.scene name).Rewired w (graph.scene name)) :
    (s.entering game name).Rewired w (t.entering (game.withGraph graph) name) := by
  have gone : t.stage.sprites = s.stage.sprites := by
    rw [Stage.sprites, h.sprites_eq, h.player_eq]
    cases h
    rfl
  have hidden : Background.hidden (graph.scene name).backgroundName =
      .hidden (game.graph.scene name).backgroundName := by
    rw [scene.same]
    rfl
  cases h
  simp only [entering, Stage.bare, Game.withGraph, gone, hidden]
  exact .intro _ scene .nil .nil

end Session.Rewired

end Overworld
