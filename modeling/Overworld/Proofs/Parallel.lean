import Overworld.Proofs.Repertoire
import Overworld.Proofs.Rewiring

/-!
Whatever is asked of two games whose graphs correspond.

Sessions of such games may be coupled in one way or another, as long as they are the same but for
the handles of what is on the stage. Where a coupling outlasts what events do to a session
themselves, who comes onto the stage, and the change of scenes (`Parallel`), it outlasts everything:
events and the lists that they have run, the player under control, frames, scenes and whole runs, in
which both games come to the same results, step by step (`Parallel.perform`).
-/

namespace Overworld

open List (Forall₂)
open Simulation

/-! ### Couplings -/

/-- Deeds that leave the variables, the handlers and the journal alone. -/
def Deed.Quiet : Deed → Prop
  | record .. | request .. | register _ | assign .. => False
  | _ => True

theorem Deed.Quiet.ne_register {d : Deed} (quiet : d.Quiet) (event : Event) :
    d ≠ .register event := by
  rintro rfl
  exact quiet

theorem Deed.Mere.quiet {d : Deed} (mere : d.Mere) : d.Quiet := by
  cases d with
  | note | background | showBackground | blend | camera | present => trivial
  | _ => exact mere.elim

/-- A relation between sessions that are the same but for their handles, which frames and quiet
deeds keep, and how both games may halt. -/
structure Coupling (w : Wiring) where
  related : Session → Session → Prop
  halted : Halt → Session → Session → Prop
  rewired : ∀ {s t}, related s t → s.Rewired w t
  quiet : ∀ {s t} {d : Deed}, d.Quiet → related s t → related (d.apply s) (d.apply t)
  frame : ∀ {s t}, related s t →
    related { s with host := s.host.afterFrame } { t with host := t.host.afterFrame }
  halts : ∀ {e s t}, (∀ error, e ≠ .variable error) → related s t → halted e s t

/-- Sessions that are the same but for their handles look alike. -/
def Coupling.pairing {w : Wiring} (c : Coupling w) : Pairing where
  related := c.related
  halted := c.halted
  outlook h := (c.rewired h).outlook_eq
  stop h := by rw [(c.rewired h).host_eq]
  deed mere := c.quiet mere.quiet
  frame := c.frame
  halts := c.halts

/-- A coupling that everything keeps which games do besides: to run events, to bring something onto
the stage, and to enter scenes. -/
structure Parallel (game : Game) {graph : SceneGraph} (r : Rewiring game.graph graph) extends
    Coupling r.toWiring where
  /-- An event is written down. Where it sets a variable, that is part of it. -/
  records : ∀ {s t e e'} (inFrame : Bool) (depth : Nat), r.alike e e' →
    (∀ name value, e ≠ .setVariable name value) → related s t →
    related (s.recorded e inFrame depth) (t.recorded e' inFrame depth)
  sets : ∀ {s t} (name : String) (value : Value) (inFrame : Bool) (depth : Nat),
    r.alike (.setVariable name value) (.setVariable name value) → related s t →
    toCoupling.pairing.Joined Eq
      (Play.setVariable name value (s.recorded (.setVariable name value) inFrame depth))
      (Play.setVariable name value (t.recorded (.setVariable name value) inFrame depth))
  registers : ∀ {s t e e'}, r.alike e e' → related s t →
    related ((Deed.register e).apply s) ((Deed.register e').apply t)
  asks : ∀ {s t} (request : SceneRequest), related s t →
    related { s with stage := { s.stage with request := some request } }
      { t with stage := { t.stage with request := some request } }
  arrives : ∀ {s t a a'}, Arrival.Rewired r.toWiring a a' → related s t →
    related (a.apply game s) (a'.apply (game.withGraph graph) t)
  enters : ∀ {s t} (name : String), related s t →
    related (s.entering game name) (t.entering (game.withGraph graph) name)
  /-- The end of a run is one of its regular results. -/
  stopped : ∀ {stop s t}, halted (.host stop) s t → related s t

/-- Walk on the spot for a frame. -/
def Play.tread (walk : WalkCycle) (sprite : SpriteHandle) : Play WalkCycle := do
  let walk ← Play.tick walk sprite
  Play.advance
  return walk

namespace Parallel

variable {game : Game} {graph : SceneGraph} {r : Rewiring game.graph graph} (p : Parallel game r)
  {α β : Type}

/-- Two actions that come to results in a relation, and keep the coupling. -/
abbrev Joins (R : α → β → Prop) (x : Play α) (y : Play β) : Prop := p.pairing.Joins R x y

variable {p}

theorem errand {x : Play α} (h : Play.Errand x) : p.Joins Eq x x := Pairing.Joins.errand h

theorem does {x : Play Unit} (d : Deed) (quiet : d.Quiet) (is : ∀ s, x s = .ok () (d.apply s)) :
    p.Joins Eq x x := by
  refine ⟨fun {s t} h => ?_⟩
  rw [is, is]
  exact .ok rfl (p.quiet quiet h)

/-! ### Events -/

/-- What events have run next: nothing, or lists that stand for each other, in the same way. -/
def Next (r : Rewiring game.graph graph) : Option (Handle × Bool) → Option (Handle × Bool) → Prop :=
  Option.Rel fun next next' => r.stands next.1 next'.1 ∧ next'.2 = next.2

theorem alone {x y : Play Unit} (h : p.Joins Eq x y) :
    p.Joins (Next r) (Play.alone x) (Play.alone y) :=
  h.andThen fun _ => .pure .none

/-- An errand that has no list run. -/
theorem runsNothing {x : Play (Option (Handle × Bool))} (errand : Play.Errand x)
    (nothing : ∀ next s t, x s ≠ .ok (some next) t) : p.Joins (Next r) x x := by
  refine ⟨fun {s t} h => ?_⟩
  have joined : p.pairing.Joined Eq (x s) (x t) := (Pairing.Joins.errand errand).joined h
  have none := fun next u => nothing next s u
  generalize x s = a, x t = b at joined none
  cases joined with
  | @ok next _ u _ same h =>
    subst same
    cases next with
    | none => exact .ok .none h
    | some next => exact absurd rfl (none next u)
  | error h => exact .error h

/-- The same first actor is shown or hidden in both. -/
theorem setActorVisible (name : String) (visible : Bool) :
    p.Joins Eq (Play.setActorVisible name visible) (Play.setActorVisible name visible) := by
  refine ⟨fun {s t} h => ?_⟩
  rw [Tracks.setActorVisible_eq, Tracks.setActorVisible_eq, (p.rewired h).findIdx?_eq]
  cases s.stage.actors.findIdx? (·.answersTo name) with
  | none => exact (errand (.note _)).joined h
  | some index =>
    exact (errand (p := p) (.note _)).joined (p.quiet (d := .showActor index visible) trivial h)

/-- Events that are alike do the same themselves, and have lists run that stand for each other. -/
theorem enact (inFrame : Bool) {e e' : Event} (alike : r.alike e e')
    (other : ∀ name value, e ≠ .setVariable name value) :
    p.Joins (Next r) (Play.enact game inFrame e)
      (Play.enact (game.withGraph graph) inFrame e') := by
  have rewired := r.rewired alike
  cases rewired with
  | onButtonPress buttons stands =>
    cases inFrame with
    | true =>
      exact (errand (.anyPressed buttons)).andThen fun _ =>
        .ite (.pure (.some ⟨stands, rfl⟩)) (.pure .none)
    | false => exact alone ⟨fun h => .ok rfl (p.registers alike h)⟩
  | branch conditions yes no =>
    exact (errand (.allHold conditions)).andThen fun _ =>
      .ite (.pure (.some ⟨yes, rfl⟩)) (.pure (.some ⟨no, rfl⟩))
  | bare none =>
    cases e with
    | goToScene target start =>
      exact alone ((errand (.note _)).andThen fun _ => ⟨fun h => .ok rfl (p.asks _ h)⟩)
    | setVariable name value => exact absurd rfl (other name value)
    | enableActor actor => exact alone (setActorVisible actor true)
    | disableActor actor => exact alone (setActorVisible actor false)
    | runScript name => exact .pure (.some ⟨r.script name, rfl⟩)
    | onButtonPress | branch => exact nomatch none
    | _ =>
      exact runsNothing (.enact game trivial) fun next s t ran =>
        List.not_mem_nil (Play.mem_lists_of_enact ran)

/-- However deep they are nested, events that are alike run alike. -/
theorem runEvent (room : Nat) (inFrame : Bool) {e e' : Event} (alike : r.alike e e') :
    p.Joins Eq (Play.runEvent game room inFrame e)
      (Play.runEvent (game.withGraph graph) room inFrame e') := by
  induction room generalizing inFrame e e' with
  | zero => exact .throw nofun
  | succ room ih =>
    refine ⟨fun {s t} h => ?_⟩
    rw [Play.runEvent_succ, Play.runEvent_succ]
    by_cases sets : ∃ name value, e = .setVariable name value
    · -- Such an event is written down and obeyed in one; in between, nothing has to be related.
      obtain ⟨name, value, rfl⟩ := sets
      obtain rfl : e' = .setVariable name value := by cases r.rewired alike; rfl
      refine Pairing.Joined.bind (R := fun next next' => next = none ∧ next' = none) ?_ ?_
      · exact (p.sets name value inFrame _ alike h).bind fun _ _ _ {_ _} h => .ok ⟨rfl, rfl⟩ h
      · rintro _ _ ⟨rfl, rfl⟩ u v h
        exact .ok rfl h
    · have other (name : String) (value : Value) : e ≠ .setVariable name value :=
        fun is => sets ⟨name, value, is⟩
      refine ((enact inFrame alike other).bind fun next next' same => ?_).joined
        (p.records inFrame _ alike other h)
      cases same with
      | none => exact .pure rfl
      | @some next next' same =>
        obtain ⟨stands, again⟩ := same
        dsimp only
        rw [again]
        exact .forM (r.lists stands) fun _ _ alike => ih next.2 alike

theorem runList {list list' : Handle} (stands : r.stands list list') (inFrame : Bool) :
    p.Joins Eq (Play.runList game list inFrame)
      (Play.runList (game.withGraph graph) list' inFrame) :=
  .forM (r.lists stands) fun _ _ => runEvent _ inFrame

/-! ### The player under control -/

theorem facePlayer (d : Direction) : p.Joins Eq (Play.facePlayer d) (Play.facePlayer d) :=
  does (.turn d) trivial (facePlayer_eq d)

theorem tick (walk : WalkCycle) (sprite : SpriteHandle) :
    p.Joins Eq (Play.tick walk sprite) (Play.tick walk sprite) := by
  rw [tick_eq]
  split
  · rename_i picture _
    exact (does (.present (.picture sprite picture)) trivial fun _ => rfl).andThen fun _ =>
      .pure rfl
  · exact .pure rfl

theorem advance : p.Joins Eq Play.advance Play.advance := errand .frame

theorem tread (walk : WalkCycle) (sprite : SpriteHandle) :
    p.Joins Eq (Play.tread walk sprite) (Play.tread walk sprite) :=
  (tick walk sprite).andThen fun _ => advance.andThen fun _ => .pure rfl

section Map

variable {map map' : TileMap} (same : map.Rewired r.toWiring map')
include same

theorem tileOf (position : Pixel) :
    p.Joins Eq (Play.tileOf map position) (Play.tileOf map' position) := by
  have found : map'.tileOf? position = map.tileOf? position := by rw [same.same]; rfl
  unfold Play.tileOf
  rw [found]
  split
  · exact .pure rfl
  · exact .throw nofun

theorem stride (d : Direction) (sprite : SpriteHandle) (count : Nat) (position : Pixel)
    (walk : WalkCycle) :
    p.Joins Eq (Play.stride game.config map d sprite count position walk)
      (Play.stride (game.withGraph graph).config map' d sprite count position walk) := by
  induction count generalizing position walk with
  | zero => exact .pure rfl
  | succ count ih =>
    have place (position : Pixel) : p.Joins Eq
        (Play.onPlayer fun player host => player.place host map position)
        (Play.onPlayer fun player host => player.place host map' position) := by
      have is : (fun (player : Player) host => player.place host map' position) =
          fun player host => player.place host map position := by rw [same.same]; rfl
      rw [is]
      exact does (.place map position) trivial (placePlayer_eq map position)
    have follow (position : Pixel) : (ScrollBounds.ofMap map' game.config).following map' position =
        (ScrollBounds.ofMap map game.config).following map position := by rw [same.same]; rfl
    have setCamera (camera : Pixel) : p.Joins Eq (Play.setCamera camera) (Play.setCamera camera) :=
      (does (.camera camera) trivial fun _ => rfl).andThen fun _ =>
        errand (.present (.camera camera) trivial)
    unfold Play.stride
    refine (place _).andThen fun _ => ?_
    change p.Joins Eq _
      (Play.setCamera ((ScrollBounds.ofMap map' game.config).following map' _) >>= _)
    rw [follow]
    exact (setCamera _).andThen fun _ => (tick walk sprite).andThen fun walk =>
      advance.andThen fun _ => ih _ walk

/-- Sensors that correspond have lists run that stand for each other, or nothing is triggered. -/
theorem trigger (tile : Tile) (sprite : SpriteHandle) (walk : WalkCycle) :
    p.Joins Eq (Play.trigger game map tile sprite walk)
      (Play.trigger (game.withGraph graph) map' tile sprite walk) := by
  have found := same.sensorAt? tile
  unfold Play.trigger
  generalize map.sensorAt? tile = a, map'.sensorAt? tile = b at found
  cases found with
  | none => exact .pure rfl
  | @some sensor sensor' sensors =>
    obtain ⟨stands, empties⟩ := r.triggered sensors.events
    dsimp only
    simp only [empties]
    exact .ite (.pure rfl) ((runList stands true).andThen fun _ => tread walk sprite)

theorem step (d : Direction) (sprite : SpriteHandle) (walk : WalkCycle) :
    p.Joins Eq (Play.step game map d sprite walk)
      (Play.step (game.withGraph graph) map' d sprite walk) := by
  refine .reads fun s t h => ?_
  rw [(p.rewired h).player_eq]
  split
  · exact .pure rfl
  · refine (tileOf same _).andThen fun tile => .reads fun u v h' => ?_
    have blocked : map'.blocked (tile.step d) = map.blocked (tile.step d) := by rw [same.same]; rfl
    have strides : Play.stridesPerTile (game.withGraph graph).config map' =
        Play.stridesPerTile game.config map := by rw [same.same]; rfl
    rw [blocked, strides, (p.rewired h').occupied_eq]
    refine .ite (tread walk sprite) ?_
    exact (stride same d sprite _ _ walk).andThen fun walk => trigger same _ sprite walk

theorem steps (d : Direction) (sprite : SpriteHandle) (n : Nat) (walk : WalkCycle) :
    p.Joins Eq (Play.steps game map d sprite n walk)
      (Play.steps (game.withGraph graph) map' d sprite n walk) := by
  induction n generalizing walk with
  | zero => exact .throw nofun
  | succ n ih =>
    refine (errand (.held _)).andThen fun holds => .reads fun s t h => ?_
    have changing : t.stage.changing = s.stage.changing := by
      rw [Stage.changing, Stage.changing, (p.rewired h).request_eq]
    rw [changing]
    exact .ite ((step same d sprite walk).andThen fun walk => ih walk) (.pure rfl)

theorem walk (d : Direction) :
    p.Joins Eq (Play.walk game map d) (Play.walk (game.withGraph graph) map' d) := by
  refine .reads fun s t h => ?_
  rw [(p.rewired h).player_eq]
  split
  · exact .pure rfl
  · refine (facePlayer d).andThen fun _ => (errand (.held _)).andThen fun _ => .ite ?_ (.pure rfl)
    exact (steps same d _ _ _).andThen fun _ => facePlayer d

theorem walkEither (first second : Direction) :
    p.Joins Eq (Play.walkEither game map first second)
      (Play.walkEither (game.withGraph graph) map' first second) := by
  have wants (d : Direction) : Play.Errand (Play.wants d) :=
    (Play.Errand.pressed _).bind fun _ => (Play.Errand.held _).bind fun _ => .pure _
  exact (errand (wants first)).andThen fun _ => .ite (walk same first) <|
    (errand (wants second)).andThen fun _ => .ite (walk same second) (.pure rfl)

/-- The player turns to actors that correspond, and they have something to do or not in both. -/
theorem addressed (player : Player) :
    p.Joins (Option.Rel fun a b => b.1 = a.1 ∧ a.2.Rewired r.toWiring b.2)
      (Play.addressed game map player) (Play.addressed (game.withGraph graph) map' player) := by
  refine (errand (.pressed _)).andThen fun _ => .ite ?_ (.pure .none)
  refine (tileOf same _).andThen fun tile => .reads fun s t h => ?_
  dsimp only
  rw [(p.rewired h).actorBeside?_eq]
  cases s.stage.actorBeside? tile player.direction with
  | none => exact .pure .none
  | some index =>
    have found := Forall₂.getElem? (p.rewired h).actors index
    dsimp only
    generalize s.stage.actors[index]? = a, t.stage.actors[index]? = b at found
    cases found with
    | none => exact .pure .none
    | @some actor actor' rewired =>
      have empties : (graph.events actor'.definition.interact).isEmpty =
          (game.graph.events actor.definition.interact).isEmpty := by
        have lists := r.lists rewired.definition.interact
        generalize game.graph.events _ = xs, graph.events _ = ys at lists
        cases lists <;> rfl
      change p.Joins _ _
        (if (graph.events actor'.definition.interact).isEmpty then _ else _ : Play _)
      rw [empties]
      exact .ite (.pure .none) (.pure (.some ⟨rfl, rewired⟩))

end Map

theorem control : p.Joins Eq (Play.control game) (Play.control (game.withGraph graph)) := by
  rw [Play.control_eq, Play.control_eq]
  refine .reads fun s t h => ?_
  have maps := (p.rewired h).map
  rw [(p.rewired h).player_eq]
  generalize s.stage.map = a, t.stage.map = b at maps
  cases maps with
  | none => exact .pure rfl
  | some same =>
    cases s.stage.player with
    | none => exact .pure rfl
    | some player =>
      refine (addressed same player).bind fun found found' is => ?_
      cases is with
      | none => exact (walkEither same _ _).andThen fun _ => walkEither same _ _
      | @some found found' is =>
        obtain ⟨index, rewired⟩ := is
        dsimp only [Play.interact]
        rw [index]
        exact (does (.turnActor _ _) trivial (faceActor_eq _ _)).andThen fun _ =>
          (runList rewired.definition.interact true).andThen fun _ => advance

/-! ### Frames and scenes -/

theorem enactFrame :
    p.Joins Eq (Play.enactFrame game) (Play.enactFrame (game.withGraph graph)) := by
  have updates : p.Joins Eq
      (get >>= fun s => s.stage.actors.forM fun actor =>
        Play.runList game actor.definition.update true)
      (get >>= fun s => s.stage.actors.forM fun actor =>
        Play.runList (game.withGraph graph) actor.definition.update true) :=
    .reads fun s t h => .forM (p.rewired h).actors fun _ _ same =>
      runList same.definition.update true
  refine .reads fun s t h => ?_
  refine (Pairing.Joins.forM (p.rewired h).handlers fun _ _ => runEvent _ true).andThen fun _ =>
    .reads fun u v h => ?_
  rw [(p.rewired h).player_eq]
  exact .ite (control.andThen fun _ => updates) updates

theorem playFrame : p.Joins Eq (Play.playFrame game) (Play.playFrame (game.withGraph graph)) :=
  enactFrame.andThen fun _ => advance

theorem playScene : p.Joins Eq (Play.playScene game) (Play.playScene (game.withGraph graph)) := by
  have frames (n : Nat) : p.Joins Eq (Play.framesUntilRequest game n)
      (Play.framesUntilRequest (game.withGraph graph) n) := by
    induction n with
    | zero => exact .throw nofun
    | succ n ih =>
      refine .reads fun s t h => ?_
      rw [(p.rewired h).request_eq]
      split
      · exact .pure rfl
      · exact playFrame.andThen fun _ => ih
  exact (frames _).andThen fun request => (errand (.changeBackground _)).andThen fun _ =>
    (errand .showBackground).andThen fun _ =>
      (does (.remember request) trivial fun _ => rfl).andThen fun _ => .pure rfl

/-! ### Entering a scene -/

theorem arrival {x y : Play Unit} {a b : Arrival} (same : a.Rewired r.toWiring b)
    (is : ∀ s, x s = .ok () (a.apply game s))
    (is' : ∀ s, y s = .ok () (b.apply (game.withGraph graph) s)) : p.Joins Eq x y := by
  refine ⟨fun {s t} h => ?_⟩
  rw [is, is']
  exact .ok rfl (p.arrives same h)

theorem startPosition {scene scene' : Scene} (same : scene.Rewired r.toWiring scene')
    (spawn : PlayerSpawn) :
    p.Joins Eq (Play.startPosition scene spawn) (Play.startPosition scene' spawn) := by
  have own : p.Joins Eq
      (do let tile ← Play.tileAt spawn.x spawn.y; return (tile, spawn.direction))
      (do let tile ← Play.tileAt spawn.x spawn.y; return (tile, spawn.direction)) :=
    (errand (.tileAt _ _)).andThen fun _ => .pure rfl
  refine .reads fun s t h => ?_
  rw [(p.rewired h).pending_eq]
  dsimp only
  split
  · rename_i request _
    have answers : scene'.answersTo request.target = scene.answersTo request.target := by
      rw [same.same]
      rfl
    rw [answers]
    refine .ite ((errand (.tileAt _ _)).andThen fun tile => .ite ?_ own) own
    exact (arrival .forget (fun _ => rfl) fun _ => rfl).andThen fun _ => .pure rfl
  · exact own

theorem enterPlayer {scene scene' : Scene} (same : scene.Rewired r.toWiring scene')
    (spawn : PlayerSpawn) :
    p.Joins Eq (Play.enterPlayer game.config scene spawn)
      (Play.enterPlayer (game.withGraph graph).config scene' spawn) := by
  have maps := same.map
  unfold Play.enterPlayer
  generalize scene.map = a, scene'.map = b at maps
  cases maps with
  | none => exact .pure rfl
  | some map =>
    exact (startPosition same spawn).andThen fun start => (errand (.intOf _)).andThen fun z =>
      arrival (.player map spawn.sheet start.1 start.2 z) (fun _ => rfl) fun _ => rfl

section Stage

variable {map map' : Option TileMap} (maps : Option.Rel (TileMap.Rewired r.toWiring) map map')
include maps

theorem enterProp (definition : PropDef) :
    p.Joins Eq (Play.enterProp map definition) (Play.enterProp map' definition) :=
  (errand (.tileAt _ _)).andThen fun tile => (errand (.intOf _)).andThen fun z =>
    arrival (.prop maps definition tile z) (fun _ => rfl) fun _ => rfl

theorem enterActor {definition definition' : ActorDef}
    (same : definition.Rewired r.toWiring definition') :
    p.Joins Eq (Play.enterActor map definition) (Play.enterActor map' definition') := by
  have reads : Play.enterActor map' definition' = (do
      let tile ← Play.tileAt definition.x definition.y
      let z ← Play.intOf definition.z
      modify fun s => (Arrival.actor map' definition' tile z).apply (game.withGraph graph) s) := by
    unfold Play.enterActor
    rw [same.same]
    rfl
  rw [reads]
  exact (errand (.tileAt _ _)).andThen fun tile => (errand (.intOf _)).andThen fun z =>
    arrival (.actor maps same tile z) (fun _ => rfl) fun _ => rfl

end Stage

theorem furnish {scene scene' : Scene} (same : scene.Rewired r.toWiring scene') :
    p.Joins Eq (Play.furnish game scene) (Play.furnish (game.withGraph graph) scene') := by
  have props : scene'.props = scene.props := by rw [same.same]
  have label : scene'.label = scene.label := by rw [same.same]; rfl
  have shows : p.Joins Eq
      (modify fun s => { s with host := s.host.setCamera s.stage.camera } : Play Unit)
      (modify fun s => { s with host := s.host.setCamera s.stage.camera }) := by
    refine errand (.look (fun outlook => Play.onHost fun host => host.setCamera outlook.camera)
      (fun _ => rfl) fun outlook => .present (.camera outlook.camera) trivial)
  unfold Play.furnish
  rw [props, label, ← same.actors.length_eq]
  refine shows.andThen fun _ => ?_
  refine (Pairing.Joins.forM (R := Eq) (List.forall₂_refl _) ?_).andThen fun _ => ?_
  · rintro definition _ rfl
    exact enterProp same.map definition
  refine (Pairing.Joins.forM same.actors ?_).andThen fun _ => ?_
  · exact fun _ _ role => (enterActor same.map role).andThen fun _ => runList role.init false
  refine (arrival .ready (fun _ => rfl) fun _ => rfl).andThen fun _ => .reads fun s t h => ?_
  rw [(p.rewired h).player_eq]
  exact (errand (.note _)).andThen fun _ => runList same.events false

theorem build {scene scene' : Scene} (same : scene.Rewired r.toWiring scene') :
    p.Joins Eq (Play.build game scene) (Play.build (game.withGraph graph) scene') := by
  have player : scene'.player = scene.player := by rw [same.same]
  unfold Play.build
  rw [player]
  refine (errand .showBackground).andThen fun _ => ?_
  dsimp only
  split
  · exact (enterPlayer same _).andThen fun _ => furnish same
  · exact furnish same

theorem enterScene (name : String) :
    p.Joins Eq (Play.enterScene game name) (Play.enterScene (game.withGraph graph) name) := by
  have opens : p.Joins (Scene.Rewired r.toWiring) (Play.openScene game.graph name)
      (Play.openScene (game.withGraph graph).graph name) := by
    refine ⟨fun {s t} h => ?_⟩
    have scenes := r.scene? name
    have entered := p.enters name h
    rw [openScene_eq, openScene_eq, show (game.withGraph graph).graph = graph from rfl]
    generalize game.graph.scene? name = a, graph.scene? name = b at scenes
    cases scenes with
    | none => exact .ok (r.scene name) (p.quiet (d := .note _) trivial entered)
    | some _ => exact .ok (r.scene name) entered
  exact opens.bind fun _ _ same => build same

/-! ### Whole runs -/

theorem visit (name : String) :
    p.Joins Eq (Play.visit game name) (Play.visit (game.withGraph graph) name) :=
  (enterScene name).andThen fun _ => playScene

theorem playScenes (scenes : Nat) (name : String) :
    p.Joins Eq (Play.playScenes game scenes name)
      (Play.playScenes (game.withGraph graph) scenes name) := by
  induction scenes generalizing name with
  | zero => exact .throw nofun
  | succ scenes ih =>
    refine ⟨fun {s t} h => ?_⟩
    have visited : p.pairing.Joined Eq _ _ := (visit name).joined h
    rw [Play.playScenes_succ, Play.playScenes_succ]
    generalize Play.visit game name s = a, Play.visit (game.withGraph graph) name t = b at visited
    cases visited with
    | ok same h =>
      subst same
      exact (ih _).joined h
    | @error e s t halted =>
      cases e with
      | host stop => exact .ok rfl (p.stopped halted)
      | _ => exact .error halted

theorem run : p.Joins Eq (Play.run game) (Play.run (game.withGraph graph)) := by
  refine .reads fun s t h => ?_
  rw [(p.rewired h).entered_eq, show (game.withGraph graph).graph.start = _ from r.start_eq]
  refine (playScenes _ _).andThen fun stop => .reads fun u v h' => ?_
  rw [(p.rewired h').host_eq, (p.rewired h').entered_eq, (p.rewired h').label_eq]
  exact (errand (.note _)).andThen fun _ => .pure rfl

end Parallel

/-- Two calls that are the same, but for the handles of the lists to run. -/
inductive Call.Rewired (stands : Handle → Handle → Prop) : Call → Call → Prop
  | directed {call : Call} (directed : call.Directed) : Rewired stands call call
  | list {list list' : Handle} (h : stands list list') (inFrame : Bool) :
    Rewired stands (.list list inFrame) (.list list' inFrame)

/-- **What is asked of both games is done alike**: it comes to the same results, and keeps the
coupling. -/
theorem Parallel.perform {game : Game} {graph : SceneGraph} {r : Rewiring game.graph graph}
    (p : Parallel game r) {call call' : Call} (same : call.Rewired r.stands call') :
    p.Joins Eq (call.perform game) (call'.perform (game.withGraph graph)) := by
  cases same with
  | list h inFrame => exact runList h inFrame
  | directed directed =>
    cases call with
    | enter name => exact enterScene name
    | frame => exact playFrame
    | scene => exact playScene.andThen fun _ => .pure rfl
    | run => exact run.andThen fun _ => .pure rfl
    | list => exact directed.elim

end Overworld
