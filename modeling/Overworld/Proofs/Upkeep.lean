import Overworld.Proofs.Calls
import Overworld.Proofs.Routines

/-!
What is kept in frames and when a scene is entered.

Besides the events that it has run, a frame consists of frames of the host and of the deeds of the
player under control (`Deed.Steered`). So what these keep (`Play.Steady`) is kept by walks, by
interactions and by whole frames, if the events keep it. In the same way an entry to a scene consists
of arrivals, looks at expressions and events (`Play.Welcomes`).
-/

namespace Overworld

open Simulation

/-! ### Looking at expressions -/

/-- An action that reports at most keeps what reports keep. -/
theorem Play.Reads.keeps {α : Type} {x : Play α} {value : Variables → α} (h : Play.Reads x value)
    {P : Session → Prop} (reports : ∀ (s : Session) notices, P s → P { s with notices := notices }) :
    Play.Keeps P x := by
  refine ⟨fun {s} hs => ?_⟩
  obtain ⟨notices, is⟩ := h s
  rw [is]
  exact reports s notices hs

/-! ### The player under control -/

/-- A deed of the player under control, or of the actor that it turns to. -/
def Deed.Steered : Deed → Prop
  | turnActor .. | turn _ | place .. | camera _ => True
  | present (.camera _) | present (.picture ..) => True
  | _ => False

/-- A property that frames and the deeds of the player under control keep. -/
structure Play.Steady (P : Session → Prop) : Prop where
  deed {d : Deed} (steered : d.Steered) {s : Session} (hs : P s) : P (d.apply s)
  frame : Play.Keeps P Play.advance

namespace Play.Steady

variable {game : Game} {P : Session → Prop} {map : TileMap} (steady : Steady P)

include steady

theorem does {x : Play Unit} (d : Deed) (steered : d.Steered) (is : ∀ s, x s = .ok () (d.apply s)) :
    Keeps P x := .deed d (fun _ hs => steady.deed steered hs) is

theorem tick (walk : WalkCycle) (sprite : SpriteHandle) : Keeps P (Play.tick walk sprite) := by
  rw [tick_eq]
  split
  · exact (steady.does (.present (.picture sprite _)) trivial fun _ => rfl).bind fun _ => .pure _
  · exact .pure _

theorem facePlayer (d : Direction) : Keeps P (Play.facePlayer d) :=
  steady.does (.turn d) trivial (facePlayer_eq d)

theorem faceActor (index : Nat) (d : Direction) : Keeps P (Play.faceActor index d) :=
  steady.does (.turnActor index d) trivial (faceActor_eq index d)

theorem setCamera (camera : Pixel) : Keeps P (Play.setCamera camera) :=
  (steady.does (.camera camera) trivial fun _ => rfl).bind fun _ =>
    steady.does (.present (.camera camera)) trivial fun _ => rfl

theorem stride (config : Config) (d : Direction) (sprite : SpriteHandle) (count : Nat)
    (position : Pixel) (walk : WalkCycle) :
    Keeps P (Play.stride config map d sprite count position walk) := by
  induction count generalizing position walk with
  | zero => exact .pure walk
  | succ count ih =>
    have place (position : Pixel) :
        Keeps P (Play.onPlayer fun player host => player.place host map position) :=
      steady.does (.place map position) trivial (placePlayer_eq map position)
    exact (place _).bind fun _ => (steady.setCamera _).bind fun _ =>
      (steady.tick walk sprite).bind fun walk => steady.frame.bind fun _ => ih _ walk

section Sensors

-- On its way the player has nothing run but what the sensors of the map have.
variable (sensors : ∀ sensor ∈ map.sensors, Keeps P (Play.runList game sensor.events true))

include sensors

theorem trigger (tile : Tile) (sprite : SpriteHandle) (walk : WalkCycle) :
    Keeps P (Play.trigger game map tile sprite walk) := by
  unfold Play.trigger
  cases found : map.sensorAt? tile with
  | none => exact .pure walk
  | some sensor =>
    have triggered := sensors sensor (List.mem_of_find?_eq_some found)
    exact .ite (.pure walk) (triggered.bind fun _ => (steady.tick walk sprite).bind fun walk =>
      steady.frame.bind fun _ => .pure walk)

theorem step (d : Direction) (sprite : SpriteHandle) (walk : WalkCycle) :
    Keeps P (Play.step game map d sprite walk) := by
  refine .reads fun s => ?_
  split
  · exact .pure walk
  · refine (Peeks.tileOf map _).keeps.bind fun tile => .reads fun u => .ite ?_ ?_
    · exact (steady.tick walk sprite).bind fun walk => steady.frame.bind fun _ => .pure walk
    · exact (steady.stride ..).bind fun walk => steady.trigger sensors ..

theorem steps (d : Direction) (sprite : SpriteHandle) (n : Nat) (walk : WalkCycle) :
    Keeps P (Play.steps game map d sprite n walk) := by
  induction n generalizing walk with
  | zero => exact .throw _
  | succ n ih =>
    exact .reads fun _ => .reads fun _ => .ite ((steady.step sensors ..).bind ih) (.pure ())

theorem walk (d : Direction) : Keeps P (Play.walk game map d) := by
  refine .reads fun s => ?_
  split
  · exact .pure ()
  · exact (steady.facePlayer d).bind fun _ => .reads fun _ =>
      .ite ((steady.steps sensors ..).bind fun _ => steady.facePlayer d) (.pure ())

theorem walkEither (first second : Direction) : Keeps P (Play.walkEither game map first second) := by
  have wants (d : Direction) : Keeps P (Play.wants d) := ⟨id⟩
  exact (wants first).bind fun _ => .ite (steady.walk sensors _) ((wants second).bind fun _ =>
    .ite (steady.walk sensors _) (.pure ()))

theorem walkAbout : Keeps P (Play.walkAbout game map) :=
  (steady.walkEither sensors _ _).bind fun _ => steady.walkEither sensors _ _

end Sensors

/-! ### Frames -/

section Events

variable (events : ∀ event, Keeps P (Play.runEvent game game.config.maxDepth true event))

include events

theorem control : Keeps P (Play.control game) := by
  have list (list : Handle) : Keeps P (Play.runList game list true) := .forM events _
  rw [control_eq]
  refine .reads fun s => ?_
  split
  · rename_i map player _ _
    refine (Peeks.addressed game map player).keeps.bind fun found => ?_
    cases found with
    | none => exact steady.walkAbout fun sensor _ => list sensor.events
    | some found => exact (steady.faceActor ..).bind fun _ => (list _).bind fun _ => steady.frame
  · exact .pure ()

theorem playFrame : Keeps P (Play.playFrame game) := by
  have updates : Keeps P (get >>= fun s => s.stage.actors.forM fun actor =>
      Play.runList game actor.definition.update true) :=
    .reads fun s => .forM (fun actor : Actor => .forM events _) _
  refine .bind (.reads fun s => (Keeps.forM events _).bind fun _ => .reads fun u => ?_) fun _ =>
    steady.frame
  exact .ite ((steady.control events).bind fun _ => updates) updates

theorem framesUntilRequest (n : Nat) : Keeps P (Play.framesUntilRequest game n) := by
  induction n with
  | zero => exact .throw _
  | succ n ih =>
    refine .reads fun s => ?_
    split
    · exact .pure _
    · exact (steady.playFrame events).bind fun _ => ih

end Events

end Play.Steady

/-! ### Entering a scene -/

/-- A property that is kept by what comes onto the stage of a scene, and by reports. -/
structure Play.Welcomes (game : Game) (P : Session → Prop) : Prop where
  steady : Play.Steady P
  reports {s : Session} (notices : Array Notice) (hs : P s) : P { s with notices := notices }
  shows {s : Session} (hs : P s) : P (Deed.showBackground.apply s)
  arrival (a : Arrival) {s : Session} (hs : P s) : P (a.apply game s)

namespace Play.Welcomes

variable {game : Game} {P : Session → Prop} (welcomes : Welcomes game P)

include welcomes

theorem reads {α : Type} {x : Play α} {value : Variables → α} (h : Play.Reads x value) :
    Keeps P x := h.keeps fun _ notices hs => welcomes.reports notices hs

theorem arrives {x : Play Unit} (a : Arrival) (is : ∀ s, x s = .ok () (a.apply game s)) :
    Keeps P x := by
  refine ⟨fun {s} hs => ?_⟩
  rw [is]
  exact welcomes.arrival a hs

theorem startPosition (scene : Scene) (spawn : PlayerSpawn) :
    Keeps P (Play.startPosition scene spawn) := by
  have own : Keeps P (do
      let tile ← Play.tileAt spawn.x spawn.y
      return (tile, spawn.direction)) := (welcomes.reads (.tileAt _ _)).bind fun _ => .pure _
  refine .reads fun s => ?_
  dsimp only
  split
  · have forgets : Keeps P (modify fun s : Session => { s with pending := none } : Play Unit) :=
      welcomes.arrives .forget fun _ => rfl
    refine .ite ((welcomes.reads (.tileAt _ _)).bind fun _ => .ite ?_ own) own
    exact forgets.bind fun _ => .pure _
  · exact own

theorem enterPlayer (scene : Scene) (spawn : PlayerSpawn) :
    Keeps P (Play.enterPlayer game.config scene spawn) := by
  unfold Play.enterPlayer
  split
  · exact .pure ()
  · rename_i map _
    exact (welcomes.startPosition scene spawn).bind fun start =>
      (welcomes.reads (.intOf _)).bind fun z =>
        welcomes.arrives (.player map spawn.sheet start.1 start.2 z) fun _ => rfl

theorem enterProp (map : Option TileMap) (definition : PropDef) :
    Keeps P (Play.enterProp map definition) :=
  (welcomes.reads (.tileAt _ _)).bind fun tile => (welcomes.reads (.intOf _)).bind fun z =>
    welcomes.arrives (.prop map definition tile z) fun _ => rfl

theorem enterActor (map : Option TileMap) (definition : ActorDef) :
    Keeps P (Play.enterActor map definition) :=
  (welcomes.reads (.tileAt _ _)).bind fun tile => (welcomes.reads (.intOf _)).bind fun z =>
    welcomes.arrives (.actor map definition tile z) fun _ => rfl

section Events

variable (onEntry : ∀ list, Keeps P (Play.runList game list false))

include onEntry

theorem furnish (scene : Scene) : Keeps P (Play.furnish game scene) := by
  have reveals : Keeps P
      (modify fun s : Session => { s with host := s.host.setCamera s.stage.camera } : Play Unit) :=
    ⟨fun {s} hs => welcomes.steady.deed (d := .present (.camera s.stage.camera)) trivial hs⟩
  have readies : Keeps P (modify fun s : Session =>
      { s with stage := { s.stage with handlers := [] }, entered := s.entered + 1 } : Play Unit) :=
    welcomes.arrives .ready fun _ => rfl
  have note (notice : Notice) : Keeps P (Play.note notice) :=
    ⟨fun {s} hs => welcomes.reports (s.notices.push notice) hs⟩
  have actor (definition : ActorDef) : Keeps P (do
      Play.enterActor scene.map definition
      Play.runList game definition.init false) :=
    (welcomes.enterActor _ _).bind fun _ => onEntry _
  exact reveals.bind fun _ => (Keeps.forM (welcomes.enterProp _) _).bind fun _ =>
    (Keeps.forM actor _).bind fun _ => readies.bind fun _ => .reads fun _ =>
      (note _).bind fun _ => onEntry _

theorem build (scene : Scene) : Keeps P (Play.build game scene) := by
  have shows : Keeps P Play.showBackground := ⟨welcomes.shows⟩
  refine shows.bind fun _ => ?_
  dsimp only
  split
  · exact (welcomes.enterPlayer ..).bind fun _ => welcomes.furnish onEntry scene
  · exact welcomes.furnish onEntry scene

/-- What holds on the bare stage of a scene holds when the scene is entered, however that ends. -/
theorem enterScene {name : String} {s : Session} (opens : P (s.entering game name)) :
    P (Play.final (Play.enterScene game name s)) := by
  rw [Play.enterScene, bind_apply, openScene_eq]
  cases game.graph.scene? name with
  | some scene => exact (welcomes.build onEntry _).final opens
  | none => exact (welcomes.build onEntry _).final (welcomes.reports _ opens)

end Events

end Play.Welcomes

end Overworld
