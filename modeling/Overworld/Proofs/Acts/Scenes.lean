import Overworld.Proofs.Acts.Control
import Overworld.Proofs.Requests
import Overworld.Proofs.Starts

/-!
Scenes, act by act.

A scene is opened on its bare stage: the background is shown, the player comes, and the camera
follows. None of it can halt, so whatever goes wrong in a scene goes wrong when it is open
(`Play.comes_of_enterScene`). From then on frames leave the mode as it was, and so does leaving the
scene.
-/

namespace Overworld

open Simulation

namespace Play

variable {game : Game} {m : Mode}

/-! ### Opening a scene -/

namespace Passes

/-- The place of the player is looked up, and a request that it comes from is used. -/
theorem startPosition (scene : Scene) (spawn : PlayerSpawn) :
    Passes game .opening .opening (Play.startPosition scene spawn) := by
  have own : Passes game .opening .opening
      (do let tile ← Play.tileAt spawn.x spawn.y; return (tile, spawn.direction)) :=
    (tileAt _ _).bind fun _ => .pure _
  refine .reads fun s => ?_
  dsimp only
  split
  · refine .ite ((tileAt _ _).bind fun tile => .ite ?_ own) own
    have forgets : Passes game .opening .opening
        (modify fun s : Session => { s with pending := none } : Play Unit) :=
      .act (fun _ => .arrive .forget (.inr rfl) trivial trivial) fun _ => rfl
    exact forgets.bind fun _ => .pure _
  · exact own

end Passes

/-- The player comes to the bare stage. -/
theorem PassesFrom.enterPlayer (scene : Scene) (spawn : PlayerSpawn) :
    PassesFrom game (fun s => s.stage = .bare scene ∧ s.current = []) .opening .opening
      (Play.enterPlayer game.config scene spawn) := by
  unfold Play.enterPlayer
  split
  · exact (Passes.pure ()).from
  · rename_i map hasMap
    refine (Passes.startPosition scene spawn).from.bind fun start => ?_
    refine (Passes.intOf spawn.z).from.bind fun z => ?_
    refine .act (f := (Arrival.player map spawn.sheet start.1 start.2 z).apply game) ?_ fun _ => rfl
    rintro u ⟨v, ⟨s, ⟨bare, early⟩, started⟩, looked⟩
    have starts := Silent.startPosition scene spawn _ _ _ started
    have looks := (Reads.intOf spawn.z).silent _ _ _ looked
    have stage : u.stage = .bare scene := looks.1.trans (starts.1.trans bare)
    refine .arrive _ (.inr rfl) ⟨?_, ?_⟩ ?_
    · rw [stage]
      rfl
    · rw [Session.current, looks.2, starts.2]
      exact early
    · rw [Arrival.Fits, stage]
      exact hasMap

/-! ### Furnishing a scene -/

/-- Something comes to a scene at a place and a depth that are looked up. -/
theorem PassesFrom.arrival {scene : Scene} {x y z : Expression} (a : Tile → Int → Arrival)
    (furnishes : ∀ tile z, (a tile z).Furnishes) (allowed : ∀ tile z s, (a tile z).Allowed s)
    (fits : ∀ tile z s, s.stage.scene = scene → (a tile z).Fits s) :
    PassesFrom game (fun s => s.stage.scene = scene) .still .still (do
      let tile ← Play.tileAt x y
      let z ← Play.intOf z
      modify fun s => (a tile z).apply game s) := by
  refine (Passes.tileAt x y).from.bind fun tile => (Passes.intOf z).from.bind fun z => ?_
  refine .act ?_ fun _ => rfl
  rintro u ⟨t, ⟨s, is, found⟩, looked⟩
  have tiles := (Reads.tileAt _ _).silent _ _ _ found
  have depths := (Reads.intOf _).silent _ _ _ looked
  have scene : u.stage.scene = scene := by rw [depths.1, tiles.1, is]
  exact .arrive _ (.inl (furnishes tile z)) (allowed tile z u) (fits tile z u scene)

theorem PassesFrom.enterProp (scene : Scene) (definition : PropDef) :
    PassesFrom game (fun s => s.stage.scene = scene) .still .still
      (Play.enterProp scene.map definition) :=
  .arrival (.prop scene.map definition) (fun _ _ => trivial) (fun _ _ _ => trivial)
    fun _ _ _ is => congrArg Scene.map is.symm

theorem PassesFrom.enterActor (scene : Scene) (definition : ActorDef) :
    PassesFrom game (fun s => s.stage.scene = scene) .still .still
      (Play.enterActor scene.map definition) :=
  .arrival (.actor scene.map definition) (fun _ _ => trivial) (fun _ _ _ => trivial)
    fun _ _ _ is => congrArg Scene.map is.symm

/-- What leaves the player alone leaves the scene as it is. -/
theorem scene_of_stands {α : Type} {x y : Play α} {a : α} {s t : Session} {scene : Scene}
    (h : (standing game s.stage).Tracks x y) (same : s.stage.scene = scene) (is : x s = .ok a t) :
    t.stage.scene = scene := by
  have stands := h.stands.1
  rw [is] at stands
  exact stands.trans same

/-- Whatever comes onto the stage comes to the same scene. -/
theorem PassesFrom.furnish (scene : Scene) :
    PassesFrom game (fun s => s.stage.scene = scene) .opening .still (Play.furnish game scene) := by
  have reveals : Passes game .opening .still
      (modify fun s => { s with host := s.host.setCamera s.stage.camera } : Play Unit) :=
    .act (fun _ => .reveal) fun _ => rfl
  have readies : Passes game .still .still
      (modify fun s => { s with stage := { s.stage with handlers := [] }, entered := s.entered + 1 } :
        Play Unit) :=
    .act (fun _ => .arrive .ready (.inl trivial) trivial trivial) fun _ => rfl
  have actor (definition : ActorDef) :
      PassesFrom game (fun s => s.stage.scene = scene) .still .still (do
        Play.enterActor scene.map definition
        Play.runList game definition.init false) :=
    (PassesFrom.enterActor scene definition).bind fun _ => (Passes.runList definition.init false).from
  refine reveals.from.keeping (fun is shown => ?_) fun _ => ?_
  · cases shown
    exact is
  refine (PassesFrom.forM (PassesFrom.enterProp scene) fun definition _ _ is entered => ?_).keeping
    (fun is entered => ?_) fun _ => ?_
  · exact scene_of_stands (.enterProp (furnishes_standing game _) _ definition) is entered
  · exact scene_of_stands (.forM fun definition _ => .enterProp (furnishes_standing game _) _ definition)
      is entered
  refine (PassesFrom.forM actor fun definition _ _ is entered => ?_).bind fun _ => ?_
  · exact scene_of_stands ((Tracks.enterActor (furnishes_standing game _) _ definition).bind fun _ =>
      .runList definition.init false) is entered
  · exact (readies.bind fun _ => .reads fun s => (Passes.note _).bind fun _ =>
      Passes.runList scene.events false).from

/-! ### Entering a scene -/

theorem comes_of_build {scene : Scene} {s : Session} (bare : s.stage = .bare scene)
    (early : s.current = []) :
    Comes game (.opening, Deed.showBackground.apply s) .still (Play.build game scene s) := by
  have shown : Play.showBackground s = .ok () (Deed.showBackground.apply s) := rfl
  rw [Play.build, bind_apply, shown]
  dsimp only
  cases hasPlayer : scene.player with
  | none => exact (PassesFrom.furnish scene).comes (congrArg Stage.scene bare)
  | some spawn =>
    refine ((PassesFrom.enterPlayer scene spawn).bind fun _ =>
      (PassesFrom.furnish scene).weaken ?_).comes ⟨bare, early⟩
    rintro u ⟨t, ⟨bare, -⟩, came⟩
    obtain ⟨v, enters, placed⟩ := placed_of_enterPlayer game.config hasPlayer bare
    cases came.symm.trans enters
    exact placed.opened

/-- However the entry to a scene ends, it does so after the scene was opened. -/
theorem comes_of_enterScene (game : Game) (name : String) (s : Session) :
    Comes game (.opening, s.opened game name) .still (Play.enterScene game name s) := by
  rw [Play.enterScene, bind_apply, openScene_eq game name s]
  cases game.graph.scene? name with
  | some _ => exact comes_of_build rfl rfl
  | none =>
    have reports : Act game (.opening, s.opened game name)
        (.opening, (Deed.note (.sceneMissing name)).apply (s.opened game name)) :=
      .deed (.note _) trivial trivial
    let entering := (Deed.note (.sceneMissing name)).apply (s.entering game name)
    have built : Comes game (.opening, Deed.showBackground.apply entering) .still
        (Play.build game (game.graph.scene name) entering) := comes_of_build rfl rfl
    exact built.after (.single reports)

/-! ### Playing a scene -/

namespace Passes

theorem enactFrame : Passes game .still .still (Play.enactFrame game) := by
  have updates : Passes game .still .still (get >>= fun s => s.stage.actors.forM fun actor =>
      Play.runList game actor.definition.update true) :=
    .reads fun s => .forM fun actor _ => runList actor.definition.update true
  refine .reads fun s => .bind (.forM fun event _ => runEvent _ true event) fun _ => .reads fun u => ?_
  exact .ite (control.bind fun _ => updates) updates

theorem playFrame : Passes game .still .still (Play.playFrame game) :=
  enactFrame.bind fun _ => advance (by simp)

theorem framesUntilRequest (n : Nat) :
    Passes game .still .still (Play.framesUntilRequest game n) := by
  induction n with
  | zero => exact .throw (by simp [Halt.Leaves])
  | succ n ih =>
    refine .reads fun s => ?_
    split
    · exact .pure _
    · exact playFrame.bind fun _ => ih

/-- A scene that asks for another one is hidden. -/
theorem playScene : Passes game .still .still (Play.playScene game) := by
  have remembers (request : SceneRequest) : Passes game .still .still (do
      modify fun s => { s with pending := some request }
      return request : Play SceneRequest) :=
    (deed (fun _ => .remember request) (fun _ => trivial) (fun _ => trivial) fun _ => rfl).bind
      fun _ => .pure request
  refine (framesUntilRequest _).bind fun request => ?_
  exact .acts (fun s => s.dressed { s.stage.background with visible := false })
    (fun _ => .single .hide) (fun _ => rfl) (remembers request)

end Passes

/-- However a visit to a scene ends, it does so after the scene was opened. -/
theorem comes_of_visit (game : Game) (name : String) (s : Session) :
    Comes game (.opening, s.opened game name) .still (Play.visit game name s) :=
  (comes_of_enterScene game name s).bind fun _ t _ => Passes.playScene.comes t

end Play

/-! ### Calls -/

/-- A call that enters no scene is begun and ends while nothing else is going on. -/
theorem Call.comes (game : Game) (call : Call) (stays : call.Stays) (s : Session) :
    Play.Comes game (.still, s) .still (call.perform game s) := by
  cases call with
  | enter name => exact stays.elim
  | run => exact stays.elim
  | frame => exact Play.Passes.playFrame.comes s
  | scene => exact (Play.Passes.playScene.bind fun _ => .pure ()).comes s
  | list events inFrame => exact (Play.Passes.runList events inFrame).comes s

/-- Something that is kept by all actions that go well holds after calls that go well, unless one of
them is a whole run. -/
theorem Session.holds_after {game : Game} {P : Mode → Session → Prop}
    {well : EStateM.Result Halt Session Unit → Prop}
    (ends : ∀ {m s r}, Play.Comes game (m, s) .still r → P m s → well r → P .still (Play.final r))
    (opens : ∀ s name, P .still s → P .opening (s.opened game name)) {s : Session} (hs : P .still s)
    {calls : List Call} (single : ∀ call ∈ calls, call ≠ .run)
    (goes : ∀ e ∈ s.history game calls, well (e.call.perform game e.session)) :
    P .still (s.after game calls) := by
  induction calls generalizing s with
  | nil => exact hs
  | cons call calls ih =>
    have first := goes ⟨s, call⟩ List.mem_cons_self
    have stays (stays : call.Stays) : P .still (Play.final (call.perform game s)) :=
      ends (Call.comes game call stays s) hs first
    have next : P .still (Play.final (call.perform game s)) := by
      cases call with
      | enter name => exact ends (Play.comes_of_enterScene game name s) (opens s name hs) first
      | run => exact absurd rfl (single .run List.mem_cons_self)
      | frame => exact stays trivial
      | scene => exact stays trivial
      | list events inFrame => exact stays trivial
    exact ih next (fun other mem => single other (List.mem_cons_of_mem _ mem)) fun e mem =>
      goes e (List.mem_cons_of_mem _ mem)

/-- What holds in a mode and is kept by every act, also where something is given up because playing
has halted in the middle of it. -/
structure Upheld (game : Game) (P : Mode → Session → Prop) : Prop where
  act {m m' : Mode} {s t : Session} (h : Act game (m, s) (m', t)) (hs : P m s) : P m' t
  resume {m : Mode} {s : Session} (shown : m.doing ≠ .opening) (hs : P m s) : P .still s

namespace Upheld

variable {game : Game} {P : Mode → Session → Prop} (upheld : Upheld game P)

include upheld

theorem acts {m m' : Mode} {s t : Session} (h : Acts game (m, s) (m', t)) (hs : P m s) : P m' t :=
  h.keeps upheld.act hs

/-- It holds however an action ends. -/
theorem final {α : Type} {m : Mode} {s : Session} {r : EStateM.Result Halt Session α}
    (h : Play.Comes game (m, s) .still r) (hs : P m s) : P .still (Play.final r) := by
  cases h with
  | ok x acts => exact upheld.acts acts hs
  | error acts leaves => exact upheld.resume leaves.ne_opening (upheld.acts acts hs)

/-- It holds after whole runs if it holds when a scene is opened. -/
theorem run (opens : ∀ s name, P .still s → P .opening (s.opened game name)) {s : Session}
    (hs : P .still s) : P .still (Play.final (Play.run game s)) := by
  have plays (scenes : Nat) (name : String) :
      P .still (Play.final (Play.playScenes game scenes name s)) := by
    induction scenes generalizing name s with
    | zero => exact hs
    | succ scenes ih =>
      have visited := upheld.final (Play.comes_of_visit game name s) (opens s name hs)
      rw [Play.playScenes_succ]
      cases visits : Play.visit game name s with
      | ok request t =>
        rw [visits] at visited
        exact ih visited request.target
      | error e t =>
        rw [visits] at visited
        cases e <;> exact visited
  have played := plays (Play.sceneCeiling - s.entered) game.graph.start
  rw [Play.run_eq]
  cases runs : Play.playScenes game (Play.sceneCeiling - s.entered) game.graph.start s with
  | ok stop t =>
    rw [runs] at played
    exact upheld.act (.deed (.note _) trivial trivial) played
  | error e t =>
    rw [runs] at played
    exact played

theorem call (opens : ∀ s name, P .still s → P .opening (s.opened game name)) (call : Call)
    {s : Session} (hs : P .still s) : P .still (Play.final (call.perform game s)) := by
  cases call with
  | enter name => exact upheld.final (Play.comes_of_enterScene game name s) (opens s name hs)
  | run =>
    rw [Call.final_run]
    exact upheld.run opens hs
  | frame => exact upheld.final (Call.comes game .frame trivial s) hs
  | scene => exact upheld.final (Call.comes game .scene trivial s) hs
  | list events inFrame =>
    exact upheld.final (Call.comes game (.list events inFrame) trivial s) hs

/-- It holds after any calls. -/
theorem after (opens : ∀ s name, P .still s → P .opening (s.opened game name)) {s : Session}
    (hs : P .still s) (calls : List Call) : P .still (s.after game calls) := by
  induction calls generalizing s with
  | nil => exact hs
  | cons call calls ih => exact ih (upheld.call opens call hs)

end Upheld

end Overworld
