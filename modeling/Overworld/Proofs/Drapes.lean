import Overworld.Proofs.Upkeep

/-!
What leaves the background of the stage alone.

Only fades change the background of a scene while it is played. What a session shows of this is its
drape: the background of the stage, with the scene, the events that were run since it was entered,
and how far the host has come. Deeds other than those of fades leave the drape as it is, so a
property of it that frames, fades and the entries of other events keep (`Drape.Kept`) is kept by
everything that happens in a scene, from its entry on (`Session.Draped.enterScene`,
`Session.Draped.playFrame`) and however it ends.
-/

namespace Overworld

open Simulation

/-! ### Drapes -/

/-- The background of a stage, and what there is to know of when it changed. -/
structure Drape where
  background : Background
  scene : Scene
  /-- The events that were run since the scene was entered, the last one first. -/
  events : List Dispatch
  frame : Nat
  stop? : Option HostStop

/-- The background of the stage, and what there is to know of when it changed. -/
def Session.drape (s : Session) : Drape :=
  ⟨s.stage.background, s.stage.scene, s.current, s.host.frame, s.host.stop?⟩

/-- A session whose drape has a property. -/
def Session.Draped (P : Drape → Prop) (s : Session) : Prop := P s.drape

/-- The deeds that leave the drape as it is. -/
def Deed.Calm : Deed → Prop
  | record .. | request .. | background _ => False
  | _ => True

theorem Deed.drape_apply {d : Deed} (calm : d.Calm) (s : Session) : (d.apply s).drape = s.drape := by
  cases d with
  | record event inFrame depth => exact calm.elim
  | request request inFrame depth => exact calm.elim
  | background b => exact calm.elim
  | present change => cases change <;> rfl
  | _ => rfl

/-- An event by which the background changes. -/
def Event.fades : Event → Bool
  | .fadeIn _ | .fadeOut _ => true
  | _ => false

/-- A property of the drape that frames keep. -/
def Drape.Lasts (P : Drape → Prop) : Prop :=
  ∀ s : Session, s.host.stop? = none → s.Draped P →
    ({ s with host := s.host.afterFrame } : Session).Draped P

/-- A property of the drape that frames, fades and the entries of all other events keep. -/
structure Drape.Kept (game : Game) (P : Drape → Prop) : Prop where
  lasts : Drape.Lasts P
  records {event : Event} (other : event.fades = false) (inFrame : Bool) (depth : Nat) {s : Session}
    (hs : s.Draped P) : (s.recorded event inFrame depth).Draped P
  fadeIn (duration : Expression) (inFrame : Bool) (depth : Nat) :
    Play.Keeps (Session.Draped P) (do
      Play.recordEvent (.fadeIn duration) inFrame depth
      Play.fadeIn (game.config.framesWithin (← Play.intOf duration)))
  fadeOut (duration : Expression) (inFrame : Bool) (depth : Nat) :
    Play.Keeps (Session.Draped P) (do
      Play.recordEvent (.fadeOut duration) inFrame depth
      Play.fadeOut (game.config.framesWithin (← Play.intOf duration)))

namespace Session.Draped

open Play (Keeps)

variable {game : Game} {P : Drape → Prop} {α β : Type}

/-! ### Looking and reporting -/

theorem calm {x : Play Unit} (d : Deed) (calm : d.Calm) (is : ∀ s, x s = .ok () (d.apply s)) :
    Keeps (Draped P) x :=
  .deed d (fun s hs => show P _ from d.drape_apply calm s ▸ hs) is

theorem note (notice : Notice) : Keeps (Draped P) (Play.note notice) := ⟨id⟩

theorem reads {x : Play α} {value : Variables → α} (h : Play.Reads x value) : Keeps (Draped P) x :=
  h.keeps fun _ _ hs => hs

theorem intOf (e : Expression) : Keeps (Draped P) (Play.intOf e) := reads (.intOf e)

theorem tileAt (x y : Expression) : Keeps (Draped P) (Play.tileAt x y) := reads (.tileAt x y)

theorem allHold (conditions : List Condition) : Keeps (Draped P) (Play.allHold conditions) := by
  have textOf (e : Expression) : Keeps (Draped P) (Play.textOf e) :=
    (reads (.valueOf e)).bind fun _ => .pure _
  induction conditions with
  | nil => exact .pure _
  | cons c conditions ih =>
    have holds : Keeps (Draped P) (Play.conditionHolds c) :=
      (textOf c.left).bind fun _ => (textOf c.right).bind fun _ => .pure _
    exact holds.bind fun _ => .ite ih (.pure _)

theorem setVariable (name : String) (value : Value) :
    Keeps (Draped P) (Play.setVariable name value) := by
  refine ⟨fun {s} hs => ?_⟩
  unfold Play.setVariable
  cases s.vars.set name value with
  | ok vars => exact hs
  | error e => exact hs

theorem setActorVisible (name : String) (visible : Bool) :
    Keeps (Draped P) (Play.setActorVisible name visible) := by
  refine ⟨fun {s} hs => ?_⟩
  rw [Tracks.setActorVisible_eq]
  cases s.stage.actors.findIdx? (·.answersTo name) with
  | none => exact hs
  | some index => exact hs

theorem setBlending (blending : Bool) : Keeps (Draped P) (Play.setBlending blending) :=
  calm (.blend blending) trivial (Play.setBlending_eq blending)

theorem forSteps {f : Nat → Play Unit} (h : ∀ step, Keeps (Draped P) (f step)) (first count : Nat) :
    Keeps (Draped P) (Overworld.forSteps f first count) := by
  induction count generalizing first with
  | zero => exact .pure ()
  | succ count ih => exact (h first).bind fun _ => ih (first + 1)

theorem runHost {x : HostRun α} {f : α → HostRun β} (first : Keeps (Draped P) (Play.runHost x))
    (next : ∀ a, Keeps (Draped P) (Play.runHost (f a))) :
    Keeps (Draped P) (Play.runHost (x >>= f)) := by
  rw [Tracks.runHost_bind]
  exact first.bind next

section Time

variable (lasts : Drape.Lasts P)

include lasts

/-! ### Waiting -/

theorem frame : Keeps (Draped P) Play.advance := by
  refine ⟨fun {s} hs => ?_⟩
  rw [Play.advance_eq]
  cases goes : s.host.stop? with
  | none => exact lasts s goes hs
  | some stop => exact hs

theorem advanceUntil {test : Play Bool} {p : ButtonStates → Bool} (looks : Looks test p) (n : Nat) :
    Keeps (Draped P) (Play.advanceUntil test n) := by
  induction n with
  | zero => exact .throw _
  | succ n ih =>
    refine ⟨fun {s} hs => ?_⟩
    rw [looks.advanceUntil_succ]
    split
    · exact hs
    · exact ((frame lasts).bind fun _ => ih).final hs

theorem waitForButton (buttons : List Button) : Keeps (Draped P) (Play.waitForButton buttons) :=
  .ite (.pure ())
    (advanceUntil lasts (p := fun states => states.anyPressed buttons) (fun _ => rfl) _)

theorem showDialog (config : Config) (text : String) :
    Keeps (Draped P) (Play.showDialog config text) := by
  have opens : Keeps (Draped P) (Play.onHost fun host => host.openDialog text) := ⟨id⟩
  have closes : Keeps (Draped P) (Play.onHost fun host => host.closeDialog) := ⟨id⟩
  have waits : Keeps (Draped P)
      (Play.advanceUntil (Play.pressed config.dialogButton) Play.patience) :=
    advanceUntil lasts (p := fun states => states.pressed.has config.dialogButton) (fun _ => rfl) _
  exact (note _).bind fun _ => opens.bind fun _ => (frame lasts).bind fun _ =>
    waits.bind fun _ => closes

theorem stopMusic (config : Config) : Keeps (Draped P) (Play.stopMusic config) := by
  have softens (volume : Float32) :
      Keeps (Draped P) (Play.onHost fun host => host.setMusicVolume volume) := ⟨id⟩
  have stops : Keeps (Draped P) (Play.onHost fun host => host.stopMusic) := ⟨id⟩
  refine .reads fun s => .ite (.pure ()) ?_
  exact (forSteps (fun _ => (softens _).bind fun _ => frame lasts) 1 _).bind fun _ =>
    stops.bind fun _ => note _

/-! ### Movements of the camera -/

theorem cameraMove (start : Pixel) (bounds : ScrollBounds) (move : CameraMove) :
    Keeps (Draped P) (Play.runHost (move.run start bounds)) := by
  have point (p : Pixel) : Keeps (Draped P) (Play.runHost (HostRun.setCamera p)) := ⟨id⟩
  have pan (position : Nat → Pixel) (first count : Nat) : Keeps (Draped P)
      (Play.runHost (Overworld.forSteps (fun step => do
        HostRun.setCamera (position step)
        HostRun.advance) first count)) := by
    induction count generalizing first with
    | zero => exact ⟨id⟩
    | succ count ih =>
      have shows := runHost (point (position first)) fun _ => frame lasts
      exact runHost shows fun _ => ih (first + 1)
  have axis (frames : Nat) (delta : Int) (position : Nat → Nat → Pixel) :
      Keeps (Draped P) (Play.runHost (CameraMove.alongAxis frames delta position)) := by
    unfold CameraMove.alongAxis
    split
    · exact ⟨id⟩
    · split
      · exact point _
      · exact pan _ 1 frames
  have arrive (goal : Pixel) : Keeps (Draped P)
      (Play.runHost (HostRun.setCamera goal >>= fun _ => pure goal)) := ⟨id⟩
  unfold CameraMove.run
  dsimp only
  split
  · exact arrive _
  · split
    · exact runHost (pan _ 1 _) fun _ => arrive _
    · split
      · exact runHost (axis _ _ _) fun _ => runHost (axis _ _ _) fun _ => arrive _
      · exact runHost (axis _ _ _) fun _ => runHost (axis _ _ _) fun _ => arrive _

theorem moveCamera (config : Config) (x y duration : Expression) (diagonal : Bool) (first : Axis) :
    Keeps (Draped P) (Play.moveCamera config x y duration diagonal first) := by
  refine .reads fun s => ?_
  split
  · exact note _
  · have places (camera : Pixel) :
        Keeps (Draped P) (Play.onStage fun stage => { stage with camera := camera }) := ⟨id⟩
    exact (tileAt _ _).bind fun _ => (intOf _).bind fun _ =>
      (cameraMove lasts ..).bind fun _ => places _

end Time

/-! ### Events -/

theorem alone {x : Play Unit} (h : Keeps (Draped P) x) : Keeps (Draped P) (Play.alone x) :=
  h.bind fun _ => .pure none

/-- What an event does itself leaves the background alone, unless it is a fade. -/
theorem enact (lasts : Drape.Lasts P) (inFrame : Bool) {event : Event}
    (other : event.fades = false) : Keeps (Draped P) (Play.enact game inFrame event) := by
  unfold Play.enact
  cases event with
  | fadeIn duration => exact nomatch other
  | fadeOut duration => exact nomatch other
  | goToScene target start => exact alone ⟨id⟩
  | wait duration => exact alone ((intOf _).bind fun _ => forSteps (fun _ => frame lasts) 1 _)
  | waitForButton buttons => exact alone (waitForButton lasts buttons)
  | onButtonPress buttons body =>
    refine .ite (.bind (.reads fun _ => .pure _) fun _ => .ite (.pure _) (.pure _)) (alone ?_)
    exact ⟨id⟩
  | showDialog text => exact alone (showDialog lasts _ text)
  | setVariable name value => exact alone (setVariable name value)
  | branch conditions yes no => exact (allHold conditions).bind fun _ => .ite (.pure _) (.pure _)
  | disableActor actor => exact alone (setActorVisible actor false)
  | enableActor actor => exact alone (setActorVisible actor true)
  | playMusic name volume loops =>
    have starts : Keeps (Draped P)
        (Play.onHost fun host => host.playMusic ⟨name, Play.hundredth volume, loops⟩) := ⟨id⟩
    exact alone (.reads fun s => .ite (.pure ()) ((note _).bind fun _ => starts))
  | stopMusic => exact alone (stopMusic lasts _)
  | playSound name volume speed panning priority => exact alone ⟨id⟩
  | runScript name => exact .pure _
  | moveCamera x y duration diagonal first => exact alone (moveCamera lasts ..)
  | disabled kind => exact .pure none
  | unknown => exact alone (note _)

section Events

variable (kept : Drape.Kept game P)

include kept

/-- An event keeps what fades keep, however deep others are nested in it. -/
theorem runEvent (room : Nat) (inFrame : Bool) (event : Event) :
    Keeps (Draped P) (Play.runEvent game room inFrame event) := by
  induction room generalizing inFrame event with
  | zero => exact .throw _
  | succ room ih =>
    unfold Play.runEvent
    cases fades : event.fades with
    | false =>
      have records : Keeps (Draped P)
          (Play.recordEvent event inFrame (game.config.maxDepth - room)) :=
        ⟨kept.records fades inFrame _⟩
      refine records.bind fun _ => (enact kept.lasts inFrame fades).bind fun next => ?_
      cases next with
      | none => exact .pure ()
      | some list => exact .forM (fun event => ih list.2 event) _
    | true =>
      cases event with
      | fadeIn duration =>
        have whole := (kept.fadeIn duration inFrame (game.config.maxDepth - room)).bind fun _ =>
          Play.Keeps.pure ()
        simpa only [Play.enact, Play.alone, bind_assoc, pure_bind] using whole
      | fadeOut duration =>
        have whole := (kept.fadeOut duration inFrame (game.config.maxDepth - room)).bind fun _ =>
          Play.Keeps.pure ()
        simpa only [Play.enact, Play.alone, bind_assoc, pure_bind] using whole
      | _ => cases fades

theorem runList (list : Handle) (inFrame : Bool) :
    Keeps (Draped P) (Play.runList game list inFrame) :=
  .forM (fun event => runEvent kept _ inFrame event) _

/-! ### Frames and entries -/

/-- The player under control leaves the drape as it is. -/
theorem steady : Play.Steady (Draped P) where
  deed {d} steered {s} hs := by
    have calm : d.Calm := by
      cases d with
      | record event inFrame depth => exact steered.elim
      | request request inFrame depth => exact steered.elim
      | background b => exact steered.elim
      | _ => trivial
    exact show P _ from d.drape_apply calm s ▸ hs
  frame := frame kept.lasts

/-- So does what comes onto the stage. -/
theorem welcomes : Play.Welcomes game (Draped P) where
  steady := steady kept
  reports _ hs := hs
  shows hs := hs
  arrival a {_} hs := by cases a <;> exact hs

theorem playFrame : Keeps (Draped P) (Play.playFrame game) :=
  (steady kept).playFrame fun event => runEvent kept _ true event

theorem framesUntilRequest (n : Nat) : Keeps (Draped P) (Play.framesUntilRequest game n) :=
  (steady kept).framesUntilRequest (fun event => runEvent kept _ true event) n

/-- A scene is entered with its background hidden, and none of its events was run before. -/
theorem enterScene {name : String} {s : Session}
    (opens : P ⟨.hidden (game.graph.scene name).backgroundName, game.graph.scene name, [],
      s.host.frame, s.host.stop?⟩) :
    (Play.final (Play.enterScene game name s)).Draped P :=
  (welcomes kept).enterScene (fun list => runList kept list false) opens

end Events

end Session.Draped

end Overworld
