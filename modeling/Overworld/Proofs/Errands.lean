import Overworld.Proofs.Simulation

/-!
What most events do, as errands.

But for the variables, the actors on the stage, the handlers and the requests for scenes, what an
event does itself is put together from frames and deeds that change none of these, and goes by what
there is to see of a session without its handles, of sprites as of event lists
(`Session.outlook`). A `Play.Errand` is an action that is put together so. What is done alike in two
sessions, and what is left as it was, is then proved by induction on the errand, and not for each
event again.
-/

namespace Overworld

open Simulation

/-! ### What errands go by -/

/-- The map without its sensors. -/
def TileMap.bare (m : TileMap) : TileMap := { m with sensors := [] }

/-- What there is to see of a session without its handles. -/
structure Outlook where
  vars : Variables
  states : ButtonStates
  music : Option Music
  /-- What the scene is called in messages. -/
  label : String
  map : Option TileMap
  background : Background
  camera : Pixel

def Session.outlook (s : Session) : Outlook :=
  ⟨s.vars, s.host.states, s.host.music, s.stage.scene.label, s.stage.map.map (·.bare),
    s.stage.background, s.stage.camera⟩

/-- Deeds that only report, and change the picture or the sound. -/
def Deed.Mere : Deed → Prop
  | note _ | background _ | showBackground | blend _ | camera _ => True
  | present (.picture ..) => False
  | present _ => True
  | _ => False

/-- A test that only looks at the buttons. -/
def Simulation.Looks (test : Play Bool) (p : ButtonStates → Bool) : Prop :=
  ∀ s, test s = .ok (p s.host.states) s

/-- Waiting goes on for a frame where the test fails. -/
theorem Simulation.Looks.advanceUntil_succ {test : Play Bool} {p : ButtonStates → Bool}
    (looks : Looks test p) (n : Nat) (s : Session) :
    Play.advanceUntil test (n + 1) s =
      if p s.host.states then .ok () s
      else (Play.advance >>= fun _ => Play.advanceUntil test n) s := by
  rw [Play.advanceUntil, Play.bind_apply, looks s]
  simp only
  split <;> rfl

/-- What runs on the host alone runs step by step in a session. -/
theorem Simulation.Tracks.runHost_bind {α β : Type} (x : HostRun α) (f : α → HostRun β) :
    Play.runHost (x >>= f) = Play.runHost x >>= fun a => Play.runHost (f a) := by
  funext s
  rw [Play.bind_apply]
  have is : (x >>= f) s.host = EStateM.bind x f s.host := rfl
  unfold Play.runHost
  rw [is, EStateM.bind]
  cases x s.host <;> rfl

/-- An action that is put together from mere deeds and frames, and goes by the outlook. -/
inductive Play.Errand : {α : Type} → Play α → Prop
  | pure {α : Type} (a : α) : Errand (Pure.pure a : Play α)
  | bind {α β : Type} {x : Play α} {f : α → Play β} (first : Errand x)
    (next : ∀ a, Errand (f a)) : Errand (x >>= f)
  | look {α : Type} {x : Play α} (f : Outlook → Play α) (is : ∀ s, x s = f s.outlook s)
    (next : ∀ outlook, Errand (f outlook)) : Errand x
  | deed {x : Play Unit} (d : Deed) (mere : d.Mere) (is : ∀ s, x s = .ok () (d.apply s)) : Errand x
  | frame : Errand Play.advance
  | await {test : Play Bool} {p : ButtonStates → Bool} (looks : Looks test p) :
    Errand (Play.advanceUntil test Play.patience)

namespace Play.Errand

variable {α β : Type}

/-! ### Putting errands together -/

theorem ite {c : Prop} [Decidable c] {x y : Play α} (yes : Errand x) (no : Errand y) :
    Errand (if c then x else y) := by
  split
  · exact yes
  · exact no

theorem forSteps {f : Nat → Play Unit} (h : ∀ step, Errand (f step)) (step count : Nat) :
    Errand (Overworld.forSteps f step count) := by
  induction count generalizing step with
  | zero => exact .pure ()
  | succ count ih => exact (h step).bind fun _ => ih (step + 1)

theorem alone {x : Play Unit} (h : Errand x) : Errand (Play.alone x) := h.bind fun _ => .pure none

/-! ### Reports and changes -/

theorem note (notice : Notice) : Errand (Play.note notice) :=
  .deed (.note notice) trivial fun _ => rfl

theorem present (change : Presentation) (mere : (Deed.present change).Mere) :
    Errand (Play.onHost fun host => change.apply host) :=
  .deed (.present change) mere fun _ => rfl

theorem changeBackground (change : Background → Background) :
    Errand (Play.changeBackground change) :=
  .look (fun outlook s => .ok () ((Deed.background (change outlook.background)).apply s))
    (fun _ => rfl) fun outlook =>
      .deed (.background (change outlook.background)) trivial fun _ => rfl

theorem showBackground : Errand Play.showBackground :=
  .deed .showBackground trivial fun _ => rfl

theorem setBlending (blending : Bool) : Errand (Play.setBlending blending) :=
  .deed (.blend blending) trivial (setBlending_eq blending)

/-! ### Expressions -/

theorem valueOf (e : Expression) : Errand (Play.valueOf e) := by
  cases e with
  | literal value => exact .look (fun _ => return some value) (fun _ => rfl) fun _ => .pure _
  | «variable» name =>
    refine .look (fun outlook => (outlook.vars.get? name).elim
      (do Play.note (.variableMissing name); return none)
      fun value => return some value) (fun s => ?_) fun outlook => ?_
    · have read : Expression.value? s.vars (.variable name) = s.outlook.vars.get? name := rfl
      rw [Play.valueOf, Play.get_bind_apply]
      simp only [read]
      cases s.outlook.vars.get? name <;> rfl
    cases outlook.vars.get? name with
    | none => exact (note _).bind fun _ => .pure _
    | some value => exact .pure _

theorem intOf (e : Expression) : Errand (Play.intOf e) := (valueOf e).bind fun _ => .pure _

theorem textOf (e : Expression) : Errand (Play.textOf e) := (valueOf e).bind fun _ => .pure _

theorem tileAt (x y : Expression) : Errand (Play.tileAt x y) :=
  (intOf x).bind fun _ => (intOf y).bind fun _ => .pure _

theorem conditionHolds (c : Condition) : Errand (Play.conditionHolds c) :=
  (textOf c.left).bind fun _ => (textOf c.right).bind fun _ => .pure _

theorem allHold (conditions : List Condition) : Errand (Play.allHold conditions) := by
  induction conditions with
  | nil => exact .pure _
  | cons c conditions ih => exact (conditionHolds c).bind fun _ => .ite ih (.pure _)

theorem anyPressed (buttons : List Button) : Errand (Play.anyPressed buttons) :=
  .look (fun outlook => Pure.pure (outlook.states.anyPressed buttons)) (fun _ => rfl)
    fun _ => .pure _

theorem pressed (button : Button) : Errand (Play.pressed button) :=
  .look (fun outlook => Pure.pure (outlook.states.pressed.has button)) (fun _ => rfl)
    fun _ => .pure _

theorem held (button : Button) : Errand (Play.held button) :=
  .look (fun outlook => Pure.pure (outlook.states.held.has button)) (fun _ => rfl)
    fun _ => .pure _

/-! ### Waiting -/

theorem wait (config : Config) (duration : Int) : Errand (Play.wait config duration) :=
  .forSteps (fun _ => .frame) 1 _

theorem fade (strength : Float32 → Float32) (frames : Nat) : Errand (Play.fade strength frames) :=
  .forSteps (fun _ => (present (.alpha _) trivial).bind fun _ => .frame) 1 _

theorem fadeIn (frames : Nat) : Errand (Play.fadeIn frames) := by
  have shown : Errand _ := (present (.alpha 0) trivial).bind fun _ =>
    (changeBackground fun b => { b with blending := false }).bind fun _ =>
      .bind showBackground fun _ => setBlending false
  unfold Play.fadeIn
  refine (setBlending true).bind fun _ => (changeBackground _).bind fun _ => .ite ?_ shown
  exact (present (.alpha 1) trivial).bind fun _ => (changeBackground _).bind fun _ =>
    .bind showBackground fun _ => (fade _ frames).bind fun _ => shown

theorem fadeOut (frames : Nat) : Errand (Play.fadeOut frames) := by
  have hidden : Errand _ := (present (.alpha 1) trivial).bind fun _ =>
    (changeBackground fun b => { b with visible := false, blending := false }).bind fun _ =>
      showBackground
  unfold Play.fadeOut
  refine (setBlending true).bind fun _ => .ite ?_ hidden
  exact (present (.alpha 0) trivial).bind fun _ => (changeBackground _).bind fun _ =>
    .bind showBackground fun _ => (fade _ frames).bind fun _ => hidden

theorem waitForButton (buttons : List Button) : Errand (Play.waitForButton buttons) :=
  .ite (.pure ()) (.await (p := fun states => states.anyPressed buttons) fun _ => rfl)

theorem showDialog (config : Config) (text : String) : Errand (Play.showDialog config text) :=
  (note _).bind fun _ => (present (.openDialog text) trivial).bind fun _ => .bind .frame fun _ =>
    (await (p := fun states => states.pressed.has config.dialogButton) fun _ => rfl).bind
      fun _ => present .closeDialog trivial

/-! ### Music -/

theorem startMusic (name : String) (volume : Int) (loops : Bool) :
    Errand (Play.startMusic name volume loops) := by
  refine .look (fun outlook => if outlook.music.isSome then return else do
    Play.note (.musicStarted name volume loops)
    Play.onHost fun host => host.playMusic ⟨name, Play.hundredth volume, loops⟩) (fun _ => rfl)
    fun outlook => ?_
  exact .ite (.pure ()) ((note _).bind fun _ => present (.playMusic _) trivial)

theorem stopMusic (config : Config) : Errand (Play.stopMusic config) := by
  refine .look (fun outlook => if outlook.music.isNone then return else do
    Overworld.forSteps (fun step => do
      let remaining : Float32 := 1 - Float32.ofNat step / Float32.ofNat config.musicFadeSteps
      Play.onHost fun host =>
        host.setMusicVolume ((outlook.music.map (·.volume)).getD 0 * remaining)
      Play.advance) 1 config.musicFadeSteps
    Play.onHost fun host => host.stopMusic
    Play.note .musicStopped) (fun _ => rfl) fun outlook => ?_
  refine .ite (.pure ()) (.bind (.forSteps (fun step => ?_) 1 _) fun _ => ?_)
  · exact (present (.musicVolume _) trivial).bind fun _ => .frame
  · exact (present .stopMusic trivial).bind fun _ => note _

/-! ### Movements of the camera -/

theorem runHost {x : HostRun α} {f : α → HostRun β} (first : Errand (Play.runHost x))
    (next : ∀ a, Errand (Play.runHost (f a))) : Errand (Play.runHost (x >>= f)) := by
  rw [Tracks.runHost_bind]
  exact first.bind next

theorem runHost_pure (a : α) : Errand (Play.runHost (Pure.pure a)) := .pure a

/-- A movement that shows a position in each of its frames. -/
theorem pan (position : Nat → Pixel) (step count : Nat) :
    Errand (Play.runHost (Overworld.forSteps (fun step => do
      HostRun.setCamera (position step)
      HostRun.advance) step count)) := by
  induction count generalizing step with
  | zero => exact runHost_pure ()
  | succ count ih =>
    exact .runHost (.runHost (present (.camera _) trivial) fun _ => .frame) fun _ => ih (step + 1)

theorem alongAxis (frames : Nat) (delta : Int) (position : Nat → Nat → Pixel) :
    Errand (Play.runHost (CameraMove.alongAxis frames delta position)) := by
  unfold CameraMove.alongAxis
  split
  · exact runHost_pure ()
  · split
    · exact present (.camera _) trivial
    · exact pan _ 1 frames

theorem cameraMove (start : Pixel) (bounds : ScrollBounds) (move : CameraMove) :
    Errand (Play.runHost (move.run start bounds)) := by
  have arrive (goal : Pixel) : Errand
      (Play.runHost (HostRun.setCamera goal >>= fun _ => Pure.pure goal)) :=
    .runHost (present (.camera goal) trivial) fun _ => runHost_pure goal
  unfold CameraMove.run
  dsimp only
  split
  · exact arrive _
  · split
    · exact .runHost (pan _ 1 _) fun _ => arrive _
    · split
      · exact .runHost (alongAxis ..) fun _ => .runHost (alongAxis ..) fun _ => arrive _
      · exact .runHost (alongAxis ..) fun _ => .runHost (alongAxis ..) fun _ => arrive _

/-- Sensors make no difference to the camera. -/
theorem moveCamera (config : Config) (x y duration : Expression) (diagonal : Bool) (first : Axis) :
    Errand (Play.moveCamera config x y duration diagonal first) := by
  refine .look (fun outlook => outlook.map.elim
    (Play.note (.cameraWithoutMap outlook.label))
    fun map => do
      let bounds := ScrollBounds.ofMap map config
      let tile ← Play.tileAt x y
      let frames := config.framesWithin (← Play.intOf duration)
      let move : CameraMove := ⟨bounds.towardsTile map tile, frames, diagonal, first⟩
      let camera ← Play.runHost (move.run outlook.camera bounds)
      Play.onStage fun stage => { stage with camera := camera }) (fun s => ?_) fun outlook => ?_
  · have seen : s.outlook.map = s.stage.map.map (·.bare) := rfl
    rw [Play.moveCamera, Play.get_bind_apply]
    simp only [seen]
    cases s.stage.map <;> rfl
  cases outlook.map with
  | none => exact note _
  | some map =>
    refine (tileAt x y).bind fun _ => (intOf duration).bind fun _ =>
      (cameraMove ..).bind fun camera => ?_
    exact .deed (.camera camera) trivial fun _ => rfl

end Play.Errand

/-! ### Events -/

/-- An event that leaves nothing behind but what it reports, shows and plays: it sets no variable,
shows or hides no actor, registers no handler and asks for no scene. -/
def Event.Fleeting (inFrame : Bool) : Event → Prop
  | .setVariable .. | .enableActor _ | .disableActor _ | .goToScene .. => False
  | .onButtonPress .. => inFrame = true
  | _ => True

/-- What such an event does itself is an errand. -/
theorem Play.Errand.enact (game : Game) {inFrame : Bool} {event : Event}
    (fleeting : event.Fleeting inFrame) : Errand (Play.enact game inFrame event) := by
  unfold Play.enact
  cases event with
  | wait duration => exact .alone ((intOf duration).bind fun _ => wait ..)
  | fadeIn duration => exact .alone ((intOf duration).bind fun _ => fadeIn _)
  | fadeOut duration => exact .alone ((intOf duration).bind fun _ => fadeOut _)
  | waitForButton buttons => exact .alone (waitForButton buttons)
  | onButtonPress buttons body =>
    cases fleeting
    exact (anyPressed buttons).bind fun _ => .ite (.pure _) (.pure _)
  | showDialog text => exact .alone (showDialog ..)
  | branch conditions yes no => exact (allHold conditions).bind fun _ => .ite (.pure _) (.pure _)
  | playMusic name volume loops => exact .alone (startMusic name volume loops)
  | stopMusic => exact .alone (stopMusic _)
  | playSound name volume speed panning priority => exact .alone (present (.playSound _) trivial)
  | runScript name => exact .pure _
  | moveCamera x y duration diagonal first =>
    exact .alone (moveCamera _ x y duration diagonal first)
  | disabled kind => exact .pure none
  | unknown => exact .alone (note _)
  | goToScene | setVariable | enableActor | disableActor => exact fleeting.elim

end Overworld
