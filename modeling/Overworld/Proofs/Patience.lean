import Overworld.Proofs.Nesting
import Overworld.Proofs.Termination

/-!
How playing spends the frames of the host.

Whatever waits for the player goes round and round, and each round of it ends it or takes a frame
(`Play.Brisk`), so it goes round at most once more than there are frames left; what lasts for a
number of frames takes exactly these (`Play.Takes`). With a limit to the nesting of events nothing
else repeats, and on a host with a budget all that can be asked of a checked game returns.
-/

namespace Overworld

open Simulation

/-! ### Loops that wait -/

/-- What a round of a loop comes to that may go round a number of times: it ends the loop, or it
takes a frame at least and the loop goes on. -/
inductive Play.Round {σ α : Type} (loop : Nat → σ → Play α) (invariant : σ → Session → Prop) (a : σ)
    (s : Session) : Prop
  | last (result : EStateM.Result Halt Session α) (ends : ∀ n, loop (n + 1) a s = result)
  | next (b : σ) (t : Session) (holds : invariant b t) (later : s.Later t)
    (played : s.host.frame < t.host.frame) (goes : ∀ n, loop (n + 1) a s = loop n b t)

/-- A loop that cannot go round without ending or taking a frame. The invariant is what a round
relies on, and what it keeps. -/
def Play.Brisk {σ α : Type} (loop : Nat → σ → Play α) (invariant : σ → Session → Prop) : Prop :=
  ∀ a s, invariant a s → Play.Round loop invariant a s

section

variable {σ α β : Type} {loop : Nat → σ → Play α} {invariant : σ → Session → Prop}

/-- With more rounds than there are frames left, it does not matter how many more. -/
theorem Play.Brisk.eq_of_enough (brisk : Play.Brisk loop invariant) {n m : Nat} {a : σ}
    {s : Session} (holds : invariant a s) (enough : s.host.framesLeft < n)
    (enough' : s.host.framesLeft < m) : loop n a s = loop m a s := by
  induction n generalizing m a s with
  | zero => exact absurd enough (Nat.not_lt_zero _)
  | succ n ih =>
    obtain ⟨m, rfl⟩ : ∃ k, m = k + 1 := ⟨m - 1, by omega⟩
    cases brisk a s holds with
    | last result ends => rw [ends, ends]
    | next b t holds later played goes =>
      have fewer := later.framesLeft_lt played
      rw [goes, goes]
      exact ih holds (by omega) (by omega)

/-- A round that does something first, which takes a frame when it comes to its end. -/
theorem Play.Round.of_bind {body : Play β} (next : β → σ) {a : σ} {s : Session}
    (is : ∀ n, loop (n + 1) a s = (body >>= fun b => loop n (next b)) s)
    (takes : ∀ b t, body s = .ok b t →
      invariant (next b) t ∧ s.Later t ∧ s.host.frame < t.host.frame) :
    Play.Round loop invariant a s := by
  cases done : body s with
  | ok b t =>
    obtain ⟨holds, later, played⟩ := takes b t done
    refine .next (next b) t holds later played fun n => ?_
    rw [is, bind_apply, done]
  | error e t =>
    refine .last (.error e t) fun n => ?_
    rw [is, bind_apply, done]

end

/-- Waiting for buttons takes a frame each time that they are not pressed. -/
theorem Simulation.Looks.brisk {test : Play Bool} {p : ButtonStates → Bool} (looks : Looks test p) :
    Play.Brisk (fun n (_ : Unit) => Play.advanceUntil test n) fun _ s => s.Sound := by
  intro _ s sound
  by_cases pressed : p s.host.states
  · refine .last (.ok () s) fun n => ?_
    exact (looks.advanceUntil_succ n s).trans (if_pos pressed)
  · refine .of_bind id (fun n => (looks.advanceUntil_succ n s).trans (if_neg pressed)) ?_
    intro _ t played
    obtain ⟨goes, rfl⟩ := Play.advance_eq_ok_iff.mp played
    have later := Stretch.later (.single (.frame goes)) sound
    exact ⟨later.sound, later, Nat.lt_succ_self _⟩

/-- A walk goes on while its button is held and the scene stays. -/
theorem steps_succ (game : Game) (map : TileMap) (d : Direction) (sprite : SpriteHandle) (n : Nat)
    (walk : WalkCycle) (s : Session) :
    Play.steps game map d sprite (n + 1) walk s =
      if s.host.states.held.has d.button && !s.stage.changing then
        (Play.step game map d sprite walk >>= Play.steps game map d sprite n) s
      else .ok () s := by
  change (if _ then _ else _ : Play Unit) s = _
  split <;> rfl

/-- A walk takes a frame for each of its steps. -/
theorem brisk_steps (game : Game) {map : TileMap} (sized : 0 < map.grid) (d : Direction)
    (sprite : SpriteHandle) :
    Play.Brisk (Play.steps game map d sprite) fun _ s =>
      s.Sound ∧ s.stage.map = some map ∧ s.stage.player.isSome := by
  rintro walk s ⟨sound, onMap, present⟩
  by_cases goes : (s.host.states.held.has d.button && !s.stage.changing) = true
  · have free : s.stage.request = none := by
      cases asked : s.stage.request with
      | none => rfl
      | some request => simp [Stage.changing, asked] at goes
    refine .of_bind id (fun n => (steps_succ game map d sprite n walk s).trans (if_pos goes)) ?_
    intro walk' t stepped
    have course : Stretch s t :=
      TracksFrom.stretch_ok ((walks_within game s).step map d sprite walk) ⟨onMap, free⟩ stepped
    have later := course.later sound
    refine ⟨⟨later.sound, course.map_eq.trans onMap, course.player_isSome.trans present⟩, later, ?_⟩
    exact frame_lt_of_step sized present stepped
  · refine .last (.ok () s) fun n => ?_
    exact (steps_succ game map d sprite n walk s).trans (if_neg goes)

/-- A scene takes a frame each time that it does not ask for another. -/
theorem brisk_framesUntilRequest (game : Game) :
    Play.Brisk (fun n (_ : Unit) => Play.framesUntilRequest game n) fun _ s => s.Sound := by
  intro _ s sound
  cases asked : s.stage.request with
  | some request =>
    refine .last (.ok request s) fun n => ?_
    exact (framesUntilRequest_succ game n s).trans (by rw [asked])
  | none =>
    have round (n : Nat) : Play.framesUntilRequest game (n + 1) s =
        (Play.playFrame game >>= fun _ => Play.framesUntilRequest game n) s := by
      rw [framesUntilRequest_succ, asked]
    refine .of_bind id round ?_
    intro _ t played
    have course : Stretch s t := Tracks.stretch_ok (.playFrame (walks_within game s)) played
    have later := course.later sound
    exact ⟨later.sound, later, frame_lt_of_playFrame played⟩

/-! ### What lasts for a number of frames -/

/-- An action that takes a number of frames when it comes to its end. -/
def Play.Takes {α : Type} (act : Play α) (frames : Nat) : Prop :=
  ∀ s a t, act s = .ok a t → t.host.frame = s.host.frame + frames

/-- The frames that a movement of the camera from a point lasts: those that it is given, but none on
an axis on which it has no way to go. -/
def CameraMove.duration (start : Pixel) (bounds : ScrollBounds) (move : CameraMove) : Nat :=
  let goal := bounds.clamp move.target
  let dx := goal.x - start.x
  let dy := goal.y - start.y
  let across := horizontalFrames move.frames dx dy
  if move.frames = 0 ∨ move.diagonal then move.frames
  else (if dx = 0 then 0 else across) + if dy = 0 then 0 else move.frames - across

namespace Play.Takes

variable {α β : Type} {n m : Nat}

theorem pure (a : α) : Takes (Pure.pure a : Play α) 0 := by
  intro s b t h
  cases h
  rfl

theorem bind {x : Play α} {f : α → Play β} (hx : Takes x n) (hf : ∀ a, Takes (f a) m) :
    Takes (x >>= f) (n + m) := by
  intro s b t h
  obtain ⟨a, u, first, next⟩ := bind_eq_ok_iff.mp h
  have before := hx s a u first
  have after := hf a u b t next
  omega

theorem of_eq {x : Play α} (h : Takes x n) (same : n = m) : Takes x m := same ▸ h

theorem advance : Takes Play.advance 1 := by
  intro s a t h
  obtain ⟨-, rfl⟩ := advance_eq_ok_iff.mp h
  rfl

/-- No deed takes time. -/
theorem deed {x : Play Unit} (d : Stage → Deed) (is : ∀ s, x s = .ok () ((d s.stage).apply s)) :
    Takes x 0 := by
  intro s a t h
  rw [is] at h
  cases h
  exact congrArg Clock.frame ((d s.stage).clock_apply s)

theorem present (change : Presentation) : Takes (Play.onHost fun host => change.apply host) 0 :=
  .deed (fun _ => .present change) fun _ => rfl

theorem changeBackground (change : Background → Background) :
    Takes (Play.changeBackground change) 0 :=
  .deed (fun stage => .background (change stage.background)) fun _ => rfl

theorem showBackground : Takes Play.showBackground 0 :=
  .deed (fun _ => .showBackground) fun _ => rfl

theorem setBlending (blending : Bool) : Takes (Play.setBlending blending) 0 :=
  .deed (fun _ => .blend blending) (setBlending_eq blending)

/-- What is done in single frames takes as many. -/
theorem forSteps {f : Nat → Play Unit} (h : ∀ step, Takes (f step) 1) (step count : Nat) :
    Takes (Overworld.forSteps f step count) count := by
  induction count generalizing step with
  | zero => exact .pure ()
  | succ count ih => exact ((h step).bind fun _ => ih (step + 1)).of_eq (Nat.add_comm 1 count)

theorem wait (config : Config) (duration : Int) :
    Takes (Play.wait config duration) (config.framesCovering duration) :=
  .forSteps (fun _ => advance) 1 _

theorem fade (strength : Float32 → Float32) (frames : Nat) :
    Takes (Play.fade strength frames) frames :=
  .forSteps (fun _ => (present (.alpha _)).bind fun _ => advance) 1 frames

theorem fadeIn (frames : Nat) : Takes (Play.fadeIn frames) frames := by
  have shown : Takes _ _ := (present (.alpha 0)).bind fun _ =>
    (changeBackground fun b => { b with blending := false }).bind fun _ =>
      showBackground.bind fun _ => setBlending false
  have gradually : Takes _ _ := (present (.alpha 1)).bind fun _ =>
    (changeBackground fun b => { b with blending := true }).bind fun _ =>
      showBackground.bind fun _ => (fade (fun t => 1 - t) frames).bind fun _ => shown
  unfold Play.fadeIn
  by_cases none : frames = 0
  · rw [if_neg (by simp [none])]
    exact ((setBlending true).bind fun _ => (changeBackground _).bind fun _ =>
      shown).of_eq none.symm
  · rw [if_pos none]
    exact ((setBlending true).bind fun _ => (changeBackground _).bind fun _ =>
      gradually).of_eq (by omega)

theorem fadeOut (frames : Nat) : Takes (Play.fadeOut frames) frames := by
  have hidden : Takes _ _ := (present (.alpha 1)).bind fun _ =>
    (changeBackground fun b => { b with visible := false, blending := false }).bind fun _ =>
      showBackground
  have gradually : Takes _ _ := (present (.alpha 0)).bind fun _ =>
    (changeBackground fun b => { b with blending := true }).bind fun _ =>
      showBackground.bind fun _ => (fade (fun t => t) frames).bind fun _ => hidden
  unfold Play.fadeOut
  by_cases none : frames = 0
  · rw [if_neg (by simp [none])]
    exact ((setBlending true).bind fun _ => hidden).of_eq none.symm
  · rw [if_pos none]
    exact ((setBlending true).bind fun _ => gradually).of_eq (by omega)

/-- Music that is playing takes its frames to fade out. -/
theorem stopMusic (config : Config) {s t : Session} {a : Unit}
    (h : Play.stopMusic config s = .ok a t) :
    t.host.frame = s.host.frame + if s.host.music.isNone then 0 else config.musicFadeSteps := by
  rw [Play.stopMusic, get_bind_apply] at h
  split at h
  · rename_i silent
    rw [if_pos silent]
    exact Takes.pure _ s a t h
  · rename_i playing
    rw [if_neg playing]
    refine Takes.of_eq (.bind (.forSteps (fun step => ?_) 1 _) fun _ => ?_) (Nat.add_zero _) s a t h
    · exact (present (.musicVolume _)).bind fun _ => advance
    · exact (present .stopMusic).bind fun _ => .deed (fun _ => .note _) fun _ => rfl

/-! ### Movements of the camera -/

theorem runHost {x : HostRun α} {f : α → HostRun β} (first : Takes (Play.runHost x) n)
    (next : ∀ a, Takes (Play.runHost (f a)) m) : Takes (Play.runHost (x >>= f)) (n + m) := by
  rw [Tracks.runHost_bind]
  exact first.bind next

theorem setCamera (position : Pixel) : Takes (Play.runHost (HostRun.setCamera position)) 0 :=
  present (.camera position)

/-- A movement takes a frame for each position that it shows. -/
theorem pan (position : Nat → Pixel) (step count : Nat) :
    Takes
      (Play.runHost (Overworld.forSteps (fun step => do
        HostRun.setCamera (position step)
        HostRun.advance) step count)) count := by
  induction count generalizing step with
  | zero => exact .pure ()
  | succ count ih =>
    have first : Takes (Play.runHost (do HostRun.setCamera (position step); HostRun.advance)) 1 :=
      (setCamera (position step)).runHost fun _ => advance
    exact (first.runHost fun _ => ih (step + 1)).of_eq (Nat.add_comm 1 count)

theorem alongAxis (frames : Nat) (delta : Int) (position : Nat → Nat → Pixel) :
    Takes (Play.runHost (CameraMove.alongAxis frames delta position))
      (if delta = 0 then 0 else frames) := by
  unfold CameraMove.alongAxis
  split
  · exact .pure ()
  · split
    · rename_i none
      exact (setCamera _).of_eq none.symm
    · exact pan _ 1 frames

theorem cameraMove (start : Pixel) (bounds : ScrollBounds) (move : CameraMove) :
    Takes (Play.runHost (move.run start bounds)) (move.duration start bounds) := by
  have stay (goal : Pixel) : Takes (Play.runHost (Pure.pure goal)) 0 := pure goal
  have arrive (goal : Pixel) :
      Takes (Play.runHost (HostRun.setCamera goal >>= fun _ => Pure.pure goal)) 0 :=
    (setCamera goal).runHost fun _ => stay goal
  unfold CameraMove.run CameraMove.duration
  dsimp only
  by_cases none : move.frames = 0
  · rw [if_pos none, if_pos (.inl none), none]
    exact arrive _
  · rw [if_neg none]
    by_cases diagonal : move.diagonal
    · rw [if_pos diagonal, if_pos (.inr diagonal)]
      exact (pan _ 1 _).runHost fun _ => arrive _
    · rw [if_neg diagonal, if_neg (by simp [none, diagonal])]
      cases move.first with
      | horizontal =>
        exact runHost (alongAxis _ _ _) fun _ => runHost (alongAxis _ _ _) fun _ => arrive _
      | vertical =>
        refine of_eq
          (runHost (alongAxis _ _ _) fun _ => runHost (alongAxis _ _ _) fun _ => arrive _) ?_
        exact Nat.add_comm ..

end Play.Takes

/-! ### The law of patience -/

/-- How a game spends frames, in any session. -/
structure Game.SpendsFrames (game : Game) : Prop where
  /-- Waiting for buttons, showing a dialog, walking and playing a scene go on frame by frame. -/
  buttons (buttons : List Button) :
    Play.Brisk (fun n (_ : Unit) => Play.advanceUntil (Play.anyPressed buttons) n)
      fun _ s => s.Sound
  dialog :
    Play.Brisk (fun n (_ : Unit) => Play.advanceUntil (Play.pressed game.config.dialogButton) n)
      fun _ s => s.Sound
  walk {map : TileMap} (sized : 0 < map.grid) (d : Direction) (sprite : SpriteHandle) :
    Play.Brisk (Play.steps game map d sprite) fun _ s =>
      s.Sound ∧ s.stage.map = some map ∧ s.stage.player.isSome
  scene : Play.Brisk (fun n (_ : Unit) => Play.framesUntilRequest game n) fun _ s => s.Sound
  /-- What lasts for a number of frames takes these and no more. -/
  wait (duration : Int) :
    (Play.wait game.config duration).Takes (game.config.framesCovering duration)
  fadeIn (frames : Nat) : (Play.fadeIn frames).Takes frames
  fadeOut (frames : Nat) : (Play.fadeOut frames).Takes frames
  stopMusic {s t : Session} (h : Play.stopMusic game.config s = .ok () t) :
    t.host.frame = s.host.frame + if s.host.music.isNone then 0 else game.config.musicFadeSteps
  camera (start : Pixel) (bounds : ScrollBounds) (move : CameraMove) :
    (Play.runHost (move.run start bounds)).Takes (move.duration start bounds)
  /-- A frame that comes to its end takes time. -/
  frame {s t : Session} (played : Play.playFrame game s = .ok () t) : s.host.frame < t.host.frame

theorem spendsFrames (game : Game) : game.SpendsFrames where
  buttons buttons := Looks.brisk (p := fun states => states.anyPressed buttons) fun _ => rfl
  dialog :=
    Looks.brisk (p := fun states => states.pressed.has game.config.dialogButton) fun _ => rfl
  walk sized := brisk_steps game sized
  scene := brisk_framesUntilRequest game
  wait := Play.Takes.wait game.config
  fadeIn := Play.Takes.fadeIn
  fadeOut := Play.Takes.fadeOut
  stopMusic := Play.Takes.stopMusic game.config
  camera := Play.Takes.cameraMove
  frame := frame_lt_of_playFrame

/-- How a session answers whatever is asked of the game next. -/
structure Session.Patient (game : Game) (s : Session) : Prop where
  enter (name : String) : Play.Returns (Play.enterScene game name s)
  frame : Play.Returns (Play.playFrame game s)
  scene : Play.Returns (Play.playScene game s)
  list (depth : Nat) (list : Handle) (inFrame : Bool) :
    Play.Returns (Play.runEvents game (game.config.maxDepth - depth) inFrame
      (game.graph.events list) s)
  /-- However lists run each other, a list goes down no more levels than the limit leaves. -/
  levels (depth : Nat) (list : Handle) (inFrame : Bool) {levels : Nat}
    (enough : game.config.maxDepth - depth < levels) :
    (game.graph.events list).forM (CountedPlay.runEvent game levels inFrame) ⟨s, depth⟩ =
      CountedPlay.atDepth depth (Play.runEvents game (game.config.maxDepth - depth) inFrame
        (game.graph.events list) s)
  /-- A loop that takes a frame each time goes round once more than there are frames left, at
  most. -/
  rounds {σ α : Type} {loop : Nat → σ → Play α} {invariant : σ → Session → Prop}
    (brisk : Play.Brisk loop invariant) {a : σ} (holds : invariant a s) {rounds : Nat}
    (enough : s.host.framesLeft < rounds) : loop rounds a s = loop Play.patience a s

/-- In a checked graph a sound session answers. -/
theorem Session.Sound.patient {game : Game} {s : Session} (checked : game.graph.check = .ok ())
    (sound : s.Sound) : s.Patient game := by
  have walks : (timed game s).Walks := walks_timed game s
  constructor
  case enter =>
    intro name
    exact Tracks.returns (.enterScene (enters_timed checked s name) (arrives_timed checked s)) sound
  case frame => exact Tracks.returns (.playFrame walks) sound
  case scene => exact Tracks.returns (.playScene walks fun _ => does_timed game s _) sound
  case list =>
    intro depth list inFrame
    have tracks : (timed game s).Tracks
        (Play.runEvents game (game.config.maxDepth - depth) inFrame (game.graph.events list)) _ :=
      .forM fun event _ => .runEvent (Nat.sub_le _ _) inFrame event
    exact Tracks.returns tracks sound
  case levels =>
    intro depth list inFrame levels enough
    exact CountedPlay.Follows.forM (CountedPlay.follows_runEvent game enough inFrame) _ s
  case rounds =>
    intro σ α loop invariant brisk a holds rounds enough
    exact brisk.eq_of_enough holds enough sound.framesLeft_lt_patience

/-- **Nothing goes on without a frame.** On a host with a budget a game with a checked graph returns
from every entry to a scene, every frame, every scene and every event list, whatever was asked of it
before, however its lists run each other; for each of its loops takes a frame every time round, and
a frame that comes to its end takes time. -/
theorem patient_of_check {game : Game} {input : InputScript} {n : Nat} {stops : Bool} {s : Session}
    (checked : game.graph.check = .ok ()) (le : n ≤ Host.frameCeiling)
    (start : game.session (.fresh input (some n) stops) = .ok s) (calls : List Call) :
    game.SpendsFrames ∧ (s.after game calls).Patient game := by
  have later := (s.course_after game calls).later checked (sound_session le start)
  exact ⟨spendsFrames game, later.sound.patient checked⟩

/-- In the sample this holds halfway through a walk to the gate. -/
theorem patient_of_check_sample :
    ∃ s, Game.sample.session (.fresh (InputScript.empty.hold [.right] 9) (some 9) false) = .ok s ∧
      Game.sample.SpendsFrames ∧
      (s.after Game.sample [.enter "yard", .frame]).Patient Game.sample :=
  ⟨_, rfl, patient_of_check rfl (by decide) rfl _⟩

end Overworld
