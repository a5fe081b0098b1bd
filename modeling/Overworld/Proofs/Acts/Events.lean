import Overworld.Proofs.Acts

/-!
Events, act by act.

Whatever an event starts it brings to an end: a fade, a dialog, the fading out of the music, a
movement of the camera. So every event that ends leaves the mode as it was, and one that halts otherwise than
by the host has not started anything (`Play.Passes.runEvent`).
-/

namespace Overworld

open Simulation

namespace Play

variable {game : Game} {m : Mode} {w : Bool}

namespace Passes

/-! ### Reports and expressions -/

theorem note (notice : Notice) : Passes game m m (Play.note notice) :=
  .deed (fun _ => .note notice) (fun _ => trivial) (fun _ => trivial) fun _ => rfl

theorem valueOf (e : Expression) : Passes game m m (Play.valueOf e) := by
  unfold Play.valueOf
  refine .reads fun s => ?_
  split
  · exact (note _).bind fun _ => .pure _
  · exact .pure _

theorem intOf (e : Expression) : Passes game m m (Play.intOf e) := (valueOf e).bind fun _ => .pure _

theorem textOf (e : Expression) : Passes game m m (Play.textOf e) :=
  (valueOf e).bind fun _ => .pure _

theorem tileAt (x y : Expression) : Passes game m m (Play.tileAt x y) :=
  (intOf x).bind fun _ => (intOf y).bind fun _ => .pure _

theorem conditionHolds (c : Condition) : Passes game m m (Play.conditionHolds c) :=
  (textOf c.left).bind fun _ => (textOf c.right).bind fun _ => .pure _

theorem allHold (conditions : List Condition) : Passes game m m (Play.allHold conditions) := by
  induction conditions with
  | nil => exact .pure _
  | cons c conditions ih => exact (conditionHolds c).bind fun _ => .ite ih (.pure _)

/-! ### Waits and fades -/

theorem wait (shown : m.doing ≠ .opening) (config : Config) (duration : Int) :
    Passes game m m (Play.wait config duration) :=
  .forSteps fun _ _ _ => .advance shown

theorem alpha (strength : Float32) :
    Passes game m m (Play.onHost fun host => host.setAlpha strength) :=
  .deed (fun _ => .present (.alpha strength)) (fun _ => trivial) (fun _ => trivial) fun _ => rfl

theorem setBlending (blending : Bool) : Passes game m m (Play.setBlending blending) :=
  .deed (fun _ => .blend blending) (fun _ => trivial) (fun _ => trivial) (setBlending_eq blending)

theorem fade (strength : Float32 → Float32) (frames : Nat) :
    Passes game ⟨.fading, w⟩ ⟨.fading, w⟩ (Play.fade strength frames) :=
  .forSteps fun _ _ _ => (alpha _).bind fun _ => .advance (by simp)

theorem fadeIn (frames : Nat) : Passes game ⟨.nothing, w⟩ ⟨.nothing, w⟩ (Play.fadeIn frames) := by
  have shown : Passes game ⟨.fading, w⟩ ⟨.nothing, w⟩ (do
      Play.onHost fun host => host.setAlpha 0
      Play.changeBackground fun b => { b with blending := false }
      Play.showBackground
      Play.setBlending false) :=
    .acts (fun s => s.dressed { s.stage.background with blending := false })
      (fun s => .single (.unveil (.inr rfl) s.stage.background.visible)) (fun _ => rfl)
      ((alpha 0).bind fun _ => setBlending false)
  have fades : Passes game ⟨.fading, w⟩ ⟨.fading, w⟩ (do
      Play.onHost fun host => host.setAlpha 1
      Play.fade (fun t => 1 - t) frames) := (alpha 1).bind fun _ => fade _ frames
  unfold Play.fadeIn
  refine (setBlending true).bind fun _ => ?_
  by_cases none : frames = 0
  · -- Without a frame for it the background appears at once.
    subst none
    exact .acts (fun s => s.dressed { s.stage.background with visible := true, blending := false })
      (fun s => .single (.unveil (.inl rfl) true)) (fun _ => rfl)
      ((alpha 0).bind fun _ => setBlending false)
  · rw [if_pos none]
    exact .acts (fun s => s.dressed { s.stage.background with visible := true, blending := true })
      (fun s => .single (.veil true)) (fun _ => rfl) (fades.bind fun _ => shown)

theorem fadeOut (frames : Nat) : Passes game ⟨.nothing, w⟩ ⟨.nothing, w⟩ (Play.fadeOut frames) := by
  have hidden {x : Doing} (fades : x = .nothing ∨ x = .fading) :
      Passes game ⟨x, w⟩ ⟨.nothing, w⟩ (do
        Play.onHost fun host => host.setAlpha 1
        Play.changeBackground fun b => { b with visible := false, blending := false }
        Play.showBackground) :=
    .acts (fun s => s.dressed { s.stage.background with visible := false, blending := false })
      (fun s => .single (.unveil fades false)) (fun _ => rfl) (alpha 1)
  have fades : Passes game ⟨.fading, w⟩ ⟨.fading, w⟩ (do
      Play.onHost fun host => host.setAlpha 0
      Play.fade (fun t => t) frames) := (alpha 0).bind fun _ => fade _ frames
  unfold Play.fadeOut
  refine (setBlending true).bind fun _ => .ite ?_ (hidden (.inl rfl))
  exact .acts (fun s => s.dressed { s.stage.background with blending := true })
    (fun s => .single (.veil s.stage.background.visible)) (fun _ => rfl)
    (fades.bind fun _ => hidden (.inr rfl))

/-! ### Waiting for the buttons -/

theorem advanceUntil (shown : m.doing ≠ .opening) {test : Play Bool} {p : ButtonStates → Bool}
    (looks : Looks test p) (n : Nat) : Passes game m m (Play.advanceUntil test n) := by
  induction n with
  | zero => exact .throw shown
  | succ n ih =>
    constructor
    intro s
    rw [looks.advanceUntil_succ]
    split
    · exact .ok () .refl
    · exact ((advance shown).bind fun _ => ih).comes s

theorem waitForButton (shown : m.doing ≠ .opening) (buttons : List Button) :
    Passes game m m (Play.waitForButton buttons) :=
  .ite (.pure ())
    (advanceUntil shown (p := fun states => states.anyPressed buttons) (fun _ => rfl) Play.patience)

/-- A dialog is closed when its button is pressed. -/
theorem showDialog (config : Config) (text : String) :
    Passes game ⟨.nothing, w⟩ ⟨.nothing, w⟩ (Play.showDialog config text) := by
  have opens : Passes game ⟨.nothing, w⟩ ⟨.talking, w⟩
      (Play.onHost fun host => host.openDialog text) := .act (fun _ => .openDialog text) fun _ => rfl
  have closes : Passes game ⟨.talking, w⟩ ⟨.nothing, w⟩ (Play.onHost fun host => host.closeDialog) :=
    .act (fun _ => .closeDialog) fun _ => rfl
  have waits : Passes game ⟨.talking, w⟩ ⟨.talking, w⟩
      (Play.advanceUntil (Play.pressed config.dialogButton) Play.patience) :=
    advanceUntil (by simp) (p := fun states => states.pressed.has config.dialogButton)
      (fun _ => rfl) _
  exact (note _).bind fun _ => opens.bind fun _ => (advance (by simp)).bind fun _ =>
    waits.bind fun _ => closes

/-! ### Single events -/

theorem setVariable (name : String) (value : Value) :
    Passes game ⟨.nothing, w⟩ ⟨.nothing, w⟩ (Play.setVariable name value) where
  comes s := by
    unfold Play.setVariable
    cases set : s.vars.set name value with
    | error e => exact .error .refl rfl
    | ok vars =>
      have declared : s.vars.has name = true := by
        cases has : s.vars.has name with
        | true => rfl
        | false => rw [Variables.set_eq_error_iff.mpr ⟨has, rfl⟩] at set; cases set
      have assigned : Act game (⟨.nothing, w⟩, s) (⟨.nothing, w⟩, _) :=
        .deed (.assign name value) trivial declared
      simp only [Deed.apply, set, Except.toOption, Option.getD_some] at assigned
      exact .ok () (.single assigned)

theorem setActorVisible (name : String) (visible : Bool) :
    Passes game m m (Play.setActorVisible name visible) where
  comes s := by
    rw [Tracks.setActorVisible_eq]
    cases s.stage.actors.findIdx? (·.answersTo name) with
    | none => exact (note _).comes s
    | some index =>
      have shown : Act game (m, s) (m, _) := .deed (.showActor index visible) trivial trivial
      exact ((note _).comes _).after (.single shown)

/-- Music is started if none is playing, with the entry of its event in the journal. -/
theorem startMusic (name : String) (volume : Int) (loops inFrame : Bool) (depth : Nat) :
    Passes game ⟨.nothing, w⟩ ⟨.nothing, w⟩ (do
      Play.recordEvent (.playMusic name volume loops) inFrame depth
      Play.startMusic name volume loops) where
  comes s := by
    change Comes game _ _
      (Play.startMusic name volume loops (s.recorded (.playMusic name volume loops) inFrame depth))
    have same : (s.recorded (.playMusic name volume loops) inFrame depth).host.music =
        s.host.music := rfl
    rw [Play.startMusic, get_bind_apply, same]
    cases playing : s.host.music with
    | none =>
      have notes : Passes game ⟨.nothing, w⟩ ⟨.nothing, w⟩
          (Play.note (.musicStarted name volume loops)) := note _
      have starts := notes.comes
        ((Deed.present (.playMusic ⟨name, Play.hundredth volume, loops⟩)).apply
          (s.recorded (.playMusic name volume loops) inFrame depth))
      exact starts.after (.single (.playMusic playing name volume loops inFrame depth))
    | some music =>
      exact .ok () (.single (.keepMusic (by simp [playing]) name volume loops inFrame depth))

/-- The music fades out and stops, with the entry of its event in the journal. -/
theorem stopMusic (config : Config) (inFrame : Bool) (depth : Nat) :
    Passes game ⟨.nothing, w⟩ ⟨.nothing, w⟩ (do
      Play.recordEvent .stopMusic inFrame depth
      Play.stopMusic config) := by
  have records : Passes game ⟨.nothing, w⟩ ⟨.hushing, w⟩
      (Play.recordEvent .stopMusic inFrame depth) := .act (fun _ => .hush inFrame depth) fun _ => rfl
  have softens (volume : Float32) : Passes game ⟨.hushing, w⟩ ⟨.hushing, w⟩
      (Play.onHost fun host => host.setMusicVolume volume) :=
    .act (fun _ => .soften volume) fun _ => rfl
  have stops : Passes game ⟨.hushing, w⟩ ⟨.nothing, w⟩ (Play.onHost fun host => host.stopMusic) :=
    .act (fun _ => .stopMusic) fun _ => rfl
  refine records.bind fun _ => ⟨fun s => ?_⟩
  rw [Play.stopMusic, get_bind_apply]
  cases playing : s.host.music with
  | none =>
    -- To stop what does not play changes nothing, but it is what brings the hush to its end.
    have stopped : (Deed.present .stopMusic).apply s = s := by
      rcases s with ⟨⟨⟩, _⟩
      cases playing
      rfl
    have act : Act game (⟨.hushing, w⟩, s) (⟨.nothing, w⟩, _) := .stopMusic
    rw [stopped] at act
    exact .ok () (.single act)
  | some music =>
    have fades : Passes game ⟨.hushing, w⟩ ⟨.hushing, w⟩
        (Overworld.forSteps (fun step => do
          Play.onHost fun host => host.setMusicVolume
            (s.host.musicVolume * (1 - Float32.ofNat step / Float32.ofNat config.musicFadeSteps))
          Play.advance) 1 config.musicFadeSteps) :=
      .forSteps fun _ _ _ => (softens _).bind fun _ => advance (by simp)
    exact (fades.bind fun _ => stops.bind fun _ => note _).comes s

/-! ### Movements of the camera -/

theorem runHost {x : HostRun Unit} {α β : Type} {m' m'' : Mode} {f : Unit → HostRun α}
    {g : α → Play β} (first : Passes game m m' (Play.runHost x))
    (next : Passes game m' m'' (Play.runHost (f ()) >>= g)) :
    Passes game m m'' (Play.runHost (x >>= f) >>= g) := by
  rw [Tracks.runHost_bind, bind_assoc]
  exact first.bind fun _ => next

theorem point {start goal p : Pixel} (on : start.Within goal p) :
    Passes game ⟨.panning start goal, w⟩ ⟨.panning start goal, w⟩
      (Play.runHost (HostRun.setCamera p)) :=
  .act (fun _ => .pan on) fun _ => rfl

/-- A movement that shows a position on the way in each of its frames. -/
theorem pan {start goal : Pixel} {position : Nat → Pixel} {first count : Nat}
    (on : ∀ step, first ≤ step → step < first + count → start.Within goal (position step)) :
    Passes game ⟨.panning start goal, w⟩ ⟨.panning start goal, w⟩
      (Play.runHost (Overworld.forSteps (fun step => do
        HostRun.setCamera (position step)
        HostRun.advance) first count)) := by
  induction count generalizing first with
  | zero => exact .pure ()
  | succ count ih =>
    have here := on first (Nat.le_refl _) (by omega)
    have rest := ih fun step (least : first + 1 ≤ step) less => on step (by omega) (by omega)
    have shows : Passes game ⟨.panning start goal, w⟩ ⟨.panning start goal, w⟩ Play.advance :=
      advance (by simp)
    rw [Overworld.forSteps, Tracks.runHost_bind, Tracks.runHost_bind]
    exact ((point here).bind fun _ => shows).bind fun _ => rest

theorem alongAxis {start goal : Pixel} {frames : Nat} {delta : Int}
    {position : Nat → Nat → Pixel}
    (on : ∀ step frames, 1 ≤ step → step ≤ frames → start.Within goal (position step frames)) :
    Passes game ⟨.panning start goal, w⟩ ⟨.panning start goal, w⟩
      (Play.runHost (CameraMove.alongAxis frames delta position)) := by
  unfold CameraMove.alongAxis
  split
  · exact .pure ()
  · split
    · exact point (on 1 1 (Nat.le_refl _) (Nat.le_refl _))
    · exact pan fun step least less => on step frames least (by omega)

end Passes

end Play

/-- A later step of a movement lies between an earlier one and the end. -/
theorem between_nearer (start goal : Int) {earlier later frames : Nat} (order : earlier ≤ later)
    (last : later ≤ frames) (some : 0 < frames) :
    min (between start (goal - start) earlier frames) goal ≤
        between start (goal - start) later frames ∧
      between start (goal - start) later frames ≤
        max (between start (goal - start) earlier frames) goal := by
  have positive : (0 : Int) < frames := by omega
  have whole : ((goal - start) * frames).tdiv frames = goal - start := Int.mul_tdiv_cancel _ (by omega)
  unfold between
  rcases Int.le_total start goal with forward | backward
  · have ahead : 0 ≤ goal - start := by omega
    have least : (goal - start) * earlier ≤ (goal - start) * later :=
      Int.mul_le_mul_of_nonneg_left (by omega) ahead
    have most : (goal - start) * later ≤ (goal - start) * frames :=
      Int.mul_le_mul_of_nonneg_left (by omega) ahead
    have lower := Int.tdiv_le_tdiv positive least
    have upper := Int.tdiv_le_tdiv positive most
    omega
  · have behind : goal - start ≤ 0 := by omega
    have most : (goal - start) * later ≤ (goal - start) * earlier :=
      Int.mul_le_mul_of_nonpos_left behind (by omega)
    have least : (goal - start) * frames ≤ (goal - start) * later :=
      Int.mul_le_mul_of_nonpos_left behind (by omega)
    have lower := Int.tdiv_le_tdiv positive least
    have upper := Int.tdiv_le_tdiv positive most
    omega

/-- No step of a movement goes beyond its end. -/
theorem between_bounds (start goal : Int) {step frames : Nat} (first : 1 ≤ step)
    (last : step ≤ frames) :
    min start goal ≤ between start (goal - start) step frames ∧
      between start (goal - start) step frames ≤ max start goal := by
  have begins : between start (goal - start) 0 frames = start := by simp [between]
  have nearer := between_nearer start goal (Nat.zero_le step) last (by omega)
  rwa [begins] at nearer

namespace Play

namespace Passes

/-- A movement of the camera ends at its goal, within the bounds of the map. -/
theorem cameraMove (game : Game) (map : TileMap) (s : Session) (move : CameraMove) :
    let bounds := ScrollBounds.ofMap map game.config
    Passes game ⟨.panning s.stage.camera (bounds.clamp move.target), w⟩ ⟨.nothing, w⟩
      (do
        let camera ← Play.runHost (move.run s.stage.camera bounds)
        Play.onStage fun stage => { stage with camera := camera }) := by
  intro bounds
  generalize s.stage.camera = start
  have stops (goal : Pixel) : Passes game ⟨.panning start goal, w⟩ ⟨.nothing, w⟩
      (Play.runHost (HostRun.setCamera goal >>= fun _ => Pure.pure goal) >>= fun camera =>
        Play.onStage fun stage => { stage with camera := camera }) :=
    .act (fun _ => .stop) fun _ => rfl
  unfold CameraMove.run
  dsimp only
  generalize bounds.clamp move.target = goal
  have across {step frames : Nat} (first : 1 ≤ step) (last : step ≤ frames) :=
    between_bounds start.x goal.x first last
  have down {step frames : Nat} (first : 1 ≤ step) (last : step ≤ frames) :=
    between_bounds start.y goal.y first last
  have atStart (a b : Int) : min a b ≤ a ∧ a ≤ max a b := by omega
  have atGoal (a b : Int) : min a b ≤ b ∧ b ≤ max a b := by omega
  split
  · exact stops goal
  · split
    · refine .runHost (pan fun step first less => ?_) (stops goal)
      exact ⟨across first (by omega), down first (by omega)⟩
    · split
      · -- Along the first axis the other coordinate is that of the start, then that of the goal.
        refine .runHost (alongAxis fun step frames first last => ?_)
          (.runHost (alongAxis fun step frames first last => ?_) (stops goal))
        · exact ⟨across first last, atStart _ _⟩
        · exact ⟨atGoal _ _, down first last⟩
      · refine .runHost (alongAxis fun step frames first last => ?_)
          (.runHost (alongAxis fun step frames first last => ?_) (stops goal))
        · exact ⟨atStart _ _, down first last⟩
        · exact ⟨across first last, atGoal _ _⟩

/-- The camera sets out once it is known where to. -/
theorem moveCamera (x y duration : Expression) (diagonal : Bool) (first : Axis) :
    Passes game ⟨.nothing, w⟩ ⟨.nothing, w⟩
      (Play.moveCamera game.config x y duration diagonal first) := by
  unfold Play.moveCamera
  refine PassesFrom.passes (.reads fun s => ?_)
  split
  · exact (note _).from
  · rename_i map onMap
    refine (tileAt x y).from.bind fun tile => (intOf duration).from.bind fun frames => ⟨?_⟩
    rintro u ⟨t, ⟨s, ⟨rfl, -⟩, looked⟩, looked'⟩
    have tiles := (Reads.tileAt x y).silent _ _ _ looked
    have lasts := (Reads.intOf duration).silent _ _ _ looked'
    have same : u.stage = s.stage := lasts.1.trans tiles.1
    let target := (ScrollBounds.ofMap map game.config).towardsTile map tile
    have sets : Act game (⟨.nothing, w⟩, u) (⟨.panning u.stage.camera _, w⟩, u) :=
      .setOut (same ▸ onMap) target
    have moves := (cameraMove (w := w) game map u
      ⟨target, game.config.framesWithin frames, diagonal, first⟩).comes u
    rw [same] at moves sets
    exact moves.after (.single sets)

/-! ### Events and lists -/

theorem alone {m' : Mode} {x : Play Unit} (h : Passes game m m' x) :
    Passes game m m' (Play.alone x) :=
  h.bind fun _ => .pure none

/-- The entry of an event in the journal and what the event does, taken together. -/
theorem together {m' m'' : Mode} {record x : Play Unit} {next : Option (Handle × Bool) → Play Unit}
    (h : Passes game m m' (do record; x)) (rest : Passes game m' m'' (next none)) :
    Passes game m m'' (record >>= fun _ => Play.alone x >>= next) := by
  have is : (record >>= fun _ => Play.alone x >>= next) =
      (do record; x : Play Unit) >>= fun _ => next none := by
    simp only [Play.alone, bind_assoc, pure_bind]
  rw [is]
  exact h.bind fun _ => rest

/-- An event is written down, unless the music obeys it or it asks for a scene. -/
theorem recordEvent (inFrame : Bool) (depth : Nat) {event : Event} (mute : ¬event.Musical)
    (other : ∀ target start, event ≠ .goToScene target start) :
    Passes game m m (Play.recordEvent event inFrame depth) :=
  .deed (fun _ => .record event inFrame depth) (fun _ => mute) (fun _ => other) fun _ => rfl

/-- What an event does itself leaves the mode as it was; music is started and stopped together with
the entry of its event in the journal, and a scene asked for, too. -/
theorem enact (inFrame : Bool) {event : Event} (mute : ¬event.Musical)
    (other : ∀ target start, event ≠ .goToScene target start) :
    Passes game ⟨.nothing, w⟩ ⟨.nothing, w⟩ (Play.enact game inFrame event) := by
  unfold Play.enact
  cases event with
  | wait duration => exact .alone ((intOf duration).bind fun _ => wait (by simp) ..)
  | fadeIn duration => exact .alone ((intOf duration).bind fun _ => fadeIn _)
  | fadeOut duration => exact .alone ((intOf duration).bind fun _ => fadeOut _)
  | goToScene target start => exact absurd rfl (other target start)
  | waitForButton buttons => exact .alone (waitForButton (by simp) buttons)
  | onButtonPress buttons body =>
    refine .ite (.bind ?_ fun _ => .ite (.pure _) (.pure _)) (.alone ?_)
    · exact reads fun _ => .pure _
    · exact .deed (fun _ => .register (.onButtonPress buttons body)) (fun _ => trivial)
        (fun _ => trivial) fun _ => rfl
  | showDialog text => exact .alone (showDialog ..)
  | setVariable name value => exact .alone (setVariable name value)
  | branch conditions yes no => exact (allHold conditions).bind fun _ => .ite (.pure _) (.pure _)
  | disableActor actor => exact .alone (setActorVisible actor false)
  | enableActor actor => exact .alone (setActorVisible actor true)
  | playMusic name volume loops => exact absurd trivial mute
  | stopMusic => exact absurd trivial mute
  | playSound name volume speed panning priority =>
    exact .alone (.deed (fun _ => .present (.playSound _)) (fun _ => trivial) (fun _ => trivial)
      fun _ => rfl)
  | runScript name => exact .pure _
  | moveCamera x y duration diagonal first => exact .alone (moveCamera x y duration diagonal first)
  | disabled kind => exact .pure none
  | unknown => exact .alone (note _)

/-- **An event brings to an end what it starts.** -/
theorem runEvent (room : Nat) (inFrame : Bool) (event : Event) :
    Passes game ⟨.nothing, w⟩ ⟨.nothing, w⟩ (Play.runEvent game room inFrame event) := by
  induction room generalizing inFrame event with
  | zero => exact .throw rfl
  | succ room ih =>
    unfold Play.runEvent
    cases event with
    | goToScene target start =>
      exact .deed (fun _ => .request ⟨target, start⟩ inFrame (game.config.maxDepth - room))
        (fun _ => trivial) (fun _ => trivial) fun _ => rfl
    | playMusic name volume loops => exact .together (startMusic name volume loops ..) (.pure ())
    | stopMusic => exact .together (stopMusic game.config ..) (.pure ())
    | _ =>
      refine (recordEvent inFrame _ id (by simp)).bind fun _ =>
        (enact inFrame id (by simp)).bind fun next => ?_
      cases next with
      | none => exact .pure ()
      | some list => exact .forM fun event _ => ih list.2 event

theorem runEvents (room : Nat) (inFrame : Bool) (events : List Event) :
    Passes game ⟨.nothing, w⟩ ⟨.nothing, w⟩ (Play.runEvents game room inFrame events) :=
  .forM fun event _ => runEvent room inFrame event

theorem runList (list : Handle) (inFrame : Bool) :
    Passes game ⟨.nothing, w⟩ ⟨.nothing, w⟩ (Play.runList game list inFrame) :=
  runEvents _ inFrame _

end Passes

end Play

end Overworld
