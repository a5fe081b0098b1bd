import Overworld.Proofs.Appearance
import Overworld.Proofs.Drapes
import Overworld.Proofs.Framing
import Overworld.Proofs.Patience

/-!
The background is visible by fades alone.

A fade-in shows the background at once, and a fade-out hides it when its frames are over. What was
run since the scene was entered tells both (`Dispatch.FadesIn`, `Dispatch.FadedOut`), and nothing
else that happens before the scene is left changes the background. So in a scene in which nothing was
faded in the background stays hidden, however many frames are played.
-/

namespace Overworld

open Simulation

/-! ### What fades have done -/

/-- A fade-in. -/
def Dispatch.FadesIn (d : Dispatch) : Prop := ∃ duration, d.event = .fadeIn duration

/-- A fade-out whose frames are over. -/
def Dispatch.FadedOut (config : Config) (frame : Nat) (d : Dispatch) : Prop :=
  ∃ duration, d.event = .fadeOut duration ∧
    d.frame + config.framesWithin (duration.int d.vars) ≤ frame

/-- Some fade-out is over, and nothing was faded in since it was run. -/
def FadedAway (config : Config) (frame : Nat) (events : List Dispatch) : Prop :=
  ∃ later d earlier, events = later ++ d :: earlier ∧ d.FadedOut config frame ∧
    ∀ e ∈ later, ¬e.FadesIn

/-- Something was faded in, and it has not faded away since. -/
def Unveiled (config : Config) (frame : Nat) (events : List Dispatch) : Prop :=
  (∃ d ∈ events, d.FadesIn) ∧ ¬FadedAway config frame events

section

variable {config : Config} {frame : Nat} {d : Dispatch} {events : List Dispatch}

theorem Dispatch.FadesIn.not_fadedOut (h : d.FadesIn) : ¬d.FadedOut config frame := by
  obtain ⟨duration, is⟩ := h
  rintro ⟨other, differs, -⟩
  cases is.symm.trans differs

theorem Dispatch.FadedOut.later {later : Nat} (h : d.FadedOut config frame) (le : frame ≤ later) :
    d.FadedOut config later := by
  obtain ⟨duration, is, ended⟩ := h
  exact ⟨duration, is, Nat.le_trans ended le⟩

theorem fadedAway_cons_iff :
    FadedAway config frame (d :: events) ↔
      d.FadedOut config frame ∨ ¬d.FadesIn ∧ FadedAway config frame events := by
  constructor
  · rintro ⟨later, e, earlier, is, ended, since⟩
    cases later with
    | nil =>
      cases is
      exact .inl ended
    | cons first later =>
      cases is
      exact .inr ⟨since _ List.mem_cons_self, later, e, earlier, rfl, ended, fun x mem =>
        since x (List.mem_cons_of_mem _ mem)⟩
  · rintro (ended | ⟨other, later, e, earlier, rfl, ended, since⟩)
    · exact ⟨[], d, events, rfl, ended, List.forall_mem_nil _⟩
    · exact ⟨d :: later, e, earlier, rfl, ended, List.forall_mem_cons.mpr ⟨other, since⟩⟩

/-- A fade-in unveils the scene at once. -/
theorem unveiled_cons (fadesIn : d.FadesIn) : Unveiled config frame (d :: events) := by
  refine ⟨⟨d, List.mem_cons_self, fadesIn⟩, fun away => ?_⟩
  rcases fadedAway_cons_iff.mp away with ended | ⟨other, -⟩
  · exact fadesIn.not_fadedOut ended
  · exact other fadesIn

/-- A fade-out veils it when it is over. -/
theorem not_unveiled_cons (ended : d.FadedOut config frame) : ¬Unveiled config frame (d :: events) :=
  fun unveiled => unveiled.2 (fadedAway_cons_iff.mpr (.inl ended))

/-- No other event does anything to it. -/
theorem unveiled_cons_iff (other : ¬d.FadesIn) (still : ¬d.FadedOut config frame) :
    Unveiled config frame (d :: events) ↔ Unveiled config frame events := by
  have some : (∃ e ∈ d :: events, e.FadesIn) ↔ ∃ e ∈ events, e.FadesIn := by
    simp [other]
  have away : FadedAway config frame (d :: events) ↔ FadedAway config frame events := by
    rw [fadedAway_cons_iff]
    simp [other, still]
  rw [Unveiled, Unveiled, some, away]

/-- Where no fade-out is under way, frames that pass change nothing. -/
theorem unveiled_congr {later : Nat} (same : ∀ d ∈ events,
    d.FadedOut config later ↔ d.FadedOut config frame) :
    Unveiled config later events ↔ Unveiled config frame events := by
  have away : FadedAway config later events ↔ FadedAway config frame events := by
    constructor
    · rintro ⟨recent, d, earlier, rfl, ended, since⟩
      exact ⟨recent, d, earlier, rfl, (same d (by simp)).mp ended, since⟩
    · rintro ⟨recent, d, earlier, rfl, ended, since⟩
      exact ⟨recent, d, earlier, rfl, (same d (by simp)).mpr ended, since⟩
  rw [Unveiled, Unveiled, away]

end

/-! ### Drapes that follow from the fades -/

/-- A drape that shows the background of the scene, visible or not as the fades have left it. -/
structure Drape.Follows (config : Config) (drape : Drape) : Prop where
  name : drape.background.name = drape.scene.backgroundName
  visible : drape.background.visible = true ↔ Unveiled config drape.frame drape.events
  /-- No fade-out is under way, unless the host has stopped in the middle of it. -/
  ended (goes : drape.stop? = none) : ∀ d ∈ drape.events, ∀ duration, d.event = .fadeOut duration →
    d.FadedOut config drape.frame

/-- A drape that followed from the fades before the last event, a fade that is under way. -/
def Drape.Fading (config : Config) (d : Dispatch) (drape : Drape) : Prop :=
  ∃ events, drape.events = d :: events ∧ ({ drape with events := events } : Drape).Follows config

namespace Drape

variable {config : Config} {d : Dispatch}

theorem follows_hidden (scene : Scene) (frame : Nat) (stop? : Option HostStop) :
    Follows config ⟨.hidden scene.backgroundName, scene, [], frame, stop?⟩ where
  name := rfl
  visible := by simp [Background.hidden, Unveiled]
  ended _ := List.forall_mem_nil _

theorem Follows.afterFrame {drape : Drape} (follows : drape.Follows config)
    (goes : drape.stop? = none) (stop? : Option HostStop) :
    ({ drape with frame := drape.frame + 1, stop? := stop? } : Drape).Follows config := by
  have ended := follows.ended goes
  refine ⟨follows.name, follows.visible.trans (unveiled_congr fun d mem => ?_).symm, ?_⟩
  · constructor
    · rintro ⟨duration, is, -⟩
      exact ended d mem duration is
    · exact fun h => h.later (Nat.le_succ _)
  · exact fun _ d mem duration is => (ended d mem duration is).later (Nat.le_succ _)

/-- Taking part in a fade changes nothing of it. -/
theorem Follows.blended {drape : Drape} (follows : drape.Follows config) (blending : Bool) :
    ({ drape with background := { drape.background with blending := blending } } : Drape).Follows
      config := ⟨follows.name, follows.visible, follows.ended⟩

theorem Fading.blended {drape : Drape} (fading : drape.Fading config d) (blending : Bool) :
    ({ drape with background := { drape.background with blending := blending } } : Drape).Fading
      config d := by
  obtain ⟨events, is, follows⟩ := fading
  exact ⟨events, is, follows.blended blending⟩

theorem lasts_follows : Lasts (Follows config) := fun _ goes follows => follows.afterFrame goes _

theorem lasts_fading : Lasts (Fading config d) := by
  rintro s goes ⟨events, is, follows⟩
  exact ⟨events, is, follows.afterFrame goes _⟩

/-- An event that is no fade is run. -/
theorem Follows.recorded {s : Session} (follows : s.Draped (Follows config)) {event : Event}
    (other : event.fades = false) (inFrame : Bool) (depth : Nat) :
    (s.recorded event inFrame depth).Draped (Follows config) := by
  have noFade (duration : Expression) : event ≠ .fadeIn duration ∧ event ≠ .fadeOut duration := by
    constructor <;> rintro rfl <;> exact nomatch other
  refine ⟨follows.name, follows.visible.trans (unveiled_cons_iff ?_ ?_).symm, fun goes => ?_⟩
  · rintro ⟨duration, is⟩
    exact (noFade duration).1 is
  · rintro ⟨duration, is, -⟩
    exact (noFade duration).2 is
  · refine List.forall_mem_cons.mpr ⟨fun duration is => absurd is (noFade duration).2, ?_⟩
    exact follows.ended goes

/-- A fade is run. -/
theorem Follows.fading {s : Session} (follows : s.Draped (Follows config)) (event : Event)
    (inFrame : Bool) (depth : Nat) :
    (s.recorded event inFrame depth).Draped
      (Fading config ⟨event, inFrame, depth, s.host.frame, s.vars, s.stage⟩) :=
  ⟨s.current, rfl, follows⟩

/-- A fade-in shows the background. -/
theorem Fading.shown {drape : Drape} (fading : drape.Fading config d) (fadesIn : d.FadesIn) :
    ({ drape with background := { drape.background with visible := true } } : Drape).Follows
      config := by
  obtain ⟨events, is, follows⟩ := fading
  refine ⟨follows.name, ?_, fun goes => ?_⟩
  · change true = true ↔ Unveiled config drape.frame drape.events
    rw [is]
    exact iff_of_true rfl (unveiled_cons fadesIn)
  · change ∀ e ∈ drape.events, _
    rw [is]
    refine List.forall_mem_cons.mpr ⟨fun duration out => ?_, follows.ended goes⟩
    obtain ⟨other, into⟩ := fadesIn
    cases into.symm.trans out

/-- A fade-out that is over hides it. -/
theorem Fading.hidden {drape : Drape} (fading : drape.Fading config d)
    (ended : d.FadedOut config drape.frame) (blending : Bool) :
    ({ drape with background := ⟨drape.background.name, false, blending⟩ } : Drape).Follows
      config := by
  obtain ⟨events, is, follows⟩ := fading
  refine ⟨follows.name, ?_, fun goes => ?_⟩
  · change false = true ↔ Unveiled config drape.frame drape.events
    rw [is]
    exact iff_of_false Bool.false_ne_true (not_unveiled_cons ended)
  · change ∀ e ∈ drape.events, _
    rw [is]
    exact List.forall_mem_cons.mpr ⟨fun _ _ => ended, follows.ended goes⟩

/-- A fade-out in the middle of which the host has stopped has not hidden it. -/
theorem Fading.stopped {drape : Drape} (fading : drape.Fading config d) {duration : Expression}
    (fadesOut : d.event = .fadeOut duration) (under : ¬d.FadedOut config drape.frame)
    (stops : drape.stop? ≠ none) : drape.Follows config := by
  obtain ⟨events, is, follows⟩ := fading
  have other : ¬d.FadesIn := by
    rintro ⟨other, into⟩
    cases into.symm.trans fadesOut
  refine ⟨follows.name, ?_, fun goes => absurd goes stops⟩
  rw [is]
  exact follows.visible.trans (unveiled_cons_iff other under).symm

end Drape

/-! ### Fades -/

namespace Play

/-- Where frames are played one after the other, a halt comes before the last one, when the host has
stopped. -/
theorem stopped_of_forSteps {f : Nat → Play Unit}
    (single : ∀ step s e t, f step s = .error e t →
      t.host.stop? ≠ none ∧ t.host.frame = s.host.frame)
    (takes : ∀ step, (f step).Takes 1) {first count : Nat} {e : Halt} {s t : Session}
    (h : forSteps f first count s = .error e t) :
    t.host.stop? ≠ none ∧ t.host.frame < s.host.frame + count := by
  induction count generalizing first s with
  | zero => exact nomatch h
  | succ count ih =>
    change (f first >>= fun _ => forSteps f (first + 1) count) s = _ at h
    rw [bind_apply] at h
    cases played : f first s with
    | ok a u =>
      rw [played] at h
      obtain ⟨stops, lt⟩ := ih h
      have on := takes first s a u played
      exact ⟨stops, by omega⟩
    | error e u =>
      rw [played] at h
      cases h
      obtain ⟨stops, same⟩ := single first s e t played
      exact ⟨stops, by omega⟩

/-- The frames of a fade, if there are any, from the strength with which it begins on. -/
def fadeFrames (first : Float32) (strength : Float32 → Float32) (frames : Nat) : Play Unit := do
  if frames ≠ 0 then
    onHost fun host => host.setAlpha first
    changeBackground fun b => { b with blending := true }
    showBackground
    fade strength frames

/-- The background is shown before the frames of a fade-in. -/
theorem fadeIn_eq (frames : Nat) :
    fadeIn frames = (do
      setBlending true
      changeBackground fun b => { b with visible := true }
      fadeFrames 1 (fun t => 1 - t) frames
      onHost fun host => host.setAlpha 0
      changeBackground fun b => { b with blending := false }
      showBackground
      setBlending false) := by
  unfold fadeIn fadeFrames
  by_cases none : frames = 0
  · simp only [none, ne_eq, not_true_eq_false, if_false, pure_bind]
  · simp only [none, ne_eq, not_false_eq_true, if_true, bind_assoc]

/-- It is hidden after those of a fade-out. -/
theorem fadeOut_eq (frames : Nat) :
    fadeOut frames = (do
      setBlending true
      fadeFrames 0 (fun t => t) frames
      onHost fun host => host.setAlpha 1
      changeBackground fun b => { b with visible := false, blending := false }
      showBackground) := by
  unfold fadeOut fadeFrames
  by_cases none : frames = 0
  · simp only [none, ne_eq, not_true_eq_false, if_false, pure_bind]
  · simp only [none, ne_eq, not_false_eq_true, if_true, bind_assoc]

theorem Takes.fadeFrames (first : Float32) (strength : Float32 → Float32) (frames : Nat) :
    Takes (Play.fadeFrames first strength frames) frames := by
  have begins : Takes _ _ := (present (.alpha first)).bind fun _ =>
    (changeBackground fun b => { b with blending := true }).bind fun _ =>
      showBackground.bind fun _ => fade strength frames
  unfold Play.fadeFrames
  by_cases none : frames = 0
  · rw [if_neg (by simp [none])]
    exact (Takes.pure ()).of_eq none.symm
  · rw [if_pos none]
    exact begins.of_eq (by omega)

/-- A fade that halts does so before its frames are over, when the host has stopped. -/
theorem stopped_of_fadeFrames {first : Float32} {strength : Float32 → Float32} {frames : Nat}
    {e : Halt} {s t : Session} (h : fadeFrames first strength frames s = .error e t) :
    t.host.stop? ≠ none ∧ t.host.frame < s.host.frame + frames := by
  have single (step : Nat) (s : Session) (e : Halt) (t : Session)
      (failed : (do
        onHost fun host => host.setAlpha (strength (Float32.ofNat step / Float32.ofNat frames))
        advance : Play Unit) s = .error e t) :
      t.host.stop? ≠ none ∧ t.host.frame = s.host.frame := by
    change Play.advance _ = _ at failed
    rw [advance_eq] at failed
    split at failed
    · exact nomatch failed
    · rename_i stop stops
      cases failed
      exact ⟨by simp [stops], rfl⟩
  unfold fadeFrames at h
  split at h
  · change fade strength frames _ = _ at h
    have takes (step : Nat) : Takes (do
        onHost fun host => host.setAlpha (strength (Float32.ofNat step / Float32.ofNat frames))
        advance) 1 := (Takes.present (.alpha _)).bind fun _ => .advance
    exact (stopped_of_forSteps single takes h :)
  · exact nomatch h

end Play

namespace Session.Draped

open Play (Keeps)

variable {game : Game} {config : Config} {d : Dispatch}

/-- What lasts while the background takes part in a fade, or does so no more, is kept by the frames
of the fade. -/
theorem fadeFrames {P : Drape → Prop} (lasts : Drape.Lasts P)
    (blends : ∀ (drape : Drape) blending, P drape →
      P { drape with background := { drape.background with blending := blending } })
    (first : Float32) (strength : Float32 → Float32) (frames : Nat) :
    Keeps (Draped P) (Play.fadeFrames first strength frames) := by
  have alpha (strength : Float32) :
      Keeps (Draped P) (Play.onHost fun host => host.setAlpha strength) := ⟨id⟩
  have mixes : Keeps (Draped P) (Play.changeBackground fun b => { b with blending := true }) :=
    ⟨blends _ true⟩
  have shows : Keeps (Draped P) Play.showBackground := ⟨id⟩
  exact .ite ((alpha first).bind fun _ => mixes.bind fun _ => shows.bind fun _ =>
    forSteps (fun _ => (alpha _).bind fun _ => frame lasts) 1 frames) (.pure ())

/-- When a fade-in has begun, the background is visible. -/
theorem fadeIn (fadesIn : d.FadesIn) (frames : Nat) {s : Session}
    (fading : s.Draped (Drape.Fading config d)) :
    (Play.final (Play.fadeIn frames s)).Draped (Drape.Follows config) := by
  have alpha : Keeps (Draped (Drape.Follows config)) (Play.onHost fun host => host.setAlpha 0) := ⟨id⟩
  have mixes : Keeps (Draped (Drape.Follows config))
      (Play.changeBackground fun b => { b with blending := false }) :=
    ⟨fun follows => Drape.Follows.blended follows false⟩
  have shows : Keeps (Draped (Drape.Follows config)) Play.showBackground := ⟨id⟩
  let begun := (Deed.blend true).apply s
  have shown : ((Deed.background { begun.stage.background with visible := true }).apply begun).Draped
      (Drape.Follows config) := Drape.Fading.shown fading fadesIn
  rw [Play.fadeIn_eq, Play.bind_apply, Play.setBlending_eq]
  exact ((fadeFrames Drape.lasts_follows (fun _ b h => h.blended b) _ _ frames).bind fun _ =>
    alpha.bind fun _ => mixes.bind fun _ => shows.bind fun _ => setBlending false).final shown

/-- When a fade-out is over, the background is hidden; where the host stops in the middle of it, it
is not. -/
theorem fadeOut {duration : Expression} (fadesOut : d.event = .fadeOut duration) {frames : Nat}
    {s : Session} (is : d.frame + config.framesWithin (duration.int d.vars) = s.host.frame + frames)
    (fading : s.Draped (Drape.Fading config d)) :
    (Play.final (Play.fadeOut frames s)).Draped (Drape.Follows config) := by
  let begun := (Deed.blend true).apply s
  have blended : begun.Draped (Drape.Fading config d) := fading
  have kept := (fadeFrames Drape.lasts_fading (fun _ b h => h.blended b) 0 (fun t => t) frames).final
    blended
  rw [Play.fadeOut_eq, Play.bind_apply, Play.setBlending_eq]
  dsimp only
  rw [Play.bind_apply]
  cases faded : Play.fadeFrames 0 (fun t => t) frames begun with
  | ok a t =>
    have on := Play.Takes.fadeFrames 0 (fun t => t) frames begun a t faded
    have ended : d.FadedOut config t.host.frame :=
      ⟨duration, fadesOut, Nat.le_of_eq (is.trans on.symm)⟩
    rw [faded] at kept
    exact Drape.Fading.hidden kept ended false
  | error e t =>
    obtain ⟨stops, lt⟩ := Play.stopped_of_fadeFrames faded
    rw [faded] at kept
    refine Drape.Fading.stopped kept fadesOut ?_ stops
    rintro ⟨other, out, ended⟩
    cases fadesOut.symm.trans out
    change d.frame + _ ≤ t.host.frame at ended
    change t.host.frame < s.host.frame + frames at lt
    omega

/-- A fade is written down and looks at its duration before it does anything. -/
theorem timed {P : Drape → Prop} {event : Event} {duration : Expression} {fade : Nat → Play Unit}
    {inFrame : Bool} {depth : Nat} {s : Session}
    (goes : ∀ notices, (Play.final (fade (config.framesWithin (duration.int s.vars))
      { s.recorded event inFrame depth with notices := notices })).Draped P) :
    (Play.final ((do
      Play.recordEvent event inFrame depth
      fade (config.framesWithin (← Play.intOf duration)) : Play Unit) s)).Draped P := by
  obtain ⟨notices, reads⟩ := Play.Reads.intOf duration (s.recorded event inFrame depth)
  change (Play.final ((Play.intOf duration >>= fun n => fade (config.framesWithin n))
    (s.recorded event inFrame depth))).Draped P
  rw [Play.bind_apply, reads]
  exact goes notices

/-- Whatever happens in a scene, the drape follows from the fades. -/
theorem follows_kept : Drape.Kept game (Drape.Follows game.config) where
  lasts := Drape.lasts_follows
  records other inFrame depth _ hs := Drape.Follows.recorded hs other inFrame depth
  fadeIn duration inFrame depth := by
    refine ⟨fun {s} hs => timed fun notices => ?_⟩
    exact fadeIn ⟨duration, rfl⟩ _ (Drape.Follows.fading hs (.fadeIn duration) inFrame depth)
  fadeOut duration inFrame depth := by
    refine ⟨fun {s} hs => timed fun notices => ?_⟩
    exact fadeOut rfl rfl (Drape.Follows.fading hs (.fadeOut duration) inFrame depth)

end Session.Draped

/-! ### Until the scene is left -/

/-- A session in a scene: one was entered, and whatever was asked since then did not leave it. -/
inductive Session.Indoors (game : Game) : Session → Prop
  | enter (s : Session) (name : String) : Indoors game (Play.final (Play.enterScene game name s))
  /-- A run ends in the last scene that it enters. -/
  | run {s u : Session} (last : LastVisit game s u) : Indoors game (Play.final (Play.run game s))
  /-- A scene that is played is left if it comes to its end. -/
  | stay {s : Session} {call : Call} (indoors : Indoors game s) (stays : call.Stays)
    (on : call = .scene → ∀ t, call.perform game s ≠ .ok () t) :
    Indoors game (Play.final (call.perform game s))

namespace Session.Draped

variable {game : Game} {P : Drape → Prop} {e : Halt} {s t : Session}

/-- A scene that is not played to its end is not left. -/
theorem playScene (kept : Drape.Kept game P) (hs : s.Draped P)
    (h : Play.playScene game s = .error e t) : t.Draped P := by
  have frames := (framesUntilRequest kept Play.patience).final hs
  rw [Play.playScene, Play.bind_apply] at h
  cases played : Play.framesUntilRequest game Play.patience s with
  | ok request u =>
    rw [played] at h
    cases h
  | error e u =>
    rw [played] at h frames
    cases h
    exact frames

/-- Nor is one in which a visit is broken off. -/
theorem visit {name : String} (h : Play.visit game name s = .error e t) :
    t.Draped (Drape.Follows game.config) := by
  have entered := enterScene (s := s) follows_kept
    (Drape.follows_hidden (game.graph.scene name) s.host.frame s.host.stop?)
  rw [Play.visit, Play.bind_apply] at h
  cases enters : Play.enterScene game name s with
  | ok a u =>
    rw [enters] at h entered
    exact playScene follows_kept entered h
  | error e u =>
    rw [enters] at h entered
    cases h
    exact entered

theorem call (kept : Drape.Kept game P) {call : Call} (hs : s.Draped P) (stays : call.Stays)
    (on : call = .scene → ∀ t, call.perform game s ≠ .ok () t) :
    (Play.final (call.perform game s)).Draped P := by
  cases call with
  | enter name => exact stays.elim
  | run => exact stays.elim
  | frame => exact (playFrame kept).final hs
  | list events inFrame => exact (runList kept events inFrame).final hs
  | scene =>
    cases played : Play.playScene game s with
    | ok request t =>
      have performed : Call.scene.perform game s = .ok () t := by
        rw [Call.perform, Play.bind_apply, played]
        rfl
      exact absurd performed (on rfl t)
    | error e t =>
      rw [Call.perform, Play.bind_apply, played]
      exact playScene kept hs played

end Session.Draped

namespace Session.Indoors

variable {game : Game} {s t : Session}

theorem draped (h : Indoors game s) : s.Draped (Drape.Follows game.config) := by
  induction h with
  | enter s name => exact Draped.enterScene Draped.follows_kept (Drape.follows_hidden ..)
  | @run s u last =>
    obtain ⟨name, -, result⟩ := last
    cases ran : Play.run game s with
    | ok summary t =>
      rw [ran] at result
      obtain ⟨v, visited, rfl⟩ := result
      have left : v.Draped (Drape.Follows game.config) := Draped.visit visited
      exact left
    | error e t =>
      rw [ran] at result
      exact Draped.visit result
  | stay indoors stays on ih => exact Draped.call Draped.follows_kept ih stays on

/-- The host shows the background of the stage. -/
theorem shows (h : Indoors game s) : s.host.background = some s.stage.background := by
  have upheld : Upheld game fun _ s => s.Clad ∧ s.Entered :=
    { act := fun act ⟨clad, entered⟩ =>
        ⟨(upheld_clad game).act act clad, (upheld_entered game).act act entered⟩
      resume := fun _ => id }
  have opens (s : Session) (name : String) :
      (s.opened game name).Clad ∧ (s.opened game name).Entered := ⟨fun _ => rfl, name, rfl⟩
  have both : s.Clad ∧ s.Entered := by
    induction h with
    | enter s name => exact upheld.final (Play.comes_of_enterScene game name s) (opens s name)
    | run last => exact upheld.lastVisit (opens _) last
    | stay indoors stays on ih => exact upheld.final (Call.comes game _ stays _) ih
  exact both.1 both.2

theorem after_enter (s : Session) (calls : List Call) (name : String) :
    (s.after game (calls ++ [.enter name])).Indoors game := by
  rw [Session.after_append]
  exact .enter _ name

theorem after {calls : List Call} (h : (s.after game calls).Indoors game) (call : Call)
    (stays : call.Stays) (on : call ≠ .scene) : (s.after game (calls ++ [call])).Indoors game := by
  rw [Session.after_append]
  exact h.stay stays fun is => absurd is on

/-- In every frame that is played in a scene it is not left. -/
theorem frames (h : Indoors game s) (frames : Relation.ReflTransGen (NextFrame game) s t) :
    Indoors game t := by
  induction frames with
  | refl => exact h
  | @tail u v _ next ih =>
    have stays : Indoors game (Play.final (Call.frame.perform game u)) := ih.stay trivial nofun
    rw [Call.perform, next.2] at stays
    exact stays

end Session.Indoors

/-! ### The law of veils -/

/-- How the background of a scene is shown as long as the scene is not left. -/
structure Session.ShowsByFades (game : Game) (s : Session) : Prop where
  /-- The host shows the background of the scene, visible exactly if something was faded in since
  the scene was entered, and no fade-out that is over came after it. -/
  background : ∃ b, s.host.background = some b ∧ b.name = s.stage.scene.backgroundName ∧
    (b.visible = true ↔ Unveiled game.config s.host.frame s.current)
  /-- Frames do not leave the scene, so this holds after any number of them. -/
  frames {t : Session} (frames : Relation.ReflTransGen (NextFrame game) s t) : t.Indoors game

/-- **The background is visible by fades alone.** From the entry to a scene on, whatever is asked and
however it ends, the host shows the background of the scene until that is left, visible if something
was faded in and has not faded away since, and hidden else. -/
theorem showsByFades_of_indoors {game : Game} {s : Session} (indoors : s.Indoors game) :
    s.ShowsByFades game where
  background := ⟨_, indoors.shows, indoors.draped.name, indoors.draped.visible⟩
  frames := indoors.frames

/-- A theatre whose curtain rises when it is entered, with a list that lets it fall. -/
def Game.theatre : Game where
  graph :=
    { SceneGraph.empty with
      lists := [[], [.fadeIn (.ofInt 32)], [.fadeOut (.ofInt 32)]]
      scenes := [{ Scene.called "theatre" with background := some "scenery", events := ⟨1⟩ }] }
  config := .standard

/-- In the theatre the scenery is seen in the frame of the entry, until the curtain has fallen; a host
that stops while it falls still shows it. -/
theorem showsByFades_of_indoors_theatre :
    ∃ s t, Game.theatre.session (.fresh .empty (some 9) false) = .ok s ∧
      Game.theatre.session (.fresh .empty (some 4) false) = .ok t ∧
      ((s.after Game.theatre [.enter "theatre", .frame]).Indoors Game.theatre ∧
        (s.after Game.theatre [.enter "theatre", .frame]).ShowsByFades Game.theatre ∧
        (s.after Game.theatre [.enter "theatre", .frame]).host.background =
          some ⟨"scenery", true, false⟩) ∧
      ((s.after Game.theatre [.enter "theatre", .frame, .list ⟨2⟩ true]).ShowsByFades Game.theatre ∧
        (s.after Game.theatre [.enter "theatre", .frame, .list ⟨2⟩ true]).host.background =
          some ⟨"scenery", false, false⟩) ∧
      (t.after Game.theatre [.enter "theatre", .frame, .list ⟨2⟩ true]).ShowsByFades Game.theatre ∧
        (t.after Game.theatre [.enter "theatre", .frame, .list ⟨2⟩ true]).host.background =
          some ⟨"scenery", true, true⟩ := by
  have entered (u : Session) : (u.after Game.theatre [.enter "theatre"]).Indoors Game.theatre :=
    .after_enter u [] "theatre"
  have played (u : Session) : (u.after Game.theatre [.enter "theatre", .frame]).Indoors Game.theatre :=
    (entered u).after .frame trivial nofun
  have fallen (u : Session) :
      (u.after Game.theatre [.enter "theatre", .frame, .list ⟨2⟩ true]).Indoors Game.theatre :=
    (played u).after (.list ⟨2⟩ true) trivial nofun
  exact ⟨_, _, rfl, rfl,
    ⟨played _, showsByFades_of_indoors (played _), by decide +kernel⟩,
    ⟨showsByFades_of_indoors (fallen _), by decide +kernel⟩,
    showsByFades_of_indoors (fallen _), by decide +kernel⟩

/-- A frame alone does not show the background: that of a scene in which nothing fades in stays hidden,
although none of it faded out. -/
theorem not_always_shown :
    ¬∀ (game : Game) (input : InputScript) (budget : Option Nat) (stops : Bool) (s u t v : Session)
        (name : String),
      game.graph.check = .ok () → game.session (.fresh input budget stops) = .ok s →
      Relation.ReflTransGen (NextVisit game) (game.graph.start, s) (name, u) →
      Play.enterScene game name u = .ok () t → Relation.TransGen (NextFrame game) t v →
      ¬FadedAway game.config v.host.frame v.current →
      ∃ b, v.host.background = some b ∧ b.visible = true := by
  intro always
  let s := Session.sample .empty 9
  let t := Play.final (Play.enterScene Game.sample "yard" s)
  let v := Play.final (Play.playFrame Game.sample t)
  have entered : Play.enterScene Game.sample "yard" s = .ok () t := rfl
  have played : NextFrame Game.sample t v := ⟨rfl, rfl⟩
  have unfaded : ¬FadedAway Game.sample.config v.host.frame v.current := by
    rintro ⟨later, d, earlier, is, -⟩
    have none : v.current = [] := by decide +kernel
    rw [none] at is
    exact List.append_ne_nil_of_right_ne_nil later (List.cons_ne_nil d earlier) is.symm
  obtain ⟨b, is, visible⟩ := always Game.sample .empty (some 9) false s s t v "yard" rfl rfl .refl
    entered (.single played) unfaded
  have hidden : v.host.background = some (.hidden "bg_default") := by decide +kernel
  cases hidden.symm.trans is
  exact nomatch visible

end Overworld
