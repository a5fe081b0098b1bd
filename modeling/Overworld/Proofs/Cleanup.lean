import Overworld.Proofs.Acts.Scenes

/-!
What is begun is brought to an end.

Dialogs, movements of the camera, fades and the fading out of the music take many frames, and each
leaves the host or the stage in between as it shall not stay. Only the host can stop one of them in
the middle, so after calls that it does not stop nothing of the kind is left behind (`Tidy`), and the
music is the one that the events of the journal have started (`Entry.music`).
-/

namespace Overworld

open Simulation

/-! ### The music of a journal -/

/-- The music that plays after an event is run. -/
def Event.tune (playing : Option Music) : Event → Option Music
  | .playMusic name volume loops => playing.or (some ⟨name, Play.hundredth volume, loops⟩)
  | .stopMusic => none
  | _ => playing

/-- The music that the events of a journal have started and not stopped. -/
def Entry.music : List Entry → Option Music
  | .event d :: journal => d.event.tune (music journal)
  | .scene _ :: journal => music journal
  | [] => none

theorem Event.tune_of_mute {event : Event} (mute : ¬event.Musical) (playing : Option Music) :
    event.tune playing = playing := by
  cases event with
  | playMusic name volume loops => exact absurd trivial mute
  | stopMusic => exact absurd trivial mute
  | _ => rfl

/-- Music that plays after an event is what played before, or what the event asks for. -/
theorem Event.of_tune {event : Event} {before : Option Music} {playing : Music}
    (is : event.tune before = some playing) :
    before = some playing ∨
      ∃ volume, event = .playMusic playing.name volume playing.loops ∧
        playing.volume = Play.hundredth volume := by
  cases event with
  | playMusic name volume loops =>
    rcases Option.or_eq_some_iff.mp is with old | ⟨-, new⟩
    · exact .inl old
    · cases new
      exact .inr ⟨volume, rfl, rfl⟩
  | stopMusic => exact nomatch is
  | _ => exact .inl is

/-- Music that is playing was asked for, at its volume, by an event of the journal. -/
theorem Entry.exists_playMusic {journal : List Entry} {playing : Music}
    (is : music journal = some playing) :
    ∃ d volume, Entry.event d ∈ journal ∧ d.event = .playMusic playing.name volume playing.loops ∧
      playing.volume = Play.hundredth volume := by
  induction journal with
  | nil => exact nomatch is
  | cons entry journal ih =>
    have earlier (is : music journal = some playing) :
        ∃ d volume, Entry.event d ∈ entry :: journal ∧
          d.event = .playMusic playing.name volume playing.loops ∧
          playing.volume = Play.hundredth volume := by
      obtain ⟨d, volume, mem, rest⟩ := ih is
      exact ⟨d, volume, List.mem_cons_of_mem _ mem, rest⟩
    cases entry with
    | scene name => exact earlier is
    | event d =>
      rcases Event.of_tune is with old | ⟨volume, asks, same⟩
      · exact earlier old
      · exact ⟨d, volume, List.mem_cons_self, asks, same⟩

/-! ### What every act keeps tidy -/

/-- A session in which nothing is left behind but what is going on. -/
structure Tidy (m : Mode) (s : Session) : Prop where
  dialog (silent : m.doing ≠ .talking) : s.host.dialog = none
  camera (shown : m.doing ≠ .opening) (rests : ∀ start goal, m.doing ≠ .panning start goal) :
    s.host.camera = s.stage.camera
  background (clear : m.doing ≠ .fading) : s.stage.background.blending = false
  music (steady : m.doing ≠ .hushing) : s.host.music = Entry.music s.journal
  hushed (fades : m.doing = .hushing) : Entry.music s.journal = none
  /-- The music is the track that was started last. -/
  started {playing : Music} (is : Entry.music s.journal = some playing) :
    s.host.musicStarted.back? = some playing.name

/-- What of a session may be left behind. -/
def Session.remains (s : Session) :
    Option String × Pixel × Pixel × Bool × Option Music × Array String × Option Music :=
  (s.host.dialog, s.host.camera, s.stage.camera, s.stage.background.blending, s.host.music,
    s.host.musicStarted, Entry.music s.journal)

/-- Only an event that the music obeys changes what music there has to be. -/
theorem Deed.music_apply {d : Deed} (plain : d.Plain) (s : Session) :
    Entry.music (d.apply s).journal = Entry.music s.journal := by
  cases d with
  | record event inFrame depth => exact Event.tune_of_mute plain _
  | _ => rfl

theorem Deed.remains_apply {d : Deed} (plain : d.Plain) (s : Session) :
    (d.apply s).remains = s.remains := by
  have kept := d.undisturbed plain s
  simp only [Session.remains, kept.dialog, kept.shown, kept.camera, kept.background, kept.music,
    kept.started, d.music_apply plain s]

namespace Tidy

variable {game : Game} {m m' : Mode} {s t : Session}

/-- Where nothing is begun or ended, nothing new is left behind. -/
theorem of_remains (h : Tidy m s) (remains : t.remains = s.remains) (same : m'.doing = m.doing) :
    Tidy m' t := by
  simp only [Session.remains, Prod.mk.injEq] at remains
  obtain ⟨dialog, host, stage, background, music, started, journal⟩ := remains
  constructor
  · rw [same, dialog]
    exact h.dialog
  · rw [same, host, stage]
    exact h.camera
  · rw [same, background]
    exact h.background
  · rw [same, music, journal]
    exact h.music
  · rw [same, journal]
    exact h.hushed
  · rw [journal, started]
    exact h.started

/-- While nothing is going on, everything is tidy for whatever begins. -/
theorem of_calm {w : Bool} (h : Tidy ⟨.nothing, w⟩ s) (m : Mode) (steady : m.doing ≠ .hushing) :
    Tidy m s where
  dialog _ := h.dialog nofun
  camera _ _ := h.camera nofun nofun
  background _ := h.background nofun
  music _ := h.music nofun
  hushed fades := absurd fades steady
  started := h.started

/-- Every act tidies up what it ends. -/
theorem act (act : Act game (m, s) (m', t)) (h : Tidy m s) : Tidy m' t := by
  cases act with
  | deed d plain allowed => exact h.of_remains (d.remains_apply plain s) rfl
  | frame shown goes => exact h.of_remains rfl rfl
  | arrive a opens allowed fits =>
    cases a with
    | player map sheet tile d z =>
      have opening : m.doing = .opening := opens.resolve_left id
      exact { h with camera := fun shown => absurd opening shown }
    | _ => exact h.of_remains rfl rfl
  | reveal =>
    exact ⟨fun _ => h.dialog nofun, fun _ _ => rfl, fun _ => h.background nofun,
      fun _ => h.music nofun, nofun, h.started⟩
  | veil visible =>
    exact { h.of_calm ⟨.fading, _⟩ nofun with background := fun clear => absurd rfl clear }
  | unveil fades visible =>
    rcases fades with rfl | rfl
    · exact { h.of_calm ⟨.nothing, _⟩ nofun with background := fun _ => rfl }
    · exact ⟨fun _ => h.dialog nofun, fun _ _ => h.camera nofun nofun, fun _ => rfl,
        fun _ => h.music nofun, nofun, h.started⟩
  | hide => exact h.of_remains rfl rfl
  | openDialog text =>
    exact { h.of_calm ⟨.talking, _⟩ nofun with dialog := fun silent => absurd rfl silent }
  | closeDialog =>
    exact ⟨fun _ => rfl, fun _ _ => h.camera nofun nofun, fun _ => h.background nofun,
      fun _ => h.music nofun, nofun, h.started⟩
  | playMusic silent name volume loops inFrame depth =>
    have none : Entry.music s.journal = none := (h.music nofun).symm.trans silent
    have tune : (Event.playMusic name volume loops).tune (Entry.music s.journal) =
        some ⟨name, Play.hundredth volume, loops⟩ := by
      rw [none]
      rfl
    refine { h with music := fun _ => tune.symm, hushed := nofun, started := ?_ }
    intro playing is
    cases tune.symm.trans is
    exact Array.back?_push
  | keepMusic playing name volume loops inFrame depth =>
    -- Both the host and the journal keep to the music that plays already.
    have tune : (Event.playMusic name volume loops).tune (Entry.music s.journal) =
        Entry.music s.journal := by
      obtain ⟨music, is⟩ := Option.ne_none_iff_exists'.mp playing
      rw [← h.music nofun, is]
      rfl
    exact { h with
      music := fun _ => (h.music nofun).trans tune.symm
      hushed := nofun
      started := fun is => h.started (tune.symm.trans is) }
  | hush inFrame depth =>
    exact ⟨fun _ => h.dialog nofun, fun _ _ => h.camera nofun nofun, fun _ => h.background nofun,
      fun steady => absurd rfl steady, fun _ => rfl, nofun⟩
  | soften volume => exact { h with music := fun steady => absurd rfl steady }
  | stopMusic =>
    exact ⟨fun _ => h.dialog nofun, fun _ _ => h.camera nofun nofun, fun _ => h.background nofun,
      fun _ => (h.hushed rfl).symm, nofun, h.started⟩
  | setOut onMap target => exact h.of_calm ⟨.panning _ _, _⟩ nofun
  | pan on => exact { h with camera := fun _ rests => absurd rfl (rests _ _) }
  | stop =>
    exact ⟨fun _ => h.dialog nofun, fun _ _ => rfl, fun _ => h.background nofun,
      fun _ => h.music nofun, nofun, h.started⟩
  | turn d => exact h.of_remains rfl rfl
  | walk => exact h.of_remains rfl rfl
  | picture is frame => exact h.of_remains rfl rfl
  | stride onMap free position => exact { h with camera := fun _ _ => rfl }

/-- A scene is opened tidily. -/
theorem opened (h : Tidy .still s) (game : Game) (name : String) :
    Tidy .opening (s.opened game name) where
  dialog _ := h.dialog (by simp)
  camera shown := absurd rfl shown
  background _ := rfl
  music _ := h.music (by simp)
  hushed := nofun
  started := h.started

end Tidy

/-! ### Calls that the host does not stop -/

/-- An action that was not stopped by the host: it came to its end, or to a variable that was never
declared or events that are nested too deep. -/
def Play.Unstopped {α : Type} : EStateM.Result Halt Session α → Prop
  | .ok _ _ | .error (.variable _) _ | .error (.nestingTooDeep _) _ => True
  | .error _ _ => False

instance {α : Type} : DecidablePred (Play.Unstopped (α := α))
  | .ok _ _ | .error (.variable _) _ | .error (.nestingTooDeep _) _ => .isTrue trivial
  | .error (.host _) _ | .error .noTileSize _ | .error .endless _ => .isFalse id

/-- Calls none of which is stopped by the host. -/
def Session.GoesOn (game : Game) (s : Session) (calls : List Call) : Prop :=
  ∀ e ∈ s.history game calls, Play.Unstopped (e.call.perform game e.session)

instance (game : Game) (s : Session) (calls : List Call) : Decidable (s.GoesOn game calls) :=
  inferInstanceAs (Decidable (∀ e ∈ s.history game calls, _))

/-- Unless the host stops it, an action leaves nothing behind. -/
theorem tidy_of_comes {game : Game} {α : Type} {m : Mode} {s : Session}
    {r : EStateM.Result Halt Session α} (h : Play.Comes game (m, s) .still r) (tidy : Tidy m s)
    (goesOn : Play.Unstopped r) : Tidy .still (Play.final r) := by
  cases h with
  | ok x acts => exact acts.keeps Tidy.act tidy
  | @error e m' t acts leaves =>
    have halted : Tidy m' t := acts.keeps Tidy.act tidy
    have nothing : m'.doing = .nothing := by
      cases e with
      | «variable» error => exact leaves
      | nestingTooDeep limit => exact leaves
      | host stop => exact goesOn.elim
      | noTileSize => exact leaves
      | endless => exact goesOn.elim
    exact halted.of_remains rfl nothing.symm

theorem tidy_after {game : Game} {s : Session} (start : Tidy .still s) {calls : List Call}
    (single : ∀ call ∈ calls, call ≠ .run) (goesOn : s.GoesOn game calls) :
    Tidy .still (s.after game calls) :=
  s.holds_after tidy_of_comes (fun _ name tidy => tidy.opened game name) start single goesOn

/-! ### The law of cleaning up -/

/-- A session with nothing left behind. -/
structure Session.Cleared (s : Session) : Prop where
  dialog : s.host.dialog = none
  camera : s.host.camera = s.stage.camera
  background : s.stage.background.blending = false
  /-- The music is what the events of the journal have started and not stopped: the track that was
  started last, at the volume for which its event asked. -/
  music : s.host.music = Entry.music s.journal
  track {playing : Music} (is : s.host.music = some playing) :
    s.host.musicStarted.back? = some playing.name ∧
      ∃ d volume, Entry.event d ∈ s.journal ∧
        d.event = .playMusic playing.name volume playing.loops ∧
        playing.volume = Play.hundredth volume

/-- **Nothing is left behind.** After any calls but whole runs, none of which the host has stopped, no
dialog is open, the camera of the host is where that of the stage is, the background does not fade,
and the music plays as its event has asked for it; also where an event has failed. -/
theorem cleared_of_goesOn {game : Game} {input : InputScript} {budget : Option Nat} {stops : Bool}
    {s : Session} (start : game.session (.fresh input budget stops) = .ok s) {calls : List Call}
    (single : ∀ call ∈ calls, call ≠ .run) (goesOn : s.GoesOn game calls) :
    (s.after game calls).Cleared := by
  have fresh : Tidy .still s := by
    obtain ⟨vars, -, rfl⟩ := Game.session_eq_ok_iff.mp start
    exact ⟨fun _ => rfl, fun _ _ => rfl, fun _ => rfl, fun _ => rfl, nofun, nofun⟩
  have tidy := tidy_after fresh single goesOn
  have music := tidy.music (by simp)
  constructor
  · exact tidy.dialog (by simp)
  · exact tidy.camera (by simp) (by simp)
  · exact tidy.background (by simp)
  · exact music
  · intro playing is
    rw [music] at is
    exact ⟨tidy.started is, Entry.exists_playMusic is⟩

/-- A hall in which something is played and said, and a list that ends with a variable that was never
declared. -/
def Game.recital : Game where
  graph :=
    { SceneGraph.empty with
      lists :=
        [[],
          [.playMusic "theme" 50 true, .showDialog "Welcome.", .fadeIn (.ofInt 32),
            .moveCamera (.ofInt 2) (.ofInt 0) (.ofInt 32) true .horizontal],
          [.stopMusic, .playMusic "coda" 25 false, .setVariable "applause" (.ofInt 1)]]
      scenes :=
        [{ Scene.called "hall" with
            events := ⟨1⟩
            map := some ⟨3, 1, 2, [0, 0, 0], []⟩ }] }
  config := .standard

/-- In the hall the dialog is answered, and the list fails while its music plays. -/
theorem cleared_of_goesOn_recital :
    ∃ s, Game.recital.session (.fresh ((InputScript.empty.idle 2).tap .activate) (some 99) false) =
        .ok s ∧
      s.GoesOn Game.recital [.enter "hall", .frame, .list ⟨2⟩ true, .frame] ∧
      (s.after Game.recital [.enter "hall", .frame, .list ⟨2⟩ true, .frame]).Cleared ∧
      (s.after Game.recital [.enter "hall", .frame, .list ⟨2⟩ true, .frame]).host.music.map (·.name) =
        some "coda" := by
  have goesOn : (Session.sample ((InputScript.empty.idle 2).tap .activate) 99).GoesOn Game.recital
      [.enter "hall", .frame, .list ⟨2⟩ true, .frame] := by
    decide +kernel
  exact ⟨_, rfl, goesOn, cleared_of_goesOn rfl (by decide) goesOn, by decide +kernel⟩

end Overworld
