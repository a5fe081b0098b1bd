import Overworld.Proofs.Handlers
import Overworld.Proofs.Requests

/-!
Handlers run at the press of a button.

A button is pressed in the frame in which the script begins to hold it, and the host knows it for
every frame that it has come to (`Session.Listens`). A handler is come to once in every frame of a
scene, and has its body run if one of its buttons is pressed then; what it runs may take frames, but
the frame that it is run in always comes to its end later. So no two frames run it at the same press,
and between two presses the button was released. The player turns to an actor in the same way.
-/

namespace Overworld

open Simulation

/-! ### Presses -/

/-- The script begins to hold a button in a frame. -/
def InputScript.PressedAt (script : InputScript) (button : Button) (frame : Nat) : Prop :=
  button ∈ script.heldAt frame ∧ (frame = 0 ∨ button ∉ script.heldAt (frame - 1))

instance (script : InputScript) (button : Button) (frame : Nat) :
    Decidable (script.PressedAt button frame) := instDecidableAnd

/-- A session whose host knows of each button whether it is held and pressed. -/
structure Session.Listens (input : InputScript) (s : Session) : Prop where
  script : s.host.input = input
  held (button : Button) : s.host.states.held.has button ↔ button ∈ input.heldAt s.host.frame
  pressed (button : Button) : s.host.states.pressed.has button ↔ input.PressedAt button s.host.frame

namespace Session.Listens

variable {input : InputScript} {s t : Session}

theorem of_clock_eq (h : s.Listens input) (same : t.host.clock = s.host.clock) :
    t.Listens input := by
  simp only [Host.clock, Clock.mk.injEq] at same
  obtain ⟨script, states, frame, -⟩ := same
  constructor
  · exact script.trans h.script
  · rw [states, frame]
    exact h.held
  · rw [states, frame]
    exact h.pressed

theorem fresh (budget : Option Nat) (stops : Bool) (vars : Variables) (stage : Stage) :
    (Session.start (.fresh input budget stops) vars stage).Listens input := by
  refine ⟨rfl, fun button => ?_, fun button => ?_⟩
  · simp [Session.start, Host.fresh, ButtonStates.next]
  · simp [Session.start, Host.fresh, ButtonStates.next, ButtonStates.idle, InputScript.PressedAt]

/-- What is held in one frame and not in the one before is pressed. -/
theorem frame (h : s.Listens input) :
    ({ s with host := s.host.afterFrame } : Session).Listens input := by
  have script := h.script
  refine ⟨script, fun button => ?_, fun button => ?_⟩
  · simp [Host.afterFrame, ButtonStates.next, script]
  · have held := h.held button
    simp [Host.afterFrame, ButtonStates.next, script, InputScript.PressedAt, ← held]

theorem move {game : Game} (h : s.Listens input) (m : Move game s t) : t.Listens input := by
  cases m with
  | stay m =>
    cases m with
    | deed d allowed => exact h.of_clock_eq (d.clock_apply s)
    | frame goes => exact h.frame
  | arrive a allowed => exact h.of_clock_eq (a.clock_apply game s)
  | enter name => exact h.of_clock_eq rfl

theorem stretch (h : s.Listens input) (course : Stretch s t) : t.Listens input :=
  course.keeps (fun _ _ step h => h.move (.stay step : Move default _ _)) h

theorem after {game : Game} {budget : Option Nat} {stops : Bool}
    (start : game.session (.fresh input budget stops) = .ok s) (calls : List Call) :
    (s.after game calls).Listens input := by
  refine (s.course_after game calls).keeps (fun _ _ m h => h.move m) ?_
  obtain ⟨vars, -, rfl⟩ := Game.session_eq_ok_iff.mp start
  exact .fresh budget stops vars _

end Session.Listens

/-! ### The frames of a scene -/

/-- A frame of a scene begins in a session. -/
def Session.Plays (game : Game) (s a : Session) : Prop :=
  Relation.ReflTransGen (NextFrame game) s a ∧ a.stage.request = none

/-- A handler is come to in the frame that begins in a session. -/
def Session.ComesTo (game : Game) (a : Session) (i : Nat) (u : Session) : Prop :=
  Play.runEvents game game.config.maxDepth true (a.stage.handlers.take i) a = .ok () u

namespace Play

theorem enactFrame_eq (game : Game) (s : Session) :
    enactFrame game s = enactFrom game s.stage.handlers s := rfl

theorem runEvents_append (game : Game) (room : Nat) (inFrame : Bool) (first last : List Event) :
    runEvents game room inFrame (first ++ last) =
      runEvents game room inFrame first >>= fun _ => runEvents game room inFrame last := by
  unfold runEvents
  rw [List.forM_eq_forM]
  exact List.forM_append

theorem enactFrom_append (game : Game) (first last : List Event) :
    enactFrom game (first ++ last) =
      runEvents game game.config.maxDepth true first >>= fun _ => enactFrom game last := by
  unfold enactFrom
  rw [runEvents_append, bind_assoc]

end Play

theorem NextFrame.stretch {game : Game} {a b : Session} (next : NextFrame game a b) : Stretch a b :=
  Tracks.stretch_ok (.playFrame (walks_within game a)) next.2

theorem stretch_of_frames {game : Game} {s a : Session}
    (frames : Relation.ReflTransGen (NextFrame game) s a) : Stretch s a := by
  induction frames with
  | refl => exact .refl
  | tail _ next ih => exact ih.trans next.stretch

/-- The handlers are the same in all frames of a scene. -/
theorem handlers_of_frames {game : Game} {s a : Session}
    (frames : Relation.ReflTransGen (NextFrame game) s a) : a.stage.handlers = s.stage.handlers := by
  induction frames with
  | refl => rfl
  | @tail b c _ next ih =>
    have same := Play.handlers_playFrame game b
    rw [next.2] at same
    exact same.trans ih

/-- In the frames of a scene nothing is left to choice. -/
theorem rightUnique_nextFrame (game : Game) : Relator.RightUnique (NextFrame game) := by
  rintro a b c ⟨-, first⟩ ⟨-, second⟩
  cases first.symm.trans second
  rfl

namespace Session.ComesTo

variable {game : Game} {a b u v : Session} {i j : Nat}

theorem stretch (comes : a.ComesTo game i u) : Stretch a u :=
  Tracks.stretch_ok (.outermost true) comes

/-- A frame goes on from where a handler is come to. -/
theorem enactFrame_eq (comes : a.ComesTo game i u) :
    Play.enactFrame game a = Play.enactFrom game (a.stage.handlers.drop i) u := by
  have whole := Play.enactFrom_append game (a.stage.handlers.take i) (a.stage.handlers.drop i)
  rw [List.take_append_drop] at whole
  rw [Play.enactFrame_eq, whole, Play.bind_apply, comes]

/-- It comes to its end later. -/
theorem frame_lt (comes : a.ComesTo game i u) (next : NextFrame game a b) :
    u.host.frame < b.host.frame := by
  obtain ⟨_, v, enacted, played⟩ := Play.bind_eq_ok_iff.mp next.2
  obtain ⟨-, rfl⟩ := Play.advance_eq_ok_iff.mp played
  rw [comes.enactFrame_eq] at enacted
  have rest : Stretch u v := Tracks.stretch_ok (.enactFrom (walks_within game u) _) enacted
  exact Nat.lt_succ_of_le rest.clock_le.1

/-- What is come to in a later frame is come to later. -/
theorem lt_of_later (comes : a.ComesTo game i u) (later : Relation.TransGen (NextFrame game) a b)
    (comes' : b.ComesTo game j v) : u.host.frame < v.host.frame := by
  obtain ⟨c, next, frames⟩ := Relation.TransGen.head'_iff.mp later
  have between := (stretch_of_frames frames).clock_le.1
  have within := comes'.stretch.clock_le.1
  have first := comes.frame_lt next
  omega

/-- A handler is come to once in every frame. -/
theorem eq_of_frame_eq {s : Session} (plays : s.Plays game a) (plays' : s.Plays game b)
    (comes : a.ComesTo game i u) (comes' : b.ComesTo game i v)
    (same : u.host.frame = v.host.frame) : a = b ∧ u = v := by
  have alike : a = b := by
    rcases Relation.ReflTransGen.total_of_right_unique (rightUnique_nextFrame game) plays.1 plays'.1
      with ahead | behind
    · rcases Relation.reflTransGen_iff_eq_or_transGen.mp ahead with rfl | later
      · rfl
      · exact absurd same (Nat.ne_of_lt (comes.lt_of_later later comes'))
    · rcases Relation.reflTransGen_iff_eq_or_transGen.mp behind with rfl | later
      · rfl
      · exact absurd same.symm (Nat.ne_of_lt (comes'.lt_of_later later comes))
  subst alike
  refine ⟨rfl, ?_⟩
  cases comes.symm.trans comes'
  rfl

end Session.ComesTo

/-! ### Once for every press -/

/-- Something that happens in the frames of a scene when one of some buttons is pressed, and no more
than once for every press. -/
structure Session.OncePerPress (game : Game) (input : InputScript) (s : Session)
    (buttons : List Button) (happens : Session → Session → Prop) : Prop where
  pressed {a u : Session} (plays : s.Plays game a) (h : happens a u) :
    ∃ button ∈ buttons, input.PressedAt button u.host.frame
  later {a b u v : Session} (plays : s.Plays game a) (plays' : s.Plays game b) (h : happens a u)
    (h' : happens b v) (later : Relation.TransGen (NextFrame game) a b) :
    u.host.frame < v.host.frame
  once {a b u v : Session} (plays : s.Plays game a) (plays' : s.Plays game b) (h : happens a u)
    (h' : happens b v) (same : u.host.frame = v.host.frame) : a = b ∧ u = v
  /-- Where there is but one button, it is released in between. -/
  released {button : Button} (single : ∀ other ∈ buttons, other = button) {a b u v : Session}
    (plays : s.Plays game a) (plays' : s.Plays game b) (h : happens a u) (h' : happens b v)
    (lt : u.host.frame < v.host.frame) :
    ∃ frame, u.host.frame < frame ∧ frame < v.host.frame ∧ button ∉ input.heldAt frame

/-- Between two presses a button is released. -/
theorem InputScript.PressedAt.released {input : InputScript} {button : Button} {first last : Nat}
    (pressed : input.PressedAt button first) (again : input.PressedAt button last)
    (lt : first < last) : ∃ frame, first < frame ∧ frame < last ∧ button ∉ input.heldAt frame := by
  rcases again.2 with start | released
  · omega
  · have later : first ≠ last - 1 := by
      intro same
      rw [← same] at released
      exact released pressed.1
    exact ⟨last - 1, by omega, by omega, released⟩

/-- What happens where a handler is come to, and only when a button is pressed, happens once for every
press. -/
theorem Session.Listens.oncePerPress {game : Game} {input : InputScript} {s : Session}
    (listens : s.Listens input) {buttons : List Button} {happens : Session → Session → Prop} {i : Nat}
    (comes : ∀ {a u}, s.Plays game a → happens a u → a.ComesTo game i u)
    (presses : ∀ {a u}, s.Plays game a → happens a u →
      ∃ button ∈ buttons, u.host.states.pressed.has button) :
    s.OncePerPress game input buttons happens := by
  have pressed {a u : Session} (plays : s.Plays game a) (h : happens a u) :
      ∃ button ∈ buttons, input.PressedAt button u.host.frame := by
    obtain ⟨button, mem, is⟩ := presses plays h
    have course : Stretch s u := (stretch_of_frames plays.1).trans (comes plays h).stretch
    exact ⟨button, mem, ((listens.stretch course).pressed button).mp is⟩
  constructor
  case pressed => exact pressed
  case later =>
    intro a b u v plays plays' h h' later
    exact (comes plays h).lt_of_later later (comes plays' h')
  case once =>
    intro a b u v plays plays' h h' same
    exact (comes plays h).eq_of_frame_eq plays plays' (comes plays' h') same
  case released =>
    intro button single a b u v plays plays' h h' lt
    obtain ⟨first, mem, pressed'⟩ := pressed plays h
    obtain ⟨last, mem', again⟩ := pressed plays' h'
    cases single first mem
    cases single last mem'
    exact pressed'.released again lt

/-! ### Handlers -/

@[simp] theorem Session.host_recorded (s : Session) (event : Event) (inFrame : Bool) (depth : Nat) :
    (s.recorded event inFrame depth).host = s.host := rfl

/-- In a frame an event that waits for buttons has its body run if one of them is pressed. -/
theorem Play.enact_onButtonPress (game : Game) (buttons : List Button) (body : Handle) (s : Session) :
    Play.enact game true (.onButtonPress buttons body) s =
      .ok (if s.host.states.anyPressed buttons then some (body, true) else none) s := by
  change (if s.host.states.anyPressed buttons then _ else _ : Play (Option (Handle × Bool))) s = _
  split <;> rfl

/-- A handler has its body run in the frame that begins in a session. -/
def Session.Fires (game : Game) (i : Nat) (a u : Session) : Prop :=
  a.ComesTo game i u ∧ ∃ event list v, a.stage.handlers[i]? = some event ∧
    0 < game.config.maxDepth ∧
    Play.enact game true event (u.recorded event true 1) = .ok (some list) v

/-- A handler fires if it is come to while one of its buttons is pressed. -/
theorem Session.fires_iff {game : Game} {i : Nat} {a u : Session} {buttons : List Button}
    {body : Handle} (is : a.stage.handlers[i]? = some (.onButtonPress buttons body)) :
    Session.Fires game i a u ↔
      a.ComesTo game i u ∧ 0 < game.config.maxDepth ∧ u.host.states.anyPressed buttons := by
  refine and_congr_right fun _ => ?_
  constructor
  · rintro ⟨event, list, v, is', deep, enacted⟩
    cases is.symm.trans is'
    refine ⟨deep, ?_⟩
    by_contra quiet
    simp [Play.enact_onButtonPress, quiet] at enacted
  · rintro ⟨deep, pressed⟩
    have enacted := Play.enact_onButtonPress game buttons body
      (u.recorded (.onButtonPress buttons body) true 1)
    rw [Session.host_recorded, if_pos pressed] at enacted
    exact ⟨_, _, _, is, deep, enacted⟩

/-- A handler that is run leaves its entry in the journal, and runs its body if one of its buttons is
pressed. -/
theorem Play.runEvent_onButtonPress {game : Game} (deep : 0 < game.config.maxDepth)
    (buttons : List Button) (body : Handle) (u : Session) :
    Play.runEvent game game.config.maxDepth true (.onButtonPress buttons body) u =
      if u.host.states.anyPressed buttons then
        Play.runEvents game (game.config.maxDepth - 1) true (game.graph.events body)
          (u.recorded (.onButtonPress buttons body) true 1)
      else .ok () (u.recorded (.onButtonPress buttons body) true 1) := by
  obtain ⟨room, is⟩ : ∃ room, game.config.maxDepth = room + 1 := ⟨_, (Nat.sub_add_cancel deep).symm⟩
  have depth : game.config.maxDepth - room = 1 := by omega
  rw [is, Play.runEvent_succ, depth, Play.bind_apply, Play.enact_onButtonPress,
    Session.host_recorded]
  cases u.host.states.anyPressed buttons <;> rfl

/-! ### Interactions -/

/-- The player turns to an actor in the frame that begins in a session. -/
def Session.Interacts (game : Game) (a w : Session) : Prop :=
  a.ComesTo game a.stage.handlers.length w ∧ ∃ map player found x, w.stage.map = some map ∧
    w.stage.player = some player ∧ Play.addressed game map player w = .ok (some found) x

theorem Session.interacts_iff {game : Game} {a w : Session} {map : TileMap} {player : Player}
    (comes : a.ComesTo game a.stage.handlers.length w) (onMap : w.stage.map = some map)
    (present : w.stage.player = some player) :
    a.Interacts game w ↔ ∃ found x, Play.addressed game map player w = .ok (some found) x := by
  constructor
  · rintro ⟨-, map', player', found, x, onMap', present', addressed⟩
    cases onMap.symm.trans onMap'
    cases present.symm.trans present'
    exact ⟨found, x, addressed⟩
  · rintro ⟨found, x, addressed⟩
    exact ⟨comes, map, player, found, x, onMap, present, addressed⟩

/-- The button for it is pressed. -/
theorem Session.Interacts.pressed {game : Game} {a w : Session} (h : a.Interacts game w) :
    w.host.states.pressed.has .activate := by
  obtain ⟨-, map, player, found, x, -, -, addressed⟩ := h
  by_contra quiet
  have is : Play.addressed game map player w =
      (if w.host.states.pressed.has .activate then Play.actorInFront game map player
        else Pure.pure none : Play (Option (Nat × Actor))) w := rfl
  rw [if_neg quiet] at is
  exact nomatch addressed.symm.trans is

/-- What the player does on a map: an interaction, or else a walk, if it can tell where it is. -/
theorem Play.control_of_present {game : Game} {map : TileMap} {player : Player} {w : Session}
    (onMap : w.stage.map = some map) (present : w.stage.player = some player) :
    Play.control game w =
      match Play.addressed game map player w with
      | .ok (some (index, actor)) _ => Play.interact game player index actor w
      | .ok none _ => Play.walkAbout game map w
      | .error e _ => .error e w := by
  rw [Play.control_eq, Play.get_bind_apply, onMap, present]
  simp only [Play.bind_apply]
  rcases (Play.Peeks.addressed game map player).sees w with ⟨found, is⟩ | ⟨e, is⟩
  · rw [is]
    rcases found with _ | ⟨index, actor⟩ <;> rfl
  · rw [is]

/-- Without a player or a map there is nothing to control. -/
theorem Play.control_of_absent {game : Game} {s : Session}
    (absent : s.stage.player = none ∨ s.stage.map = none) : Play.control game s = .ok () s := by
  rw [Play.control_eq, Play.get_bind_apply]
  rcases absent with nobody | nowhere
  · rw [nobody]
    cases s.stage.map <;> rfl
  · rw [nowhere]
    rfl

/-! ### The law of presses -/

/-- How handlers and the player go by the buttons, in all frames of a scene from a session on. -/
structure Session.GoesByPresses (game : Game) (input : InputScript) (s : Session) : Prop where
  /-- The scene is played frame by frame, with the same handlers in each. -/
  frames : PlayedOut game s
  waiting : Waiting s.stage.handlers
  handlers {a : Session} (plays : s.Plays game a) : a.stage.handlers = s.stage.handlers
  /-- A handler that is come to runs its body if it fires, and nothing otherwise. -/
  runs {i : Nat} {buttons : List Button} {body : Handle} {a u : Session}
    (is : s.stage.handlers[i]? = some (.onButtonPress buttons body)) (plays : s.Plays game a)
    (comes : a.ComesTo game i u) (deep : 0 < game.config.maxDepth) :
    let found := u.recorded (.onButtonPress buttons body) true 1
    let ran := Play.runEvent game game.config.maxDepth true (.onButtonPress buttons body) u
    Session.Fires game i a u ∧
        ran = Play.runEvents game (game.config.maxDepth - 1) true (game.graph.events body) found ∨
      ¬Session.Fires game i a u ∧ ran = .ok () found
  fires {i : Nat} {buttons : List Button} {body : Handle}
    (is : s.stage.handlers[i]? = some (.onButtonPress buttons body)) :
    s.OncePerPress game input buttons (Session.Fires game i)
  /-- The player turns to an actor if there is one to turn to, and walks otherwise, unless the map
  cannot tell where the player is. -/
  controls {a w : Session} {map : TileMap} {player : Player}
    (comes : a.ComesTo game a.stage.handlers.length w) (onMap : w.stage.map = some map)
    (present : w.stage.player = some player) :
    (a.Interacts game w ∧
        ∃ index actor, Play.control game w = Play.interact game player index actor w) ∨
      (¬a.Interacts game w ∧
        (Play.control game w = Play.walkAbout game map w ∨ ∃ e, Play.control game w = .error e w))
  interacts : s.OncePerPress game input [.activate] (Session.Interacts game)

/-- **Handlers run at the press of a button.** In every scene of a game that is played with a script,
a registered handler has its body run only in a frame in which the script begins to hold one of its
buttons, in one frame after the other and never twice in the same; if it has one button, this is
released in between. And the player turns to an actor only in a frame in which the script begins to
hold the button for it, and once in such a frame. -/
theorem goesByPresses_session {game : Game} {input : InputScript} {budget : Option Nat}
    {stops : Bool} {s : Session} (start : game.session (.fresh input budget stops) = .ok s)
    (calls : List Call) : (s.after game calls).GoesByPresses game input := by
  have waiting : Waiting (s.after game calls).stage.handlers := handling_after start calls
  have listens : (s.after game calls).Listens input := .after start calls
  generalize s.after game calls = t at waiting listens
  have same {a : Session} (plays : t.Plays game a) : a.stage.handlers = t.stage.handlers :=
    handlers_of_frames plays.1
  constructor
  case frames => exact playedOut game t
  case waiting => exact waiting
  case handlers => exact same
  case runs =>
    intro i buttons body a u is plays comes deep found ran
    rw [← same plays] at is
    have run : ran = _ := Play.runEvent_onButtonPress deep buttons body u
    rw [Session.fires_iff is, run]
    by_cases pressed : u.host.states.anyPressed buttons
    · exact .inl ⟨⟨comes, deep, pressed⟩, if_pos pressed⟩
    · exact .inr ⟨fun fires => pressed fires.2.2, if_neg pressed⟩
  case fires =>
    intro i buttons body is
    refine listens.oncePerPress (fun _ fires => fires.1) fun plays fires => ?_
    rw [← same plays] at is
    exact List.any_eq_true.mp ((Session.fires_iff is).mp fires).2.2
  case controls =>
    intro a w map player comes onMap present
    have control : Play.control game w = _ := Play.control_of_present onMap present
    rw [Session.interacts_iff comes onMap present]
    rcases (Play.Peeks.addressed game map player).sees w with ⟨_ | ⟨index, actor⟩, is⟩ | ⟨e, is⟩
    · rw [is] at control ⊢
      refine .inr ⟨?_, .inl control⟩
      rintro ⟨found, x, other⟩
      cases other
    · rw [is] at control ⊢
      exact .inl ⟨⟨_, _, rfl⟩, index, actor, control⟩
    · rw [is] at control ⊢
      refine .inr ⟨?_, .inr ⟨e, control⟩⟩
      rintro ⟨found, x, other⟩
      cases other
  case interacts =>
    have comes {a w : Session} (plays : t.Plays game a) (h : a.Interacts game w) :
        a.ComesTo game t.stage.handlers.length w := by
      rw [← same plays]
      exact h.1
    exact listens.oncePerPress comes fun _ h => ⟨.activate, List.mem_singleton_self _, h.pressed⟩

/-- In the yard the bell is rung twice, by a button that is held for two frames and then for one. -/
theorem goesByPresses_session_bell :
    let input := (((InputScript.empty.idle 1).hold [.activate] 2).idle 1).tap .activate
    ∃ s, Game.bell.session (.fresh input (some 9) false) = .ok s ∧
      (s.after Game.bell [.enter "yard"]).GoesByPresses Game.bell input ∧
      ((s.after Game.bell [.enter "yard", .scene]).host.sounds.size,
        (s.after Game.bell [.enter "yard", .scene]).host.frame) = (2, 9) :=
  ⟨_, rfl, goesByPresses_session rfl _, by decide +kernel⟩

end Overworld
