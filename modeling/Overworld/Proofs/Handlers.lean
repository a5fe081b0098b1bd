import Mathlib.Data.List.Chain
import Overworld.Proofs.Upkeep

/-!
When handlers are registered.

An event that waits for a press of buttons is registered when it is run on entry to a scene, and has
its body run when it is run in a frame. The journal tells which events were run, in which of the two
ways and how deep: a list leaves its entries behind in order, all of them run as the list was, and
registers those that wait for buttons on entry, after each of which it goes on without the body
(`Unrolled`). So the handlers change only where events are run on entry, and those of a scene are the
ones that its own events have registered.
-/

namespace Overworld

open Simulation

/-! ### What events register -/

/-- The handler that an event registers when it is run: itself, on entry to a scene. -/
def Event.handler? (inFrame : Bool) : Event → Option Event
  | .onButtonPress buttons body => if inFrame then none else some (.onButtonPress buttons body)
  | _ => none

def Dispatch.handler? (d : Dispatch) : Option Event := d.event.handler? d.inFrame

theorem Event.handler?_inFrame (event : Event) : event.handler? true = none := by
  cases event <;> rfl

/-- Handlers wait for a press of buttons. -/
theorem Event.handler?_eq_some {inFrame : Bool} {event handler : Event}
    (h : event.handler? inFrame = some handler) :
    ∃ buttons body, handler = .onButtonPress buttons body := by
  unfold Event.handler? at h
  split at h
  · split at h
    · exact nomatch h
    · cases h
      exact ⟨_, _, rfl⟩
  · exact nomatch h

/-- What the events of a list leave in the journal, in order, with those that they have run. -/
structure Unrolled (inFrame : Bool) (depth : Nat) (ran : List Dispatch) : Prop where
  /-- All of them are run as the list is. -/
  alike : ∀ d ∈ ran, d.inFrame = inFrame
  deeper : ∀ d ∈ ran, depth < d.depth
  first : ∀ d ∈ ran.head?, d.depth = depth + 1
  /-- What comes after an event that is registered is not in its body. -/
  dormant : ran.IsChain fun d next => d.handler?.isSome → next.depth ≤ d.depth

namespace Unrolled

variable {inFrame : Bool} {depth : Nat} {d : Dispatch} {ran more : List Dispatch}

theorem nil : Unrolled inFrame depth [] := ⟨by simp, by simp, by simp, .nil⟩

/-- An event and then the list that it has run, if it is not registered itself. -/
theorem cons (alike : d.inFrame = inFrame) (here : d.depth = depth + 1)
    (nested : Unrolled inFrame (depth + 1) ran) (dormant : d.handler?.isSome → ran = []) :
    Unrolled inFrame depth (d :: ran) where
  alike := List.forall_mem_cons.mpr ⟨alike, nested.alike⟩
  deeper := List.forall_mem_cons.mpr
    ⟨by omega, fun e mem => Nat.lt_of_succ_lt (nested.deeper e mem)⟩
  first e is := by
    cases is
    exact here
  dormant := by
    refine nested.dormant.cons fun e is registered => ?_
    rw [dormant registered] at is
    cases is

/-- A list goes on at the level on which it began. -/
theorem append (h : Unrolled inFrame depth ran) (h' : Unrolled inFrame depth more) :
    Unrolled inFrame depth (ran ++ more) where
  alike := List.forall_mem_append.mpr ⟨h.alike, h'.alike⟩
  deeper := List.forall_mem_append.mpr ⟨h.deeper, h'.deeper⟩
  first e is := by
    cases ran with
    | nil => exact h'.first e is
    | cons d ran => exact h.first e is
  dormant := by
    refine List.isChain_append.mpr ⟨h.dormant, h'.dormant, fun d last e next _ => ?_⟩
    have deep := h.deeper d (List.mem_of_mem_getLast? last)
    have start := h'.first e next
    omega

/-- In a frame nothing is registered. -/
theorem handlers_eq_nil (h : Unrolled true depth ran) : ran.filterMap (·.handler?) = [] := by
  refine List.filterMap_eq_nil_iff.mpr fun d mem => ?_
  rw [Dispatch.handler?, h.alike d mem, Event.handler?_inFrame]

end Unrolled

/-- A session after some events were run, with the handlers that they have registered. -/
structure Session.Ran (s t : Session) (ran : List Dispatch) : Prop where
  journal : t.journal = ran.reverse.map .event ++ s.journal
  handlers : t.stage.handlers = s.stage.handlers ++ ran.filterMap (·.handler?)

namespace Session.Ran

variable {s t u : Session} {ran more : List Dispatch}

theorem nil (s : Session) : s.Ran s [] := ⟨rfl, (List.append_nil _).symm⟩

theorem trans (h : s.Ran t ran) (h' : t.Ran u more) : s.Ran u (ran ++ more) where
  journal := by simp [h'.journal, h.journal]
  handlers := by simp [h'.handlers, h.handlers]

end Session.Ran

/-! ### Single events -/

/-- A session whose journal and handlers are given. -/
def Session.Tells (journal : List Entry) (handlers : List Event) (s : Session) : Prop :=
  s.journal = journal ∧ s.stage.handlers = handlers

/-- A session in whose journal one more event stands has run that, with the handler it registers. -/
theorem Session.Tells.ran {s t : Session} {d : Dispatch}
    (told : t.Tells (.event d :: s.journal) (s.stage.handlers ++ d.handler?.toList)) :
    s.Ran t [d] := by
  refine ⟨told.1, told.2.trans (congrArg _ ?_)⟩
  rw [List.filterMap_cons, List.filterMap_nil]
  cases d.handler? <;> rfl

/-- No routine runs an event or registers one. -/
theorem Play.Routine.tells {α : Type} {x : Play α} (h : Play.Routine x) {journal : List Entry}
    {handlers : List Event} : Play.Keeps (Session.Tells journal handlers) x := by
  refine h.keeps (fun d s ordinary tells => ?_) (fun _ _ tells => tells) fun _ tells => tells
  cases d with
  | record event inFrame depth => exact ordinary.elim
  | request r inFrame depth => exact ordinary.elim
  | register event => exact ordinary.elim
  | _ => exact tells

/-- What an event does itself runs no other, and registers it if it waits for buttons on entry. -/
theorem Play.tells_enact (game : Game) (inFrame : Bool) (event : Event) (s : Session) :
    (Play.final (Play.enact game inFrame event s)).Tells s.journal
      (s.stage.handlers ++ (event.handler? inFrame).toList) := by
  by_cases lasting : event.Lasting inFrame
  · cases event with
    | goToScene target start => exact ⟨rfl, (List.append_nil _).symm⟩
    | onButtonPress buttons body =>
      cases lasting
      exact ⟨rfl, rfl⟩
    | _ => exact lasting.elim
  · have none : event.handler? inFrame = .none := by
      cases event with
      | onButtonPress buttons body =>
        cases inFrame with
        | false => exact absurd rfl lasting
        | true => rfl
      | _ => rfl
    rw [none]
    exact (Play.Routine.enact game lasting).tells.final ⟨rfl, (List.append_nil _).symm⟩

/-- What is done alone has no list run. -/
theorem Play.alone_ne_some {x : Play Unit} {s t : Session} {next : Handle × Bool} :
    Play.alone x s ≠ .ok (some next) t := by
  rw [Play.alone, Play.bind_apply]
  cases x s <;> exact nofun

/-- An event that has a list run is not registered, and the list is run as the event was. -/
theorem Play.next_of_enact {game : Game} {inFrame again : Bool} {event : Event} {list : Handle}
    {s t : Session} (h : Play.enact game inFrame event s = .ok (some (list, again)) t) :
    again = inFrame ∧ event.handler? inFrame = none := by
  unfold Play.enact at h
  cases event with
  | onButtonPress buttons body =>
    cases inFrame with
    | false => exact absurd h Play.alone_ne_some
    | true =>
      obtain ⟨pressed, u, -, h⟩ := Play.bind_eq_ok_iff.mp h
      cases pressed with
      | true =>
        cases h
        exact ⟨rfl, rfl⟩
      | false => exact nomatch h
  | branch conditions yes no =>
    obtain ⟨holds, u, -, h⟩ := Play.bind_eq_ok_iff.mp h
    cases holds <;>
    · cases h
      exact ⟨rfl, rfl⟩
  | runScript name =>
    cases h
    exact ⟨rfl, rfl⟩
  | disabled kind => exact nomatch h
  | _ => exact absurd h Play.alone_ne_some

/-! ### Lists of events -/

/-- An event is written down, does what it does itself, and has its list run one level deeper. -/
theorem Play.runEvent_succ (game : Game) (room : Nat) (inFrame : Bool) (event : Event)
    (s : Session) :
    Play.runEvent game (room + 1) inFrame event s =
      (Play.enact game inFrame event >>= fun next => match next with
        | none => Pure.pure ()
        | some (list, inFrame) => Play.runEvents game room inFrame (game.graph.events list))
        (s.recorded event inFrame (game.config.maxDepth - room)) := rfl

/-- An action that runs events from a depth on. -/
def Play.Unrolls (inFrame : Bool) (depth : Nat) (act : Play Unit) : Prop :=
  ∀ s : Session, ∃ ran, s.Ran (Play.final (act s)) ran ∧ Unrolled inFrame depth ran

namespace Play.Unrolls

variable {game : Game} {inFrame : Bool} {depth : Nat}

theorem forM {f : Event → Play Unit} (h : ∀ event, Unrolls inFrame depth (f event))
    (events : List Event) : Unrolls inFrame depth (events.forM f) := by
  induction events with
  | nil => exact fun s => ⟨[], .nil s, .nil⟩
  | cons event events ih =>
    intro s
    obtain ⟨ran, first, unrolled⟩ := h event s
    have run : (event :: events).forM f s = (f event >>= fun _ => events.forM f) s := rfl
    rw [run, bind_apply]
    cases is : f event s with
    | ok _ t =>
      rw [is] at first
      obtain ⟨more, rest, unrolled'⟩ := ih t
      exact ⟨ran ++ more, first.trans rest, unrolled.append unrolled'⟩
    | error e t =>
      rw [is] at first
      exact ⟨ran, first, unrolled⟩

/-- An event leaves its own entry behind, and then those of the list that it has run. -/
theorem runEvent {room : Nat} (level : room + depth = game.config.maxDepth) (event : Event) :
    Unrolls inFrame depth (Play.runEvent game room inFrame event) := by
  induction room generalizing depth event with
  | zero => exact fun s => ⟨[], .nil s, .nil⟩
  | succ room ih =>
    intro s
    let d : Dispatch :=
      ⟨event, inFrame, game.config.maxDepth - room, s.host.frame, s.vars, s.stage⟩
    have here : d.depth = depth + 1 := by
      change game.config.maxDepth - room = _
      omega
    have tells := tells_enact game inFrame event
      (s.recorded event inFrame (game.config.maxDepth - room))
    have alone {t : Session} (told : t.Tells (.event d :: s.journal)
        (s.stage.handlers ++ d.handler?.toList)) : s.Ran t [d] := told.ran
    rw [runEvent_succ, bind_apply]
    cases enacted : Play.enact game inFrame event
        (s.recorded event inFrame (game.config.maxDepth - room)) with
    | error e t =>
      rw [enacted] at tells
      exact ⟨[d], alone tells, .cons rfl here .nil fun _ => rfl⟩
    | ok next t =>
      rw [enacted] at tells
      cases next with
      | none => exact ⟨[d], alone tells, .cons rfl here .nil fun _ => rfl⟩
      | some next =>
        obtain ⟨rfl, unregistered⟩ := next_of_enact enacted
        have deeper : room + (depth + 1) = game.config.maxDepth := by omega
        obtain ⟨ran, rest, unrolled⟩ := forM (ih deeper) (game.graph.events next.1) t
        refine ⟨d :: ran, (alone tells).trans rest, .cons rfl here unrolled fun registered => ?_⟩
        have is : d.handler? = event.handler? next.2 := rfl
        rw [is, unregistered] at registered
        exact nomatch registered

theorem runEvents {room : Nat} (level : room + depth = game.config.maxDepth)
    (events : List Event) : Unrolls inFrame depth (Play.runEvents game room inFrame events) :=
  forM (runEvent level) events

theorem outermost (events : List Event) :
    Unrolls inFrame 0 (Play.runEvents game game.config.maxDepth inFrame events) := runEvents rfl events

end Play.Unrolls

/-! ### What walks keep -/

/-- What a stage was told by events: the handlers and the request for another scene. -/
def Stage.orders (stage : Stage) : List Event × Option SceneRequest :=
  (stage.handlers, stage.request)

/-- A session whose stage was told something of a kind. -/
def Session.Ordered (P : List Event × Option SceneRequest → Prop) (s : Session) : Prop :=
  P s.stage.orders

/-- The player under control tells the stage nothing. -/
theorem steady_ordered (P : List Event × Option SceneRequest → Prop) :
    Play.Steady (Session.Ordered P) where
  deed {d} steered {s} hs := by
    cases d with
    | turnActor index d => exact hs
    | turn d => exact hs
    | place map position => exact hs
    | camera position => exact hs
    | present change => exact hs
    | _ => exact steered.elim
  frame := .advance fun _ hs => hs

/-! ### What frames keep -/

/-- A session whose handlers have a property. -/
def Session.Handling (P : List Event → Prop) (s : Session) : Prop := P s.stage.handlers

theorem Play.Routine.handling {α : Type} {x : Play α} (h : Play.Routine x)
    {P : List Event → Prop} : Play.Keeps (Session.Handling P) x := by
  refine ⟨fun hs => ?_⟩
  obtain ⟨-, same⟩ := h.tells.final ⟨rfl, rfl⟩
  rw [Session.Handling, same]
  exact hs

namespace Play.Keeps

variable {game : Game} {P : List Event → Prop}

/-- In a frame no event changes the handlers, however deep it is nested. -/
theorem inFrame {depth : Nat} {act : Play Unit} (unrolls : Unrolls true depth act) :
    Keeps (Session.Handling P) act := by
  refine ⟨fun {s} hs => ?_⟩
  obtain ⟨ran, run, unrolled⟩ := unrolls s
  rw [Session.Handling, run.handlers, unrolled.handlers_eq_nil, List.append_nil]
  exact hs

theorem runList (list : Handle) : Keeps (Session.Handling P) (Play.runList game list true) :=
  inFrame (.outermost _)

theorem runEvent (event : Event) :
    Keeps (Session.Handling P) (Play.runEvent game game.config.maxDepth true event) := by
  have unrolls : Unrolls true 0 (Play.runEvent game game.config.maxDepth true event) :=
    .runEvent rfl event
  exact inFrame unrolls

theorem steady (P : List Event → Prop) : Steady (Session.Handling P) :=
  steady_ordered fun orders => P orders.1

theorem playFrame : Keeps (Session.Handling P) (Play.playFrame game) :=
  (steady P).playFrame runEvent

end Play.Keeps

/-- A frame leaves the handlers as they are, however it ends. -/
theorem Play.handlers_playFrame (game : Game) (s : Session) :
    (Play.final (Play.playFrame game s)).stage.handlers = s.stage.handlers :=
  (Play.Keeps.playFrame (P := (· = s.stage.handlers))).final rfl

/-! ### Entering a scene -/

namespace Play

/-- Furnish a scene, up to the events of the scene. -/
def arrange (game : Game) (scene : Scene) : Play Unit := do
  modify fun s => { s with host := s.host.setCamera s.stage.camera }
  scene.props.forM (enterProp scene.map)
  scene.actors.forM fun definition => do
    enterActor scene.map definition
    runList game definition.init false
  modify fun s => { s with stage := { s.stage with handlers := [] }, entered := s.entered + 1 }
  note (.sceneEntered scene.label scene.actors.length (← get).stage.player.isSome)

/-- Leave the stage for that of another scene and bring everything onto it, up to the events of the
scene. -/
def prepare (game : Game) (name : String) : Play Scene := do
  let scene ← openScene game.graph name
  showBackground
  if let some spawn := scene.player then enterPlayer game.config scene spawn
  arrange game scene
  return scene

/-- A scene is entered by preparing it and running its events. -/
theorem enterScene_eq (game : Game) (name : String) :
    enterScene game name = prepare game name >>= fun scene => runList game scene.events false := by
  have furnish_eq (scene : Scene) :
      furnish game scene = arrange game scene >>= fun _ => runList game scene.events false := by
    unfold furnish arrange
    simp only [bind_assoc]
  unfold enterScene build prepare
  rw [bind_assoc]
  refine congrArg _ (funext fun scene => ?_)
  cases scene.player <;> simp only [furnish_eq, bind_assoc, pure_bind]

/-- No handler is left when a scene is prepared. -/
theorem handlers_of_arrange {game : Game} {scene : Scene} {a : Unit} {s t : Session}
    (h : arrange game scene s = .ok a t) : t.stage.handlers = [] := by
  obtain ⟨_, u, -, h⟩ := bind_eq_ok_iff.mp h
  obtain ⟨_, v, -, h⟩ := bind_eq_ok_iff.mp h
  obtain ⟨_, w, -, h⟩ := bind_eq_ok_iff.mp h
  cases h
  rfl

theorem of_prepare {game : Game} {name : String} {scene : Scene} {s t : Session}
    (h : prepare game name s = .ok scene t) :
    scene = game.graph.scene name ∧ t.stage.handlers = [] := by
  obtain ⟨opened, u, first, h⟩ := bind_eq_ok_iff.mp h
  obtain ⟨is, -, -⟩ := bare_of_openScene first
  obtain ⟨_, v, -, h⟩ := bind_eq_ok_iff.mp h
  have rest (w : Session) (h : (arrange game opened >>= fun _ => Pure.pure opened) w = .ok scene t) :
      scene = game.graph.scene name ∧ t.stage.handlers = [] := by
    obtain ⟨_, x, arranged, h⟩ := bind_eq_ok_iff.mp h
    cases h
    exact ⟨is, handlers_of_arrange arranged⟩
  cases hasPlayer : opened.player with
  | none =>
    rw [hasPlayer] at h
    exact rest v h
  | some spawn =>
    rw [hasPlayer] at h
    obtain ⟨_, w, -, h⟩ := bind_eq_ok_iff.mp h
    exact rest w h

end Play

/-- Handlers that wait for a press of buttons. -/
def Waiting (handlers : List Event) : Prop :=
  ∀ event ∈ handlers, ∃ buttons body, event = .onButtonPress buttons body

theorem waiting_nil : Waiting [] := List.forall_mem_nil _

namespace Play.Keeps

variable {game : Game}

/-- On entry nothing is registered but what waits for a press of buttons. -/
theorem onEntry (list : Handle) :
    Keeps (Session.Handling Waiting) (Play.runList game list false) := by
  refine ⟨fun {s} hs => ?_⟩
  have unrolls : Unrolls false 0 (Play.runList game list false) := .outermost _
  obtain ⟨ran, run, -⟩ := unrolls s
  rw [Session.Handling, run.handlers]
  refine List.forall_mem_append.mpr ⟨hs, fun event mem => ?_⟩
  obtain ⟨d, -, is⟩ := List.mem_filterMap.mp mem
  exact Event.handler?_eq_some is

/-- Nothing is registered by what comes onto the stage. -/
theorem welcomes : Play.Welcomes game (Session.Handling Waiting) where
  steady := steady Waiting
  reports _ hs := hs
  shows hs := hs
  arrival a {_} hs := by
    cases a with
    | ready => exact waiting_nil
    | _ => exact hs

theorem enterScene (name : String) :
    Keeps (Session.Handling Waiting) (Play.enterScene game name) :=
  ⟨fun _ => welcomes.enterScene onEntry waiting_nil⟩

theorem playScene {P : List Event → Prop} :
    Keeps (Session.Handling P) (Play.playScene game) :=
  ((steady P).framesUntilRequest runEvent _).bind fun request =>
    (Play.Routine.changeBackground _).handling.bind fun _ =>
      Play.Routine.showBackground.handling.bind fun _ => .bind ⟨id⟩ fun _ => .pure request

theorem run : Keeps (Session.Handling Waiting) (Play.run game) := by
  have visit (name : String) : Keeps (Session.Handling Waiting) (Play.visit game name) :=
    (enterScene name).bind fun _ => playScene
  have scenes (n : Nat) (name : String) :
      Keeps (Session.Handling Waiting) (Play.playScenes game n name) := by
    induction n generalizing name with
    | zero => exact .throw _
    | succ n ih =>
      refine ⟨fun {s} hs => ?_⟩
      have visited := (visit name).final hs
      rw [Play.playScenes_succ]
      cases is : Play.visit game name s with
      | ok request t =>
        rw [is] at visited
        exact (ih request.target).final visited
      | error e t =>
        rw [is] at visited
        cases e <;> exact visited
  exact .reads fun s => (scenes _ _).bind fun stop => .reads fun t =>
    (Play.Routine.note _).handling.bind fun _ => .pure _

theorem call (call : Call) : Keeps (Session.Handling Waiting) (call.perform game) := by
  cases call with
  | enter name => exact enterScene name
  | frame => exact playFrame
  | scene => exact playScene.bind fun _ => .pure ()
  | run => exact run.bind fun _ => .pure ()
  | list events inFrame =>
    cases inFrame with
    | true => exact runList events
    | false => exact onEntry events

end Play.Keeps

/-- Whatever is asked of a game, its handlers wait for a press of buttons. -/
theorem handling_after {game : Game} {host : Host} {s : Session} (start : game.session host = .ok s)
    (calls : List Call) : (s.after game calls).Handling Waiting := by
  have handling : s.Handling Waiting := by
    obtain ⟨vars, -, rfl⟩ := Game.session_eq_ok_iff.mp start
    exact waiting_nil
  clear start
  induction calls generalizing s with
  | nil => exact handling
  | cons call calls ih => exact ih ((Play.Keeps.call call).final handling)

/-! ### The law of handlers -/

/-- How a session comes to its handlers, now and in whatever is asked of it next. -/
structure Session.RegistersOnEntry (game : Game) (s : Session) : Prop where
  waiting : Waiting s.stage.handlers
  /-- However deep a list is nested and however it ends, the journal tells what it has run and
  registered. -/
  lists (inFrame : Bool) {room depth : Nat} (level : room + depth = game.config.maxDepth)
    (events : List Event) :
    ∃ ran, s.Ran (Play.final (Play.runEvents game room inFrame events s)) ran ∧
      Unrolled inFrame depth ran
  /-- Wherever an event that waits for buttons is run on entry, nothing else is done than to write it
  down and to register it: its body has no effect. -/
  registers (t : Session) (room : Nat) (buttons : List Button) (body : Handle) :
    Play.runEvent game (room + 1) false (.onButtonPress buttons body) t =
      .ok ()
        { t.recorded (.onButtonPress buttons body) false (game.config.maxDepth - room) with
          stage :=
            { t.stage with handlers := t.stage.handlers ++ [.onButtonPress buttons body] } }
  /-- In a frame nothing is registered. -/
  inFrame {room depth : Nat} (level : room + depth = game.config.maxDepth) (events : List Event) :
    (Play.final (Play.runEvents game room true events s)).stage.handlers = s.stage.handlers
  frame : (Play.final (Play.playFrame game s)).stage.handlers = s.stage.handlers
  /-- When a scene was entered, its handlers are those that its own events have registered since
  everything else was there. -/
  entered {name : String} {t : Session} (entered : Play.enterScene game name s = .ok () t) :
    ∃ u ran, Play.prepare game name s = .ok (game.graph.scene name) u ∧
      Play.runList game (game.graph.scene name).events false u = .ok () t ∧
      u.Ran t ran ∧ Unrolled false 0 ran ∧ t.stage.handlers = ran.filterMap (·.handler?)

/-- A session with handlers that wait for buttons registers no others. -/
theorem Session.Handling.registersOnEntry {s : Session} (h : s.Handling Waiting) (game : Game) :
    s.RegistersOnEntry game where
  waiting := h
  lists inFrame _ _ level events := Play.Unrolls.runEvents level events s
  registers _ _ _ _ := rfl
  inFrame level events :=
    (Play.Keeps.inFrame (P := (· = s.stage.handlers)) (.runEvents level events)).final rfl
  frame := Play.handlers_playFrame game s
  entered {name t} entered := by
    rw [Play.enterScene_eq] at entered
    obtain ⟨scene, u, prepared, ran⟩ := Play.bind_eq_ok_iff.mp entered
    obtain ⟨rfl, bare⟩ := Play.of_prepare prepared
    have unrolls : Play.Unrolls false 0 (Play.runList game (game.graph.scene name).events false) :=
      .outermost _
    obtain ⟨dispatches, run, unrolled⟩ := unrolls u
    rw [ran] at run
    refine ⟨u, dispatches, prepared, ran, run, unrolled, ?_⟩
    have handlers := run.handlers
    rw [bare] at handlers
    exact handlers

/-- **Handlers are registered on entry.** At any time of a game, from its start on and whatever was
asked of it, each handler waits for a press of buttons. Lists that are run in a frame leave the
handlers as they are; lists that are run on entry add one for each event that waits for buttons, in
order and without running its body; and a scene that was entered has the handlers of its own
events. -/
theorem registersOnEntry_session {game : Game} {input : InputScript} {budget : Option Nat}
    {stops : Bool} {s : Session} (start : game.session (.fresh input budget stops) = .ok s)
    (calls : List Call) : (s.after game calls).RegistersOnEntry game :=
  (handling_after start calls).registersOnEntry game

/-- A yard with a bell, which a script of the yard has rung by a button. The guard waits for another
button, but not in the yard. -/
def Game.bell : Game where
  graph :=
    { SceneGraph.empty with
      lists :=
        [[], [.runScript "bells"], [.branch [] ⟨3⟩ ⟨0⟩], [.onButtonPress [.activate] ⟨4⟩],
          [.playSound "ding" 100 1 0 0], [.onButtonPress [.select] ⟨4⟩]]
      scripts := [⟨"", "bells", ⟨2⟩⟩]
      scenes :=
        [{ Scene.called "yard" with
            events := ⟨1⟩
            map := some ⟨3, 2, 8, [0, 0, 0, 0, 0, 0], []⟩
            player := some (.at 0 0)
            actors := [{ ActorDef.at "guard" 1 1 with init := ⟨5⟩ }] }] }
  config := .standard

/-- In the yard the event of the guard is run, and then the script, the branch in it and the event in
the branch, which alone is registered and run again in the frame. -/
theorem registersOnEntry_session_bell :
    ∃ s, Game.bell.session (.fresh .empty (some 9) false) = .ok s ∧
      (s.after Game.bell [.enter "yard", .frame]).RegistersOnEntry Game.bell ∧
      (s.after Game.bell [.enter "yard", .frame]).stage.handlers =
        [.onButtonPress [.activate] ⟨4⟩] ∧
      (s.after Game.bell [.enter "yard", .frame]).current.map (·.depth) = [1, 3, 2, 1, 1] :=
  ⟨_, rfl, registersOnEntry_session rfl _, by decide +kernel, by decide +kernel⟩

end Overworld
