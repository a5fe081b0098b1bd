import Overworld.Proofs.Forgetting
import Overworld.Proofs.Inlining
import Overworld.Proofs.Rewiring

/-!
Events that do nothing.

An event that is switched off, or whose kind is not known, leaves an entry in the journal and at most
a report of itself. Nothing that is played reads either, so a graph without such events plays like
the graph with them, unless one of them is nested so deep that it comes to the limit: that is the
only way in which it can be noticed. The runs are compared as in a simulation, where an idle event on
one side is matched by nothing on the other (`Simulation.Tracks.idle`).
-/

namespace Overworld

open Simulation

/-! ### Graphs without idle events -/

/-- An event that does nothing. -/
def Event.isIdle : Event → Bool
  | .disabled _ | .unknown => true
  | _ => false

/-- The graph without its idle events, in whichever list they are. -/
def SceneGraph.pruned (g : SceneGraph) : SceneGraph :=
  { g with lists := g.lists.map fun events => events.filter (!·.isIdle) }

/-- The handles lead to the same lists, but for the idle events. -/
theorem SceneGraph.events_pruned (g : SceneGraph) (h : Handle) :
    g.pruned.events h = (g.events h).filter (!·.isIdle) := by
  unfold events pruned
  rw [List.getElem?_map]
  cases g.lists[h.index]? <;> rfl

/-- The game without the idle events of its graph. -/
def Game.pruned (game : Game) : Game := game.withGraph game.graph.pruned

/-! ### Sessions without what idle events leave -/

/-- An entry that an idle event leaves. -/
def Entry.isIdle : Entry → Bool
  | .event dispatch => dispatch.event.isIdle
  | .scene _ => false

/-- The session without what idle events write down and report. -/
def Session.awake (s : Session) : Session :=
  { s with
    notices := ⟨s.notices.toList.filter (· != .unknownEvent)⟩
    journal := s.journal.filter (!·.isIdle) }

theorem Session.awake_awake (s : Session) : s.awake.awake = s.awake := by
  simp [awake]

/-- No deed goes by what idle events leave. -/
theorem Deed.awake_apply (s : Session) (d : Deed) : (d.apply s).awake = (d.apply s.awake).awake := by
  cases d with
  | note notice => simp [apply, Session.awake]
  | record event inFrame depth =>
    simp [apply, Session.awake, Session.recorded, List.filter_cons]
  | request request inFrame depth =>
    simp [apply, Session.awake, Session.recorded, List.filter_cons]
  | _ => exact (Session.awake_awake _).symm

/-- An idle event leaves nothing else. -/
theorem Session.awake_recorded (s : Session) {event : Event} (idle : event.isIdle) (inFrame : Bool)
    (depth : Nat) : (s.recorded event inFrame depth).awake = s.awake := by
  simp [awake, recorded, Entry.isIdle, idle]

theorem Session.awake_reported (s : Session) :
    { s with notices := s.notices.push .unknownEvent }.awake = s.awake := by
  simp [awake]

/-- A game beside itself: both runs go alike but for what idle events leave, or the first has come
to the limit of nesting. -/
def idling (game : Game) : Simulation game game.config.maxDepth where
  related s t := t.awake = s.awake
  mayEnd _ := True
  mayCut e _ _ := e = .nestingTooDeep game.config.maxDepth
  stage same := (congrArg (·.stage) same :)
  vars same := (congrArg (·.vars) same :)
  pending same := (congrArg (·.pending) same :)
  states same := (congrArg (·.host.states) same :)
  music same := (congrArg (·.host.music) same :)
  deed _ same _ := by rw [Deed.awake_apply, same, ← Deed.awake_apply]
  frame same goes :=
    ⟨(congrArg (·.host.stop?) same).trans goes,
      (congrArg (fun u : Session => { u with host := u.host.afterFrame }) same :)⟩
  stop same stops := .inl ⟨(congrArg (·.host.stop?) same).trans stops, trivial⟩
  undeclared _ := trivial
  tooDeep := trivial
  sound := .inl ⟨trivial, trivial⟩
  levels := .inl rfl
  grown cut _ := cut

/-! ### Events without idle ones among them -/

namespace Simulation.Tracks

variable {game : Game}

/-- An idle event is matched by nothing. -/
theorem idle (room : Nat) (inFrame : Bool) {event : Event} (idle : event.isIdle) :
    (idling game).Tracks (Play.runEvent game room inFrame event) (Pure.pure ()) := by
  refine ⟨fun {s t} related => ?_, .pure ()⟩
  have same : t.awake = s.awake := related
  cases room with
  | zero => exact .cut rfl
  | succ room =>
    have written := s.awake_recorded idle inFrame (game.config.maxDepth - room)
    cases event with
    | disabled kind =>
      have still : (idling game).related _ t := same.trans written.symm
      exact .ok () still
    | unknown =>
      have still : (idling game).related _ t :=
        same.trans ((Session.awake_reported _).trans written).symm
      exact .ok () still
    | _ => exact nomatch idle

/-- A list goes like the list without its idle events, if each of the others goes alike. -/
theorem forM_pruned {f g : Event → Play Unit}
    (wakes : ∀ event, event.isIdle = false → (idling game).Tracks (f event) (g event))
    (idles : ∀ event, event.isIdle → (idling game).Tracks (f event) (Pure.pure ()))
    (events : List Event) :
    (idling game).Tracks (events.forM f) ((events.filter (!·.isIdle)).forM g) := by
  induction events with
  | nil => exact .pure ()
  | cons event events ih =>
    cases is : event.isIdle with
    | true =>
      rw [List.filter_cons_of_neg (by simp [is])]
      exact (idles event is).bind fun _ => ih
    | false =>
      rw [List.filter_cons_of_pos (by simp [is])]
      exact (wakes event is).bind fun _ => ih

/-- What an event does itself does not go by the lists. -/
theorem enact_pruned (game : Game) (inFrame : Bool) (event : Event) :
    Play.enact game.pruned inFrame event = Play.enact game inFrame event := by
  cases event <;> rfl

/-- An event goes alike in the graph without idle events, if it is none of them. -/
theorem runEvent_pruned (room : Nat) (inFrame : Bool) {event : Event} (wakes : event.isIdle = false) :
    (idling game).Tracks (Play.runEvent game room inFrame event)
      (Play.runEvent game.pruned room inFrame event) := by
  induction room generalizing inFrame event with
  | zero => exact ⟨fun _ => .cut rfl, .throw _⟩
  | succ room ih =>
    by_cases asks : ∃ target start, event = .goToScene target start
    · obtain ⟨target, start, rfl⟩ := asks
      exact .deed (fun _ => .request ⟨target, start⟩ inFrame (game.config.maxDepth - room))
        (fun _ => trivial) (fun _ => trivial) fun _ => rfl
    · have other (target : String) (start : StartPosition) : event ≠ .goToScene target start :=
        fun is => asks ⟨target, start, is⟩
      unfold Play.runEvent
      rw [enact_pruned]
      refine .bind (.deed (fun _ => .record event inFrame _) (fun _ => trivial) (fun _ => other)
        fun _ => rfl) fun _ => (enact inFrame other).bind fun next => ?_
      cases next with
      | none => exact .pure ()
      | some next =>
        have pruned := game.graph.events_pruned next.1
        change (idling game).Tracks _ (List.forM (game.graph.pruned.events next.1) _)
        rw [pruned]
        exact forM_pruned (fun event wakes => ih next.2 wakes)
          (fun event idles => idle room next.2 idles) _

/-- So does a list without its idle events. -/
theorem runEvents_pruned (room : Nat) (inFrame : Bool) (events : List Event) :
    (idling game).Tracks (Play.runEvents game room inFrame events)
      (Play.runEvents game.pruned room inFrame (events.filter (!·.isIdle))) :=
  forM_pruned (fun _ wakes => runEvent_pruned room inFrame wakes)
    (fun _ idles => idle room inFrame idles) events

end Simulation.Tracks

/-! ### The law of idle events -/

/-- Two runs that end alike: with one result, and with the stage, the variables and the host as they
are in both. -/
structure Play.AlikeAwake {α : Type} (r r' : EStateM.Result Halt Session α) : Prop where
  outcome : Play.outcome r' = Play.outcome r
  stage : (Play.final r').stage = (Play.final r).stage
  vars : (Play.final r').vars = (Play.final r).vars
  host : (Play.final r').host = (Play.final r).host
  /-- Nothing else tells them apart than what idle events write down and report. -/
  rest : (Play.final r').awake = (Play.final r).awake

theorem Play.AlikeAwake.of_outcome {α : Type} {r r' : EStateM.Result Halt Session α}
    (outcome : Play.outcome r' = Play.outcome r)
    (rest : (Play.final r').awake = (Play.final r).awake) : Play.AlikeAwake r r' where
  outcome := outcome
  stage := (congrArg (·.stage) rest :)
  vars := (congrArg (·.vars) rest :)
  host := (congrArg (·.host) rest :)
  rest := rest

/-- What goes alike but for idle events ends alike, unless it comes to the limit. -/
theorem Simulation.Tracks.alikeAwake {game : Game} {α : Type} {x y : Play α}
    (h : (idling game).Tracks x y) {s : Session} (shallow : ¬Play.TooDeep (x s)) :
    Play.AlikeAwake (x s) (y s) := by
  have joined : (idling game).Joined (x s) (y s) := h.joined rfl
  generalize x s = r, y s = r' at joined shallow
  cases joined with
  | ok a same => exact .of_outcome rfl same
  | error same may => exact .of_outcome rfl same
  | cut cut =>
    rw [show _ = _ from cut] at shallow
    exact absurd trivial shallow

/-- **Events that do nothing make no difference.** A list that is run from any depth without coming
to the limit of nesting ends in the same way when the events that are switched off or not known are
taken out of the whole graph. -/
theorem skipsIdle_of_shallow {game : Game} {depth : Nat} {inFrame : Bool} {list : Handle}
    {s : Session}
    (shallow : ¬Play.TooDeep
      (Play.runEvents game (game.config.maxDepth - depth) inFrame (game.graph.events list) s)) :
    Play.AlikeAwake
      (Play.runEvents game (game.config.maxDepth - depth) inFrame (game.graph.events list) s)
      (Play.runEvents game.pruned (game.pruned.config.maxDepth - depth) inFrame
        (game.pruned.graph.events list) s) := by
  have pruned : game.pruned.graph.events list = _ := game.graph.events_pruned list
  have alike := @Tracks.runEvents_pruned game (game.config.maxDepth - depth) inFrame
    (game.graph.events list)
  rw [← pruned] at alike
  exact alike.alikeAwake shallow

/-- A game with idle events around a branch, in it, and in the script that it runs. -/
def Game.drowsy : Game where
  graph :=
    { SceneGraph.empty with
      lists :=
        [[], [.unknown, .branch [] ⟨2⟩ ⟨3⟩, .disabled "wait"], [.disabled "wait", .runScript "nap"],
          [.unknown], [.playSound "yawn" 100 1 0 0, .unknown, .goToScene "yard" .unset]]
      scripts := [⟨"", "nap", ⟨4⟩⟩] }
  config := .standard

/-- The script of the drowsy game is on the last level that there is. -/
theorem skipsIdle_of_shallow_drowsy :
    let game := Game.drowsy
    ¬Play.TooDeep (Play.runEvents game (game.config.maxDepth - 61) false (game.graph.events ⟨1⟩)
        (.sample .empty 9)) ∧
      Play.AlikeAwake
        (Play.runEvents game (game.config.maxDepth - 61) false (game.graph.events ⟨1⟩)
          (.sample .empty 9))
        (Play.runEvents game.pruned (game.pruned.config.maxDepth - 61) false
          (game.pruned.graph.events ⟨1⟩) (.sample .empty 9)) := by
  intro game
  have shallow : ¬Play.TooDeep (Play.runEvents game (game.config.maxDepth - 61) false
      (game.graph.events ⟨1⟩) (.sample .empty 9)) := by decide +kernel
  exact ⟨shallow, skipsIdle_of_shallow shallow⟩

/-- One level deeper than there are, an idle event is noticed. -/
example :
    Play.TooDeep (Play.runEvents .drowsy (Game.drowsy.config.maxDepth - 64) false
        (Game.drowsy.graph.events ⟨3⟩) (.sample .empty 9)) ∧
      ¬Play.TooDeep (Play.runEvents Game.drowsy.pruned (Game.drowsy.config.maxDepth - 64) false
        (Game.drowsy.pruned.graph.events ⟨3⟩) (.sample .empty 9)) := by
  decide +kernel

end Overworld
