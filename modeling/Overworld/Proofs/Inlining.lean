import Overworld.Proofs.Edges
import Overworld.Proofs.Nesting
import Overworld.Proofs.Validity

/-!
Running a script is running its events in its place.

A script is run one level deeper than the event that names it, and its events in its place are not.
So what has to be compared are runs of the same events with different numbers of levels left. Such
runs write down other depths in the journal, and the one with fewer levels may come to the limit;
beyond that nothing tells them apart (`Simulation.Tracks.deeper`). The journal is never read, so
that what a deed does to the rest of a session goes by the rest of it (`Deed.unwritten_apply`).
-/

namespace Overworld

open Simulation

/-! ### Sessions without their journals -/

/-- The session with nothing written down. -/
def Session.unwritten (s : Session) : Session := { s with journal := [] }

/-- No deed goes by the journal. -/
theorem Deed.unwritten_apply (s : Session) (d : Deed) :
    (d.apply s).unwritten = (d.apply s.unwritten).unwritten := by
  cases d <;> rfl

/-- Two actions that ended alike: with the same result, and in sessions that only their journals
tell apart. -/
inductive Play.SameEnd {α : Type} :
    EStateM.Result Halt Session α → EStateM.Result Halt Session α → Prop
  | ok (a : α) {s t : Session} (same : t.unwritten = s.unwritten) : SameEnd (.ok a s) (.ok a t)
  | error (e : Halt) {s t : Session} (same : t.unwritten = s.unwritten) :
    SameEnd (.error e s) (.error e t)

/-- A game beside itself: both runs go alike but for their journals, or the first has come to the
limit of nesting. -/
def unwriting (game : Game) : Simulation game game.config.maxDepth where
  related s t := t.unwritten = s.unwritten
  mayEnd _ := True
  mayCut e _ _ := e = .nestingTooDeep game.config.maxDepth
  stage same := (congrArg (·.stage) same :)
  vars same := (congrArg (·.vars) same :)
  pending same := (congrArg (·.pending) same :)
  states same := (congrArg (·.host.states) same :)
  music same := (congrArg (·.host.music) same :)
  deed _ same _ := by rw [Deed.unwritten_apply, same, ← Deed.unwritten_apply]
  frame same goes :=
    ⟨(congrArg (·.host.stop?) same).trans goes,
      (congrArg (fun u : Session => { u with host := u.host.afterFrame }) same :)⟩
  stop same stops := .inl ⟨(congrArg (·.host.stop?) same).trans stops, trivial⟩
  undeclared _ := trivial
  tooDeep := trivial
  sound := .inl ⟨trivial, trivial⟩
  levels := .inl rfl
  grown cut _ := cut

namespace Simulation.Tracks

variable {game : Game} {α : Type}

/-- What goes alike but for the journal ends alike, unless it comes to the limit. -/
theorem sameEnd {x y : Play α} (h : (unwriting game).Tracks x y) {s t : Session}
    (same : t.unwritten = s.unwritten) (shallow : ¬Play.TooDeep (x s)) :
    Play.SameEnd (x s) (y t) := by
  have joined : (unwriting game).Joined (x s) (y t) := h.joined same
  generalize x s = r, y t = r' at joined shallow
  cases joined with
  | ok a same => exact .ok a same
  | error same may => exact .error _ same
  | cut cut =>
    rw [show _ = _ from cut] at shallow
    exact absurd trivial shallow

/-! ### Events with more levels left -/

/-- An event is written down at either depth. -/
theorem recordEvent (event : Event) (inFrame : Bool) (depth depth' : Nat) :
    (unwriting game).Tracks (Play.recordEvent event inFrame depth)
      (Play.recordEvent event inFrame depth') where
  joined related := .ok () related
  grows s := .recorded s event inFrame depth'

/-- A request for a scene does not go by the journal. -/
theorem requestScene (request : SceneRequest) :
    (unwriting game).Tracks (Play.requestScene request) (Play.requestScene request) := by
  refine (note _).bind fun _ =>
    ⟨fun {s t} related => .ok () ?_, fun _ => .of_eq rfl rfl rfl rfl rfl rfl⟩
  have same : t.unwritten = s.unwritten := related
  exact congrArg
    (fun u : Session => { u with stage := { u.stage with request := some request } }) same

/-- Nor does anything that an event does itself. -/
theorem enact_unwriting (inFrame : Bool) (event : Event) :
    (unwriting game).Tracks (Play.enact game inFrame event) (Play.enact game inFrame event) := by
  by_cases asks : ∃ target start, event = .goToScene target start
  · obtain ⟨target, start, rfl⟩ := asks
    exact (requestScene ⟨target, start⟩).bind fun _ => .pure none
  · exact enact inFrame fun target start is => asks ⟨target, start, is⟩

/-- An event runs alike with more levels left. -/
theorem deeper {room more : Nat} (le : room ≤ more) (inFrame : Bool) (event : Event) :
    (unwriting game).Tracks (Play.runEvent game room inFrame event)
      (Play.runEvent game more inFrame event) := by
  -- By induction on the levels of the run that has fewer: where it has none left it has come to the
  -- limit, and nothing more is asked of the other.
  induction room generalizing more inFrame event with
  | zero => exact ⟨fun _ => .cut rfl, grows_runEvent game more inFrame event⟩
  | succ room ih =>
    obtain ⟨more, rfl⟩ : ∃ n, more = n + 1 := ⟨more - 1, by omega⟩
    refine (recordEvent event inFrame _ _).bind fun _ => (enact_unwriting inFrame event).bind
      fun next => ?_
    cases next with
    | none => exact .pure ()
    | some next => exact .forM fun event _ => ih (Nat.le_of_succ_le_succ le) next.2 event

theorem deeper_runEvents {room more : Nat} (le : room ≤ more) (inFrame : Bool)
    (events : List Event) :
    (unwriting game).Tracks (Play.runEvents game room inFrame events)
      (Play.runEvents game more inFrame events) :=
  .forM fun event _ => deeper le inFrame event

/-! ### Scripts in place -/

/-- A script runs as its events do in its place, which are one level less deep. -/
theorem runScript (room : Nat) (inFrame : Bool) (name : String) :
    (unwriting game).Tracks (Play.runEvent game room inFrame (.runScript name))
      (Play.runEvents game room inFrame (game.graph.events (game.graph.script name).events)) := by
  have body : (unwriting game).Tracks _ _ := deeper_runEvents (Nat.sub_le room 1) inFrame
    (game.graph.events (game.graph.script name).events)
  refine ⟨fun {s t} related => ?_, body.grows⟩
  cases room with
  | zero => exact .cut rfl
  | succ room => exact body.joined related

theorem inlined (room : Nat) (inFrame : Bool) (before : List Event) (name : String)
    (after : List Event) :
    (unwriting game).Tracks
      (Play.runEvents game room inFrame (before ++ .runScript name :: after))
      (Play.runEvents game room inFrame
        (before ++ game.graph.events (game.graph.script name).events ++ after)) := by
  have same (events : List Event) : (unwriting game).Tracks
      (Play.runEvents game room inFrame events) (Play.runEvents game room inFrame events) :=
    deeper_runEvents (Nat.le_refl room) inFrame events
  rw [List.append_assoc, Play.runEvents_append, Play.runEvents_append]
  refine (same before).bind fun _ => ?_
  rw [Play.runEvents_append]
  exact (runScript room inFrame name).bind fun _ => same after

end Simulation.Tracks

/-! ### The law of scripts -/

/-- The events that a script runs: those of its list, and those of the reserved list, of which a
sound graph has none, if there is no script of the name. -/
def SceneGraph.scriptEvents (g : SceneGraph) (name : String) : List Event :=
  match g.scripts.find? (·.answersTo name) with
  | some script => g.events script.events
  | none => g.events .empty

theorem SceneGraph.scriptEvents_eq (g : SceneGraph) (name : String) :
    g.scriptEvents name = g.events (g.script name).events := by
  unfold scriptEvents script
  cases g.scripts.find? (·.answersTo name) <;> rfl

/-- What running a script between other events comes to in a session, from any depth: the same as
running its events in its place. -/
structure Session.RunsInPlace (game : Game) (depth : Nat) (inFrame : Bool) (before : List Event)
    (name : String) (after : List Event) (s : Session) : Prop where
  /-- Both end alike. -/
  alike : Play.SameEnd
    (Play.runEvents game (game.config.maxDepth - depth) inFrame
      (before ++ .runScript name :: after) s)
    (Play.runEvents game (game.config.maxDepth - depth) inFrame
      (before ++ game.graph.scriptEvents name ++ after) s)
  /-- What halts the script halts the events in its place, and in both nothing is run after it. -/
  cut {t u : Session} {e : Halt}
    (reached : Play.runEvents game (game.config.maxDepth - depth) inFrame before s = .ok () t)
    (halts : Play.runEvent game (game.config.maxDepth - depth) inFrame (.runScript name) t =
      .error e u) :
    Play.runEvents game (game.config.maxDepth - depth) inFrame
        (before ++ .runScript name :: after) s = .error e u ∧
      ∃ v, v.unwritten = u.unwritten ∧
        Play.runEvents game (game.config.maxDepth - depth) inFrame
          (before ++ game.graph.scriptEvents name) s = .error e v ∧
        Play.runEvents game (game.config.maxDepth - depth) inFrame
          (before ++ game.graph.scriptEvents name ++ after) s = .error e v
  /-- In a checked graph there is nothing in place of a script that does not exist. -/
  unknown (ok : game.graph.check = .ok ())
    (missing : game.graph.scripts.find? (·.answersTo name) = none) :
    game.graph.scriptEvents name = []

namespace Play

variable {game : Game} {room : Nat} {inFrame : Bool} {s t u : Session} {e : Halt}

/-- What halts after some events are run halts the whole list. -/
theorem runEvents_append_error {first : List Event} (last : List Event)
    (halts : runEvents game room inFrame first s = .error e u) :
    runEvents game room inFrame (first ++ last) s = .error e u := by
  rw [runEvents_append, bind_apply, halts]

theorem runEvents_append_ok {first : List Event} (last : List Event)
    (reached : runEvents game room inFrame first s = .ok () t) :
    runEvents game room inFrame (first ++ last) s = runEvents game room inFrame last t := by
  rw [runEvents_append, bind_apply, reached]

theorem runEvents_singleton (game : Game) (room : Nat) (inFrame : Bool) (event : Event) :
    runEvents game room inFrame [event] = runEvent game room inFrame event := bind_pure_unit

end Play

/-- **Running a script is running its events in its place.** Unless it comes to the limit of
nesting, a list of events that names a script ends like the list with the events of the script in
its place, and leaves the same session but for what is written down. -/
theorem runsInPlace_of_shallow {game : Game} {depth : Nat} {inFrame : Bool} {before : List Event}
    {name : String} {after : List Event} {s : Session}
    (shallow : ¬Play.TooDeep (Play.runEvents game (game.config.maxDepth - depth) inFrame
      (before ++ .runScript name :: after) s)) :
    s.RunsInPlace game depth inFrame before name after where
  alike := by
    rw [SceneGraph.scriptEvents_eq]
    exact (Tracks.inlined _ inFrame before name after).sameEnd rfl shallow
  cut {t u e} reached halts := by
    -- The script halts what ends with it, so in place of it its events halt what ends with them.
    have cut : Play.runEvents game (game.config.maxDepth - depth) inFrame
        (before ++ [.runScript name]) s = .error e u := by
      rw [Play.runEvents_append_ok _ reached, Play.runEvents_singleton, halts]
    have whole := Play.runEvents_append_error after cut
    rw [List.append_assoc, List.singleton_append] at whole
    rw [whole] at shallow
    have alike : Play.SameEnd _ _ :=
      (Tracks.inlined _ inFrame before name []).sameEnd rfl (cut.symm ▸ shallow)
    rw [cut, List.append_nil, ← SceneGraph.scriptEvents_eq] at alike
    generalize inPlace : Play.runEvents game _ inFrame (before ++ _) s = r at alike
    cases alike with
    | error e same => exact ⟨whole, _, same, rfl, Play.runEvents_append_error after inPlace⟩
  unknown ok missing := by
    have valid := SceneGraph.check_eq_ok_iff_valid.mp ok
    simp only [SceneGraph.scriptEvents, missing, valid.events_empty]

/-- The script of the bell registers its handler in a branch, two levels deeper than the branch in
its place does, and the next scene is asked for after it. -/
theorem runsInPlace_of_shallow_bell :
    ¬Play.TooDeep (Play.runEvents Game.bell (Game.bell.config.maxDepth - 61) false
        ([.playSound "tick" 100 1 0 0] ++ .runScript "bells" :: [.goToScene "yard" .unset])
        (.sample .empty 9)) ∧
      (Session.sample .empty 9).RunsInPlace Game.bell 61 false [.playSound "tick" 100 1 0 0] "bells"
        [.goToScene "yard" .unset] :=
  have shallow : ¬Play.TooDeep (Play.runEvents Game.bell (Game.bell.config.maxDepth - 61) false
      ([.playSound "tick" 100 1 0 0] ++ .runScript "bells" :: [.goToScene "yard" .unset])
      (.sample .empty 9)) := by decide +kernel
  ⟨shallow, runsInPlace_of_shallow shallow⟩

/-- A game whose reserved list is not empty, as no sound graph has it. -/
def Game.unreserved : Game where
  graph := { SceneGraph.empty with lists := [[.goToScene "yard" .unset]] }
  config := .standard

/-- Where the reserved list has events, running a script that does not exist is not running
nothing. -/
theorem not_always_nothing :
    ¬∀ (game : Game) (depth : Nat) (inFrame : Bool) (before : List Event) (name : String)
        (after : List Event) (s : Session),
      ¬Play.TooDeep (Play.runEvents game (game.config.maxDepth - depth) inFrame
          (before ++ .runScript name :: after) s) →
        Play.SameEnd
          (Play.runEvents game (game.config.maxDepth - depth) inFrame
            (before ++ .runScript name :: after) s)
          (Play.runEvents game (game.config.maxDepth - depth) inFrame
            (before ++ (game.graph.scripts.find? (·.answersTo name)).elim []
              (fun script => game.graph.events script.events) ++ after) s) := by
  intro always
  have alike := always .unreserved 0 false [] "nobody" [] (.sample .empty 9) (by decide +kernel)
  cases alike with
  | ok a same => exact absurd (congrArg (·.stage.request) same) (by decide +kernel)

end Overworld
