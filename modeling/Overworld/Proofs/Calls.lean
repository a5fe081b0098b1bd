import Overworld.Proofs.Simulation.Scenes

/-!
What can be asked of a game.

A game is asked to enter a scene, to play a frame, a scene or everything, or to run an event list,
in any order and whatever came of it before. All of it is a course, and all of it that does not enter
a scene is a stretch of the scene.
-/

namespace Overworld

/-- Something that a game is asked to do. -/
inductive Call where
  | enter (name : String)
  | frame
  | scene
  | run
  | list (events : Handle) (inFrame : Bool)
deriving DecidableEq, Repr

/-- Do what is asked. -/
def Call.perform (game : Game) : Call → Play Unit
  | enter name => Play.enterScene game name
  | frame => Play.playFrame game
  | scene => do let _ ← Play.playScene game
  | run => do let _ ← Play.run game
  | list events inFrame => Play.runList game events inFrame

/-- The session after calls, each of which is made where the last one ended, however it ended. -/
def Session.after (game : Game) (s : Session) (calls : List Call) : Session :=
  calls.foldl (fun s call => Play.final (call.perform game s)) s

/-- A session starts with the variables as declared and nothing on the stage. -/
theorem Game.session_eq_ok_iff {game : Game} {host : Host} {s : Session} :
    game.session host = .ok s ↔
      ∃ vars, game.graph.freshVariables = .ok vars ∧ s = .start host vars (.bare .fallback) := by
  unfold Game.session
  cases game.graph.freshVariables with
  | error e => exact ⟨nofun, fun ⟨_, h, _⟩ => nomatch h⟩
  | ok vars =>
    constructor
    · intro h
      cases h
      exact ⟨vars, rfl, rfl⟩
    · rintro ⟨_, h, rfl⟩
      cases h
      rfl

namespace Simulation

/-- A game beside itself, in all changes that it undergoes. -/
def along (game : Game) (start : Session) : Simulation game game.config.maxDepth :=
  beside game (Course game start) (fun _ => True)
    (fun _ _ step course => course.tail (.stay step.stay)) (fun _ _ => trivial)
    (.inl ⟨trivial, trivial⟩)

theorem does_along (game : Game) (start : Session) (d : Deed) : (along game start).Does d :=
  does_beside fun _ allowed course => course.tail (.stay (.deed d allowed))

theorem arrives_along (game : Game) (start : Session) : (along game start).Arrives :=
  fun _ _ a related allowed => ⟨by rw [related.1], related.2.tail (.arrive a allowed)⟩

theorem enters_along (game : Game) (start : Session) (name : String) :
    (along game start).Enters name :=
  fun _ _ related => ⟨by rw [related.1], related.2.tail (.enter name)⟩

theorem Tracks.course {game : Game} {α : Type} {s : Session} {x y : Play α}
    (h : (along game s).Tracks x y) : Course game s (Play.final (x s)) :=
  (TracksFrom.holds (h.from : (along game s).TracksFrom (fun _ => True) x y) .refl trivial).1

end Simulation

open Simulation

/-- A visit to a scene is a course. -/
theorem course_visit (game : Game) (name : String) (s : Session) :
    Course game s (Play.final (Play.visit game name s)) :=
  Tracks.course (.visit (enters_along game s name) (arrives_along game s) (does_along game s))

/-- A run goes on with the scene that was asked for, or is over. -/
theorem Play.playScenes_succ (game : Game) (scenes : Nat) (name : String) (s : Session) :
    Play.playScenes game (scenes + 1) name s =
      match Play.visit game name s with
      | .ok request t => Play.playScenes game scenes request.target t
      | .error (.host stop) t => .ok stop t
      | .error e t => .error e t := rfl

/-- Playing from scene to scene is a course. -/
theorem course_playScenes (game : Game) (scenes : Nat) (name : String) (s : Session) :
    Course game s (Play.final (Play.playScenes game scenes name s)) := by
  induction scenes generalizing name s with
  | zero => exact .refl
  | succ scenes ih =>
    have first := course_visit game name s
    rw [Play.playScenes_succ]
    cases visited : Play.visit game name s with
    | ok request t =>
      rw [visited] at first
      exact first.trans (ih request.target t)
    | error e t =>
      rw [visited] at first
      cases e <;> exact first

/-- A run that the host stops is summed up and reported. -/
theorem Play.run_eq (game : Game) (s : Session) :
    Play.run game s =
      match Play.playScenes game (Play.sceneCeiling - s.entered) game.graph.start s with
      | .ok stop t =>
        let summary : RunSummary := ⟨t.host.frame, t.entered, t.stage.scene.label, stop⟩
        .ok summary ((Deed.note (.runStopped summary)).apply t)
      | .error e t => .error e t := by
  change (Play.playScenes game (Play.sceneCeiling - s.entered) game.graph.start >>= _) s = _
  rw [Play.bind_apply]
  cases Play.playScenes game (Play.sceneCeiling - s.entered) game.graph.start s <;> rfl

/-- A whole run is a course. -/
theorem course_run (game : Game) (s : Session) : Course game s (Play.final (Play.run game s)) := by
  have course := course_playScenes game (Play.sceneCeiling - s.entered) game.graph.start s
  rw [Play.run_eq]
  cases played : Play.playScenes game (Play.sceneCeiling - s.entered) game.graph.start s with
  | ok stop t =>
    rw [played] at course
    exact course.tail (.stay (.deed (.note _) trivial))
  | error e t =>
    rw [played] at course
    exact course

/-- A run that is asked for ends as the run does. -/
theorem Call.final_run (game : Game) (s : Session) :
    Play.final (Call.run.perform game s) = Play.final (Play.run game s) := by
  rw [Call.perform, Play.bind_apply]
  cases Play.run game s <;> rfl

/-- Whatever is asked of a game, what it does is a course. -/
theorem Call.course (game : Game) (call : Call) (s : Session) :
    Course game s (Play.final (call.perform game s)) := by
  cases call with
  | enter name => exact Tracks.course (.enterScene (enters_along game s name) (arrives_along game s))
  | frame => exact Tracks.course (.playFrame (.of_does fun d _ => does_along game s d))
  | scene =>
    have walks : (along game s).Walks := .of_does fun d _ => does_along game s d
    exact Tracks.course ((Tracks.playScene walks fun _ => does_along game s _).bind fun _ => .pure ())
  | run =>
    rw [Call.final_run]
    exact course_run game s
  | list events inFrame => exact Tracks.course (.runList events inFrame)

/-- Any number of calls is a course. -/
theorem Session.course_after (game : Game) (s : Session) (calls : List Call) :
    Course game s (s.after game calls) := by
  induction calls generalizing s with
  | nil => exact .refl
  | cons call calls ih => exact (call.course game s).trans (ih _)

/-- No course takes anything back. -/
theorem Course.grown {game : Game} {s t : Session} (h : Course game s t) : s.Grown t :=
  h.keeps (P := s.Grown)
    (fun u v move grown => grown.trans <| by
      cases move with
      | stay step =>
        cases step with
        | deed d allowed => exact .deed u d
        | frame goes => exact .frame u
      | arrive a allowed => exact .arrival game u a
      | enter name => exact .entering game u name)
    (.refl s)

/-! ### A small game -/

/-- A yard with a gate to a hall, which shows itself for a while and leads back. -/
def Game.sample : Game where
  graph :=
    { SceneGraph.empty with
      lists := [[], [.goToScene "hall" .unset], [.wait (.ofInt 32), .goToScene "yard" .unset]]
      scenes :=
        [{ Scene.called "yard" with
            map := some ⟨3, 1, 2, [0, 0, 0], [⟨"gate", 2, 0, 1, 1, ⟨1⟩⟩]⟩
            player := some (.at 0 0)
            actors := [.at "guard" 1 1]
            props := [.at "lamp" 2 0 .standard] },
          { Scene.called "hall" with events := ⟨2⟩ }] }
  config := .standard

/-- The sample before its first scene. -/
def Session.sample (input : InputScript) (budget : Nat) : Session :=
  .start (.fresh input (some budget) false) Variables.empty (.bare .fallback)

end Overworld
