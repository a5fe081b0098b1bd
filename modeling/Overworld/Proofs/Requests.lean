import Overworld.Proofs.Calls

/-!
How one scene leads to the next.

An event that asks for a scene sets the request of the stage, and nothing takes it back before the
next scene is entered: at every moment the request is the last one that was run since, and the player
has stood still since the first. The journal keeps each of these moments, with the stage as an event
found it. A scene is left after the frame in which it was asked to, and a run enters the scene that
was asked for last.
-/

namespace Overworld

open Simulation

/-! ### Requests in the journal -/

/-- The request of an event that asks for a scene. -/
def Dispatch.request? (d : Dispatch) : Option SceneRequest :=
  match d.event with
  | .goToScene target start => some ⟨target, start⟩
  | _ => none

/-- The last request that was run since the scene was entered. -/
def Entry.requested (journal : List Entry) : Option SceneRequest :=
  (current journal).findSome? (·.request?)

/-- Where the player stands. -/
def Stage.position? (stage : Stage) : Option Pixel := stage.player.map (·.position)

/-- A stage as the entries of a journal have left it. -/
structure Stage.Follows (graph : SceneGraph) (journal : List Entry) (stage : Stage) : Prop where
  /-- The request is the last one that was run. -/
  request : stage.request = Entry.requested journal
  /-- The player stands where every request found it. -/
  still : ∀ d ∈ Entry.current journal, d.request?.isSome → stage.position? = d.stage.position?
  /-- The scene is the first that answers to the name, or the fallback. -/
  scene : ∀ name, Entry.sceneName? journal = some name → stage.scene = graph.scene name

/-- A session whose stage follows its journal, and did so whenever an event was run. -/
structure Session.Lawful (game : Game) (s : Session) : Prop where
  now : s.stage.Follows game.graph s.journal
  before : ∀ d earlier, .event d :: earlier <:+ s.journal → d.stage.Follows game.graph earlier

/-! ### What a deed does to requests -/

theorem Deed.request_apply (s : Session) (d : Deed) :
    (d.apply s).stage.request =
      match d with
      | .request r _ _ => some r
      | _ => s.stage.request := by
  cases d <;> rfl

theorem Deed.journal_apply (s : Session) (d : Deed) :
    (d.apply s).journal =
      match d with
      | .record event inFrame depth => (s.recorded event inFrame depth).journal
      | .request r inFrame depth =>
        (s.recorded (.goToScene r.target r.start) inFrame depth).journal
      | _ => s.journal := by
  cases d <;> rfl

/-- The player is not moved once a scene is asked for. -/
theorem Deed.position_apply {s : Session} {d : Deed} (allowed : d.Allowed s)
    (asked : s.stage.request ≠ none) : (d.apply s).stage.position? = s.stage.position? := by
  cases d with
  | turn d =>
    simp only [apply, Session.withPlayer, Stage.position?, Option.map_map]
    rfl
  | place map position => exact absurd allowed asked
  | _ => rfl

/-! ### The law is kept -/

/-- Without a request, none was run. -/
theorem Entry.request?_eq_none {journal : List Entry} (none : requested journal = none) {d : Dispatch}
    (mem : d ∈ current journal) : d.request? = .none :=
  List.findSome?_eq_none_iff.mp none d mem

/-- A stage that differs in nothing that counts has followed the journal, too. -/
theorem Stage.Follows.of_eq {graph : SceneGraph} {journal : List Entry} {a b : Stage}
    (h : a.Follows graph journal) (request : b.request = a.request) (scene : b.scene = a.scene)
    (position : a.request ≠ none → b.position? = a.position?) : b.Follows graph journal where
  request := request.trans h.request
  still d mem asks := by
    refine (position fun none => ?_).trans (h.still d mem asks)
    rw [h.request] at none
    rw [Entry.request?_eq_none none mem] at asks
    exact nomatch asks
  scene name is := scene.trans (h.scene name is)

theorem Entry.requested_cons (d : Dispatch) (journal : List Entry) :
    requested (.event d :: journal) = d.request?.or (requested journal) := by
  simp only [requested, current, List.findSome?_cons]
  cases d.request? <;> rfl

/-- An event that was run in a scene finds the stage as it is, and may ask for another scene. -/
theorem Stage.Follows.event {graph : SceneGraph} {journal : List Entry} {a b : Stage} {d : Dispatch}
    (h : a.Follows graph journal) (found : d.stage = a) (request : b.request = d.request?.or a.request)
    (scene : b.scene = a.scene) (position : b.position? = a.position?) :
    b.Follows graph (.event d :: journal) where
  request := by rw [request, Entry.requested_cons, h.request]
  still e mem asks := by
    rw [position]
    rcases List.mem_cons.mp mem with rfl | old
    · rw [found]
    · exact h.still e old asks
  scene name is := scene.trans (h.scene name is)

namespace Session.Lawful

variable {game : Game} {s t : Session}

/-- Where the journal stays as it is, only the stage counts. -/
theorem of_journal_eq (h : s.Lawful game) (journal : t.journal = s.journal)
    (now : t.stage.Follows game.graph s.journal) : t.Lawful game where
  now := journal ▸ now
  before := journal ▸ h.before

/-- An event adds the stage that it found to the journal. -/
theorem of_journal_cons (h : s.Lawful game) {d : Dispatch} (journal : t.journal = .event d :: s.journal)
    (found : d.stage = s.stage) (now : t.stage.Follows game.graph t.journal) : t.Lawful game where
  now := now
  before e earlier suffix := by
    rw [journal] at suffix
    rcases List.suffix_cons_iff.mp suffix with same | old
    · cases same
      rw [found]
      exact h.now
    · exact h.before e earlier old

theorem deed (h : s.Lawful game) (d : Deed) (allowed : d.Allowed s) : (d.apply s).Lawful game := by
  have scene : (d.apply s).stage.scene = s.stage.scene := congrArg (·.1) (d.cast_apply s)
  cases d with
  | record event inFrame depth =>
    refine h.of_journal_cons rfl rfl (h.now.event rfl ?_ rfl rfl)
    have none : Dispatch.request? ⟨event, inFrame, depth, s.host.frame, s.vars, s.stage⟩ = .none := by
      unfold Dispatch.request?
      split
      · exact absurd ‹event = _› (allowed _ _)
      · rfl
    rw [none]
    rfl
  | request r inFrame depth => exact h.of_journal_cons rfl rfl (h.now.event rfl rfl rfl rfl)
  | _ =>
    refine h.of_journal_eq (Deed.journal_apply s _) ?_
    exact h.now.of_eq (Deed.request_apply s _) scene (Deed.position_apply allowed)

theorem arrival (h : s.Lawful game) (a : Arrival) (allowed : a.Allowed s) :
    (a.apply game s).Lawful game := by
  cases a with
  | player map sheet tile d z =>
    refine h.of_journal_eq rfl ⟨h.now.request, fun e mem => ?_, h.now.scene⟩
    have early : Entry.current s.journal = [] := allowed.2
    rw [early] at mem
    exact nomatch mem
  | _ => exact h.of_journal_eq rfl (h.now.of_eq rfl rfl fun _ => rfl)

theorem entering (h : s.Lawful game) (name : String) : (s.entering game name).Lawful game where
  now := by
    refine ⟨rfl, fun e mem => absurd mem List.not_mem_nil, fun other is => ?_⟩
    cases is
    rfl
  before e earlier suffix := by
    rcases List.suffix_cons_iff.mp suffix with same | old
    · exact nomatch same
    · exact h.before e earlier old

/-- Whatever changes, the stage follows the journal. -/
theorem move (h : s.Lawful game) (m : Move game s t) : t.Lawful game := by
  cases m with
  | stay m =>
    cases m with
    | deed d allowed => exact h.deed d allowed
    | frame goes => exact h.of_journal_eq rfl h.now
  | arrive a allowed => exact h.arrival a allowed
  | enter name => exact h.entering name

end Session.Lawful

theorem lawful_session {game : Game} {host : Host} {s : Session} (start : game.session host = .ok s) :
    s.Lawful game := by
  obtain ⟨vars, -, rfl⟩ := Game.session_eq_ok_iff.mp start
  refine ⟨⟨rfl, fun e mem => absurd mem List.not_mem_nil, fun name is => nomatch is⟩, ?_⟩
  exact fun d earlier suffix => nomatch List.suffix_nil.mp suffix

/-! ### Within a scene -/

/-- A request stays, and the player stands still, for as long as no scene is entered. -/
theorem Stretch.asked {s t : Session} (h : Stretch s t) (asked : s.stage.request ≠ none) :
    t.stage.request ≠ none ∧ t.stage.position? = s.stage.position? :=
  h.keeps (P := fun u => u.stage.request ≠ none ∧ u.stage.position? = s.stage.position?)
    (fun u v step ⟨asked, still⟩ => by
      cases step with
      | deed d allowed =>
        refine ⟨?_, (Deed.position_apply allowed asked).trans still⟩
        rw [Deed.request_apply]
        split
        · exact nofun
        · exact asked
      | frame goes => exact ⟨asked, still⟩)
    ⟨asked, rfl⟩

/-- A call that enters no scene. -/
def Call.Stays : Call → Prop
  | enter _ | run => False
  | _ => True

theorem Call.stretch {game : Game} (call : Call) (stays : call.Stays) (s : Session) :
    Stretch s (Play.final (call.perform game s)) := by
  cases call with
  | enter name => exact stays.elim
  | frame => exact Tracks.stretch (.playFrame (walks_within game s))
  | scene =>
    exact Tracks.stretch ((Tracks.playScene (walks_within game s) fun _ =>
      does_within game s _).bind fun _ => .pure ())
  | run => exact stays.elim
  | list events inFrame => exact Tracks.stretch (.runList events inFrame)

/-! ### Frame by frame -/

/-- A frame of a scene that is not to be left yet. -/
def NextFrame (game : Game) (s t : Session) : Prop :=
  s.stage.request = none ∧ Play.playFrame game s = .ok () t

/-- The session that has left its scene for another. -/
def Session.leaving (s : Session) (request : SceneRequest) : Session :=
  let background := { s.stage.background with visible := false }
  { s with
    host := s.host.setBackground background
    stage := { s.stage with background := background }
    pending := some request }

/-- A scene is played frame by frame, up to the first moment with a request or the first frame that
does not come to its end. -/
def PlayedOut (game : Game) (s : Session) : Prop :=
  ∃ u, Relation.ReflTransGen (NextFrame game) s u ∧
    match Play.playScene game s with
    | .ok request t => u.stage.request = some request ∧ t = u.leaving request
    | .error e t =>
      u.stage.request = none ∧ Play.playFrame game u = .error e t ∨ e = .endless ∧ t = u

theorem frames_of_framesUntilRequest (game : Game) (n : Nat) (s : Session) :
    ∃ u, Relation.ReflTransGen (NextFrame game) s u ∧
      match Play.framesUntilRequest game n s with
      | .ok request t => u.stage.request = some request ∧ t = u
      | .error e t =>
        u.stage.request = none ∧ Play.playFrame game u = .error e t ∨ e = .endless ∧ t = u := by
  induction n generalizing s with
  | zero => exact ⟨s, .refl, .inr ⟨rfl, rfl⟩⟩
  | succ n ih =>
    rw [framesUntilRequest_succ]
    cases asked : s.stage.request with
    | some request => exact ⟨s, .refl, asked, rfl⟩
    | none =>
      simp only [Play.bind_apply]
      cases played : Play.playFrame game s with
      | ok a t =>
        obtain ⟨u, frames, result⟩ := ih t
        exact ⟨u, .head ⟨asked, played⟩ frames, result⟩
      | error e t => exact ⟨s, .refl, .inl ⟨asked, played⟩⟩

theorem playedOut (game : Game) (s : Session) : PlayedOut game s := by
  obtain ⟨u, frames, result⟩ := frames_of_framesUntilRequest game Play.patience s
  refine ⟨u, frames, ?_⟩
  rw [Play.playScene, Play.bind_apply]
  cases played : Play.framesUntilRequest game Play.patience s with
  | ok request t =>
    rw [played] at result
    obtain ⟨asked, rfl⟩ := result
    exact ⟨asked, rfl⟩
  | error e t =>
    rw [played] at result
    exact result

/-! ### Scene by scene -/

/-- A visit to the scene of a name, after which the one that was asked for last is to be entered. -/
def NextVisit (game : Game) (a b : String × Session) : Prop :=
  ∃ request, Play.visit game a.1 a.2 = .ok request b.2 ∧
    b.2.stage.scene = game.graph.scene a.1 ∧ Entry.requested b.2.journal = some request ∧
    b.1 = request.target

/-- Scenes are played one after the other, each the one that was asked for last in the one before, up
to the first that is not left for another. -/
def Travelled (game : Game) (name : String) (s : Session)
    (result : EStateM.Result Halt Session HostStop) : Prop :=
  ∃ last u, Relation.ReflTransGen (NextVisit game) (name, s) (last, u) ∧
    match result with
    | .ok stop t =>
      Play.visit game last u = .error (.host stop) t ∧ t.stage.scene = game.graph.scene last
    | .error e t =>
      Play.visit game last u = .error e t ∧ t.stage.scene = game.graph.scene last ∨
        e = .endless ∧ t = u

/-- A game beside itself, for as long as the scene of a name is the last that was entered. -/
def named (game : Game) (name : String) : Simulation game game.config.maxDepth :=
  beside game (fun s => Entry.sceneName? s.journal = some name) (fun _ => True)
    (fun s t step is => by
      cases step with
      | deed d _ _ => cases d <;> exact is
      | frame goes => exact is)
    (fun _ _ => trivial) (.inl ⟨trivial, trivial⟩)

theorem does_named (game : Game) (name : String) (d : Deed) : (named game name).Does d :=
  does_beside fun _ _ is => by cases d <;> exact is

theorem arrives_named (game : Game) (name : String) : (named game name).Arrives :=
  fun _ _ a related _ => ⟨by rw [related.1], by cases a <;> exact related.2⟩

/-- Nothing that happens in a visit enters another scene. -/
theorem sceneName_visit (game : Game) (name : String) (s : Session) :
    Entry.sceneName? (Play.final (Play.visit game name s)).journal = some name := by
  obtain ⟨scene, t, opened⟩ : ∃ scene t, Play.openScene game.graph name s = .ok scene t := by
    rw [openScene_eq]
    cases game.graph.scene? name with
    | some _ => exact ⟨_, _, rfl⟩
    | none => exact ⟨_, _, rfl⟩
  obtain ⟨-, bare, journal⟩ := bare_of_openScene opened
  have is : Play.visit game name s =
      (Play.build game scene >>= fun _ => Play.playScene game) t := by
    rw [Play.visit, Play.enterScene, Play.bind_apply, Play.bind_apply, opened, Play.bind_apply]
  rw [is]
  have walks : (named game name).Walks := .of_does fun d _ => does_named game name d
  have tracks := (TracksFrom.build (arrives_named game name) scene).bind fun _ =>
    Tracks.from (.playScene walks fun _ => does_named game name _)
  refine (TracksFrom.holds tracks ?_ ?_).1
  · rw [journal]
    rfl
  · exact ⟨congrArg Stage.player bare, congrArg Entry.current journal⟩

/-- A visit that ends leaves the request behind with which it ended. -/
theorem request_of_visit {game : Game} {name : String} {request : SceneRequest} {s t : Session}
    (h : Play.visit game name s = .ok request t) : t.stage.request = some request := by
  obtain ⟨_, u, -, played⟩ := Play.bind_eq_ok_iff.mp h
  obtain ⟨v, -, result⟩ := playedOut game u
  rw [played] at result
  obtain ⟨asked, rfl⟩ := result
  exact asked

/-- A run travels from scene to scene. -/
theorem travelled_playScenes {game : Game} (scenes : Nat) (name : String) {s : Session}
    (lawful : s.Lawful game) : Travelled game name s (Play.playScenes game scenes name s) := by
  induction scenes generalizing name s with
  | zero => exact ⟨name, s, .refl, .inr ⟨rfl, rfl⟩⟩
  | succ scenes ih =>
    have after : (Play.final (Play.visit game name s)).Lawful game :=
      (course_visit game name s).keeps (fun _ _ m h => h.move m) lawful
    have scene := after.now.scene name (sceneName_visit game name s)
    rw [Play.playScenes_succ]
    cases visited : Play.visit game name s with
    | ok request t =>
      rw [visited] at after scene
      obtain ⟨last, u, visits, result⟩ := ih request.target after
      refine ⟨last, u, .head ⟨request, visited, scene, ?_, rfl⟩ visits, result⟩
      exact after.now.request.symm.trans (request_of_visit visited)
    | error e t =>
      rw [visited] at scene
      cases e with
      | host stop => exact ⟨name, s, .refl, visited, scene⟩
      | _ => exact ⟨name, s, .refl, .inl ⟨visited, scene⟩⟩

/-- A whole run plays scenes one after the other, from the one to start with on, and is over when the
host stops in one of them. -/
def RanThrough (game : Game) (s : Session) : Prop :=
  ∃ last u, Relation.ReflTransGen (NextVisit game) (game.graph.start, s) (last, u) ∧
    match Play.run game s with
    | .ok summary t =>
      ∃ v, Play.visit game last u = .error (.host summary.stop) v ∧
        v.stage.scene = game.graph.scene last ∧ t = (Deed.note (.runStopped summary)).apply v
    | .error e t =>
      Play.visit game last u = .error e t ∧ t.stage.scene = game.graph.scene last ∨
        e = .endless ∧ t = u

theorem ranThrough {game : Game} {s : Session} (lawful : s.Lawful game) : RanThrough game s := by
  obtain ⟨last, u, visits, result⟩ :=
    travelled_playScenes (Play.sceneCeiling - s.entered) game.graph.start lawful
  refine ⟨last, u, visits, ?_⟩
  rw [Play.run_eq]
  cases played : Play.playScenes game (Play.sceneCeiling - s.entered) game.graph.start s with
  | ok stop t =>
    rw [played] at result
    exact ⟨t, result.1, result.2, rfl⟩
  | error e t =>
    rw [played] at result
    exact result

/-! ### The law of requests -/

/-- How a session deals with requests for a scene, now and in whatever is asked of it next. -/
structure Session.ObeysRequests (game : Game) (s : Session) : Prop where
  /-- The request is the last one that was run in the scene, and the player stands where every
  request found it; so it was for each event that was run. -/
  lawful : s.Lawful game
  /-- No call but those that enter a scene takes the request back or moves the player. -/
  stays : ∀ call : Call, call.Stays → s.stage.request ≠ none →
    (s.after game [call]).stage.request ≠ none ∧
      (s.after game [call]).stage.position? = s.stage.position?
  /-- No frame of a scene is started once it is to be left. -/
  frames : PlayedOut game s
  /-- A run goes on with the scene that was asked for last. -/
  scenes : RanThrough game s

/-- **The last request counts.** At any time of a game, from its start on and whatever was asked of
it, the request of the stage is the last one that was run since the scene was entered; from the first
one on the player stands still until a scene is entered, no frame of the scene is started any more,
and a run enters the scene that the last one names, or the fallback. -/
theorem requests_obeyed {game : Game} {input : InputScript} {budget : Option Nat} {stops : Bool}
    {s : Session} (start : game.session (.fresh input budget stops) = .ok s) (calls : List Call) :
    (s.after game calls).ObeysRequests game := by
  have lawful : (s.after game calls).Lawful game :=
    (s.course_after game calls).keeps (fun _ _ m h => h.move m) (lawful_session start)
  refine ⟨lawful, fun call stays asked => ?_, playedOut game _, ranThrough lawful⟩
  exact (call.stretch stays _).asked asked

/-- In the sample the player walks through the gate, and the hall leads back. -/
theorem requests_obeyed_sample :
    ∃ s, Game.sample.session (.fresh (InputScript.empty.hold [.right] 9) (some 9) false) = .ok s ∧
      (s.after Game.sample [.enter "yard", .frame, .list ⟨2⟩ true, .scene, .run]).ObeysRequests
        Game.sample :=
  ⟨_, rfl, requests_obeyed rfl _⟩

end Overworld
