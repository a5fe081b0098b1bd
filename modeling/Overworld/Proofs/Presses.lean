import Overworld.Graph.Faults
import Overworld.Proofs.Edges

/-!
Which presses a handler hears.

A handler is come to where a frame of the scene begins. If nothing that is scripted takes time, only
the player keeps the next frame from beginning: a walk goes on for as long as its button is held, and
takes all the frames until then. So a handler hears every press, but for those in frames that pass
while the player walks; and of those it hears none.
-/

namespace Overworld

open Simulation

/-! ### Scenes that nothing scripted holds up -/

/-- The actor that the player turns to is on the stage and has something to do. -/
theorem Play.of_actorInFront {game : Game} {map : TileMap} {player : Player} {index : Nat}
    {actor : Actor} {s t : Session}
    (h : Play.actorInFront game map player s = .ok (some (index, actor)) t) :
    actor ∈ s.stage.actors ∧ game.graph.events actor.definition.interact ≠ [] := by
  obtain ⟨tile, u, found, h⟩ := Play.bind_eq_ok_iff.mp h
  cases eq_of_tileOf found
  rw [Play.get_bind_apply] at h
  cases beside : s.stage.actorBeside? tile player.direction with
  | none =>
    rw [beside] at h
    cases h
  | some place =>
    rw [beside] at h
    cases stands : s.stage.actors[place]? with
    | none =>
      simp only [stands] at h
      cases h
    | some other =>
      simp only [stands] at h
      cases idle : (game.graph.events other.definition.interact).isEmpty with
      | true =>
        rw [idle] at h
        cases h
      | false =>
        rw [idle] at h
        cases h
        exact ⟨List.mem_of_getElem? stands, by simpa using idle⟩

/-- No deed changes what the actors are. -/
theorem Deed.definitions_apply (s : Session) (d : Deed) :
    (d.apply s).stage.actors.map (·.definition) = s.stage.actors.map (·.definition) := by
  have withActor (index : Nat) (change : Actor → Host → Actor × Host)
      (same : ∀ actor host, (change actor host).1.definition = actor.definition) :
      (s.withActor index change).stage.actors.map (·.definition) =
        s.stage.actors.map (·.definition) := by
    cases found : s.stage.actors[index]? with
    | none => simp [Session.withActor, found]
    | some actor =>
      obtain ⟨inside, is⟩ := List.getElem?_eq_some_iff.mp found
      have kept : (s.stage.actors.map (·.definition)).set index actor.definition =
          s.stage.actors.map (·.definition) := by
        rw [← List.map_set, ← is, List.set_getElem_self]
      simp [Session.withActor, found, List.map_set, same, kept]
  cases d with
  | showActor index visible => exact withActor index _ fun _ _ => rfl
  | turnActor index d => exact withActor index _ fun _ _ => rfl
  | _ => rfl

theorem Stretch.definitions_eq {s t : Session} (h : Stretch s t) :
    t.stage.actors.map (·.definition) = s.stage.actors.map (·.definition) :=
  h.keeps (P := fun u => u.stage.actors.map (·.definition) = s.stage.actors.map (·.definition))
    (fun u v step same => by
      cases step with
      | deed d allowed => exact (d.definitions_apply u).trans same
      | frame goes => exact same)
    rfl

/-- A scene in which nothing scripted blocks from a session on: no sensors, no actors with anything
to do but on entry, and handlers that neither take time nor ask for a scene. -/
structure Session.Unblocked (game : Game) (s : Session) : Prop where
  sensors {map : TileMap} (onMap : s.stage.map = some map) : map.sensors = []
  interact : ∀ actor ∈ s.stage.actors, game.graph.events actor.definition.interact = []
  update : ∀ actor ∈ s.stage.actors, game.graph.events actor.definition.update = []
  brief : ∀ handler ∈ s.stage.handlers, ∀ u, Stretch s u →
    let t := Play.final (Play.runEvent game game.config.maxDepth true handler u)
    t.host.frame = u.host.frame ∧ t.stage.request = u.stage.request

namespace Session.Unblocked

variable {game : Game} {s t u v : Session} (h : s.Unblocked game)

include h

/-- Actors that have nothing to do never have. -/
theorem actors (course : Stretch s u) : ∀ actor ∈ u.stage.actors,
    game.graph.events actor.definition.interact = [] ∧
      game.graph.events actor.definition.update = [] := by
  intro actor mem
  have definition : actor.definition ∈ s.stage.actors.map (·.definition) := by
    rw [← course.definitions_eq]
    exact List.mem_map_of_mem mem
  obtain ⟨first, mem, is⟩ := List.mem_map.mp definition
  rw [← is]
  exact ⟨h.interact first mem, h.update first mem⟩

/-- Handlers take no time and ask for no scene, however they end. -/
theorem brief_runEvents {handlers : List Event}
    (sub : ∀ handler ∈ handlers, handler ∈ s.stage.handlers) (course : Stretch s u) :
    let t := Play.final (Play.runEvents game game.config.maxDepth true handlers u)
    t.host.frame = u.host.frame ∧ t.stage.request = u.stage.request := by
  induction handlers generalizing u with
  | nil => exact ⟨rfl, rfl⟩
  | cons handler handlers ih =>
    have first := h.brief handler (sub handler List.mem_cons_self) u course
    have run : Play.runEvents game game.config.maxDepth true (handler :: handlers) u =
        (Play.runEvent game game.config.maxDepth true handler >>= fun _ =>
          Play.runEvents game game.config.maxDepth true handlers) u := rfl
    rw [run, Play.bind_apply]
    cases ran : Play.runEvent game game.config.maxDepth true handler u with
    | error e t =>
      rw [ran] at first
      exact first
    | ok _ t =>
      rw [ran] at first
      have rest : Stretch u t := Tracks.stretch_ok (.runEvent (Nat.le_refl _) true handler) ran
      obtain ⟨frame, request⟩ :=
        ih (fun other mem => sub other (List.mem_cons_of_mem _ mem)) (course.trans rest)
      exact ⟨frame.trans first.1, request.trans first.2⟩

/-- The same where some of them are come to in a frame. -/
theorem brief_comesTo (plays : s.Plays game t) {i : Nat} (comes : t.ComesTo game i u) :
    u.host.frame = t.host.frame ∧ u.stage.request = t.stage.request := by
  have brief := h.brief_runEvents (fun handler (mem : handler ∈ t.stage.handlers.take i) => by
    rw [← handlers_of_frames plays.1]
    exact List.mem_of_mem_take mem) (stretch_of_frames plays.1)
  rw [Session.ComesTo] at comes
  rw [comes] at brief
  exact brief

/-- Nor do the actors. -/
theorem updates_eq (course : Stretch s u) :
    (u.stage.actors.forM fun actor => Play.runList game actor.definition.update true) u =
      .ok () u := by
  have idle : ∀ actor ∈ u.stage.actors, game.graph.events actor.definition.update = [] :=
    fun actor mem => (h.actors course actor mem).2
  generalize u.stage.actors = actors at idle
  induction actors with
  | nil => rfl
  | cons actor actors ih =>
    have first : Play.runList game actor.definition.update true u = .ok () u := by
      rw [Play.runList, idle actor List.mem_cons_self]
      rfl
    have run : ((actor :: actors).forM fun actor => Play.runList game actor.definition.update true) u =
        (Play.runList game actor.definition.update true >>= fun _ =>
          actors.forM fun actor => Play.runList game actor.definition.update true) u := rfl
    rw [run, Play.bind_apply, first]
    exact ih fun other mem => idle other (List.mem_cons_of_mem _ mem)

/-- The player finds no actor to turn to. -/
theorem addressed_ne (course : Stretch s u) (map : TileMap) (player : Player)
    {found : Nat × Actor} {v : Session} :
    Play.addressed game map player u ≠ .ok (some found) v := by
  intro addressed
  obtain ⟨activates, w, looked, addressed⟩ := Play.bind_eq_ok_iff.mp addressed
  cases (Play.Peeks.pressed _).eq_of_ok looked
  cases activates with
  | false => cases addressed
  | true =>
    obtain ⟨mem, busy⟩ := Play.of_actorInFront addressed
    exact busy (h.actors course found.2 mem).1

end Session.Unblocked

/-! ### Walks -/

/-- Whether the button of a direction calls for a walk. -/
def ButtonStates.wants (states : ButtonStates) (d : Direction) : Bool :=
  states.pressed.has d.button || states.held.has d.button

/-- The first of two directions that is called for. -/
def ButtonStates.chosen? (states : ButtonStates) (first second : Direction) : Option Direction :=
  if states.wants first then some first else if states.wants second then some second else none

theorem Play.walkEither_eq (game : Game) (map : TileMap) (first second : Direction) (s : Session) :
    Play.walkEither game map first second s =
      match s.host.states.chosen? first second with
      | some d => Play.walk game map d s
      | none => .ok () s := by
  have wants (d : Direction) : Play.wants d s = .ok (s.host.states.wants d) s := rfl
  rw [Play.walkEither, Play.bind_apply, wants]
  unfold ButtonStates.chosen?
  cases s.host.states.wants first with
  | true => rfl
  | false =>
    simp only [Bool.false_eq_true, if_false, Play.bind_apply, wants]
    cases s.host.states.wants second <;> rfl

/-- In the frame that begins in a session the player sets out for a walk from another. -/
inductive Session.SetsOut (game : Game) (a : Session) (map : TileMap) (d : Direction) :
    Session → Prop
  | across {w : Session} (comes : a.ComesTo game a.stage.handlers.length w)
    (onMap : w.stage.map = some map) (present : w.stage.player.isSome)
    (chosen : w.host.states.chosen? .left .right = some d) : SetsOut game a map d w
  | along {w v : Session} (comes : a.ComesTo game a.stage.handlers.length w)
    (onMap : w.stage.map = some map) (present : w.stage.player.isSome)
    (walked : Play.walkEither game map .left .right w = .ok () v)
    (chosen : v.host.states.chosen? .up .down = some d) : SetsOut game a map d v

/-- A frame passes while the player walks in a scene, or is the one in which a walk comes to its
end. -/
def Session.WalksPast (game : Game) (s : Session) (frame : Nat) : Prop :=
  ∃ a map d v, s.Plays game a ∧ a.SetsOut game map d v ∧ v.host.frame < frame ∧
    frame ≤ (Play.final (Play.walk game map d v)).host.frame

/-- A handler has its body run in a frame of a scene. -/
def Session.Hears (game : Game) (s : Session) (i frame : Nat) : Prop :=
  ∃ a u, s.Plays game a ∧ Session.Fires game i a u ∧ u.host.frame = frame

/-- A frame in which the player walks about passes in one of its two walks. -/
theorem Session.SetsOut.of_walkAbout {game : Game} {a w : Session} {map : TileMap}
    (comes : a.ComesTo game a.stage.handlers.length w) (onMap : w.stage.map = some map)
    (present : w.stage.player.isSome) {frame : Nat} (since : w.host.frame < frame)
    (last : frame ≤ (Play.final (Play.walkAbout game map w)).host.frame) :
    ∃ d v, a.SetsOut game map d v ∧ v.host.frame < frame ∧
      frame ≤ (Play.final (Play.walk game map d v)).host.frame := by
  by_cases first : frame ≤ (Play.final (Play.walkEither game map .left .right w)).host.frame
  · rw [Play.walkEither_eq] at first
    cases chosen : w.host.states.chosen? .left .right with
    | none =>
      rw [chosen] at first
      exact absurd since (Nat.not_lt.mpr first)
    | some d =>
      rw [chosen] at first
      exact ⟨d, w, .across comes onMap present chosen, since, first⟩
  · rw [Play.walkAbout, Play.bind_apply] at last
    cases walked : Play.walkEither game map .left .right w with
    | error e v =>
      rw [walked] at first last
      exact absurd last first
    | ok _ v =>
      rw [walked] at first last
      have later : v.host.frame < frame := Nat.not_le.mp first
      simp only [Play.walkEither_eq] at last
      cases chosen : v.host.states.chosen? .up .down with
      | none =>
        rw [chosen] at last
        exact absurd later (Nat.not_lt.mpr last)
      | some d =>
        rw [chosen] at last
        exact ⟨d, v, .along comes onMap present walked chosen, later, last⟩

/-- Walking about stays within the scene. -/
theorem stretch_walkEither (game : Game) {map : TileMap} (first second : Direction) {s : Session}
    (onMap : s.stage.map = some map) :
    Stretch s (Play.final (Play.walkEither game map first second s)) :=
  (TracksFrom.walkEither (walks_within game s) map first second).stretch onMap

namespace Session.SetsOut

variable {game : Game} {a v : Session} {map : TileMap} {d : Direction}

theorem stretch (h : a.SetsOut game map d v) : Stretch a v := by
  cases h with
  | across comes onMap present chosen => exact comes.stretch
  | @along w v comes onMap present walked chosen =>
    have walk := stretch_walkEither game .left .right onMap
    rw [walked] at walk
    exact comes.stretch.trans walk

/-- The walk is one that walking about takes. -/
theorem walkAbout (h : a.SetsOut game map d v) :
    ∃ w, a.ComesTo game a.stage.handlers.length w ∧ w.stage.map = some map ∧
      w.stage.player.isSome ∧ ∀ {u}, Play.walkAbout game map w = .ok () u →
        (Play.final (Play.walk game map d v)).host.frame ≤ u.host.frame := by
  cases h with
  | across comes onMap present chosen =>
    refine ⟨v, comes, onMap, present, fun {u} walked => ?_⟩
    obtain ⟨_, x, first, second⟩ := Play.bind_eq_ok_iff.mp walked
    have course : Stretch v x :=
      TracksFrom.stretch_ok (.walkEither (walks_within game v) ..) onMap first
    have rest := stretch_walkEither game .up .down (course.map_eq.trans onMap)
    rw [second] at rest
    have walk : Play.walk game map d v = .ok () x := by
      rw [Play.walkEither_eq, chosen] at first
      exact first
    rw [walk]
    exact rest.clock_le.1
  | @along w v comes onMap present across chosen =>
    refine ⟨w, comes, onMap, present, fun {u} walked => ?_⟩
    obtain ⟨_, x, first, second⟩ := Play.bind_eq_ok_iff.mp walked
    cases across.symm.trans first
    have walk : Play.walk game map d v = .ok () u := by
      rw [Play.walkEither_eq, chosen] at second
      exact second
    rw [walk]
    exact Nat.le_refl _

/-- Only a player on a map walks. -/
theorem staged (h : a.SetsOut game map d v) : a.stage.map.isSome ∧ a.stage.player.isSome := by
  obtain ⟨w, comes, onMap, present, -⟩ := h.walkAbout
  rw [← comes.stretch.map_eq, ← comes.stretch.player_isSome, onMap]
  exact ⟨rfl, present⟩

end Session.SetsOut

/-! ### What a frame of the scene comes to -/

/-- A frame ends one later than what happens in it. -/
theorem frame_bind_advance_le (x : Play Unit) (s : Session) :
    (Play.final ((x >>= fun _ => Play.advance) s)).host.frame ≤
      (Play.final (x s)).host.frame + 1 := by
  rw [Play.bind_apply]
  cases x s with
  | error e t => exact Nat.le_succ _
  | ok _ t =>
    change (Play.final (Play.advance t)).host.frame ≤ t.host.frame + 1
    rw [Play.advance_eq]
    cases t.host.stop? with
    | none => exact Nat.le_refl _
    | some stop => exact Nat.le_succ _

namespace Session.Unblocked

variable {game : Game} {s a b w : Session} (h : s.Unblocked game)

include h

/-- A frame that takes time comes to all handlers. -/
theorem comesTo (plays : s.Plays game a)
    (takes : a.host.frame < (Play.final (Play.playFrame game a)).host.frame) :
    ∃ w, a.ComesTo game a.stage.handlers.length w := by
  cases ran : Play.runEvents game game.config.maxDepth true a.stage.handlers a with
  | ok _ w =>
    refine ⟨w, ?_⟩
    rw [Session.ComesTo, List.take_length]
    exact ran
  | error e w =>
    have mine : ∀ handler ∈ a.stage.handlers, handler ∈ s.stage.handlers := by
      rw [handlers_of_frames plays.1]
      exact fun handler mem => mem
    obtain ⟨quick, -⟩ := h.brief_runEvents mine (stretch_of_frames plays.1)
    rw [ran] at quick
    have fails : Play.playFrame game a = .error e w := by
      rw [Play.playFrame, Play.bind_apply, Play.enactFrame_eq, Play.enactFrom, Play.bind_apply, ran]
    rw [fails] at takes
    exact absurd quick (Nat.ne_of_gt takes)

/-- After the handlers, a frame is the control of the player and then the host. -/
theorem playFrame_eq (plays : s.Plays game a) (comes : a.ComesTo game a.stage.handlers.length w) :
    Play.playFrame game a = (Play.control game >>= fun _ => Play.advance) w := by
  have course : Stretch s w := (stretch_of_frames plays.1).trans comes.stretch
  let updates : Play Unit := get >>= fun u => u.stage.actors.forM fun actor =>
    Play.runList game actor.definition.update true
  have idle {u : Session} (course : Stretch s u) : updates u = .ok () u := h.updates_eq course
  have rest : Play.enactFrom game [] w = Play.control game w := by
    have run : Play.enactFrom game [] w =
        (if w.stage.player.isSome then Play.control game >>= fun _ => updates else updates :
          Play Unit) w := rfl
    rw [run]
    cases present : w.stage.player with
    | none =>
      rw [Play.control_of_absent (.inl present)]
      exact idle course
    | some player =>
      rw [Option.isSome_some, if_pos rfl, Play.bind_apply]
      cases controlled : Play.control game w with
      | ok _ u =>
        exact idle (course.trans (Tracks.stretch_ok (.control (walks_within game w)) controlled))
      | error e u => rfl
  rw [Play.playFrame, Play.bind_apply, comes.enactFrame_eq, List.drop_length, rest, Play.bind_apply]

/-- Control of a player on a map is a walk, unless the map cannot tell where the player is. -/
theorem control_eq (course : Stretch s w) {map : TileMap} (onMap : w.stage.map = some map)
    (present : w.stage.player.isSome) :
    Play.control game w = Play.walkAbout game map w ∨ ∃ e, Play.control game w = .error e w := by
  obtain ⟨player, is⟩ := Option.isSome_iff_exists.mp present
  rw [Play.control_of_present onMap is]
  rcases (Play.Peeks.addressed game map player).sees w with ⟨_ | found, is⟩ | ⟨e, is⟩
  · rw [is]
    exact .inl rfl
  · exact absurd is (h.addressed_ne course map player)
  · rw [is]
    exact .inr ⟨e, rfl⟩

/-- If control does anything, it is a walk of a player on a map. -/
theorem control_cases (course : Stretch s w) :
    Play.final (Play.control game w) = w ∨
      ∃ map, w.stage.map = some map ∧ w.stage.player.isSome ∧
        Play.control game w = Play.walkAbout game map w := by
  cases present : w.stage.player with
  | none =>
    rw [Play.control_of_absent (.inl present)]
    exact .inl rfl
  | some player =>
    cases onMap : w.stage.map with
    | none =>
      rw [Play.control_of_absent (.inr onMap)]
      exact .inl rfl
    | some map =>
      have here : w.stage.player.isSome := by rw [present]; rfl
      rcases h.control_eq course onMap here with walks | ⟨e, fails⟩
      · exact .inr ⟨map, rfl, rfl, walks⟩
      · rw [fails]
        exact .inl rfl

/-- What takes a frame longer is a walk. -/
theorem setsOut (plays : s.Plays game a) {frame : Nat} (since : a.host.frame < frame)
    (last : frame < (Play.final (Play.playFrame game a)).host.frame) :
    ∃ map d v, a.SetsOut game map d v ∧ v.host.frame < frame ∧
      frame ≤ (Play.final (Play.walk game map d v)).host.frame := by
  obtain ⟨w, comes⟩ := h.comesTo plays (since.trans last)
  have course : Stretch s w := (stretch_of_frames plays.1).trans comes.stretch
  rw [h.playFrame_eq plays comes] at last
  have last := Nat.lt_succ_iff.mp (last.trans_le (frame_bind_advance_le _ w))
  have later : w.host.frame < frame := by
    rw [(h.brief_comesTo plays comes).1]
    exact since
  rcases h.control_cases course with still | ⟨map, onMap, present, walks⟩
  · rw [still] at last
    exact absurd later (Nat.not_lt.mpr last)
  · rw [walks] at last
    obtain ⟨d, v, out, gone, within⟩ := Session.SetsOut.of_walkAbout comes onMap present later last
    exact ⟨map, d, v, out, gone, within⟩

/-- A frame that comes to its end does so after its walks. -/
theorem walk_lt (plays : s.Plays game a) (next : NextFrame game a b) {map : TileMap} {d : Direction}
    {v : Session} (out : a.SetsOut game map d v) :
    (Play.final (Play.walk game map d v)).host.frame < b.host.frame := by
  obtain ⟨w, comes, onMap, present, walked⟩ := out.walkAbout
  have course : Stretch s w := (stretch_of_frames plays.1).trans comes.stretch
  have played := next.2
  rw [h.playFrame_eq plays comes] at played
  obtain ⟨_, u, controlled, played⟩ := Play.bind_eq_ok_iff.mp played
  obtain ⟨-, rfl⟩ := Play.advance_eq_ok_iff.mp played
  rcases h.control_eq course onMap present with walks | ⟨e, fails⟩
  · exact Nat.lt_succ_of_le (walked (walks.symm.trans controlled))
  · exact nomatch fails.symm.trans controlled

/-- Without sensors nothing on the way of the player asks for a scene. -/
theorem request_control (course : Stretch s w) :
    (Play.final (Play.control game w)).stage.request = w.stage.request := by
  rcases h.control_cases course with still | ⟨map, onMap, -, walks⟩
  · rw [still]
  · have bare : map.sensors = [] := h.sensors (course.map_eq.symm.trans onMap)
    have sensors : ∀ sensor ∈ map.sensors, Play.Keeps
        (Session.Ordered fun orders => orders.2 = w.stage.request)
        (Play.runList game sensor.events true) := by
      rw [bare]
      exact List.forall_mem_nil _
    rw [walks]
    exact ((steady_ordered _).walkAbout sensors).final rfl

/-- No frame asks for a scene. -/
theorem request_eq_none (plays : s.Plays game a) (next : NextFrame game a b) :
    b.stage.request = none := by
  have goes := frame_lt_of_playFrame next.2
  obtain ⟨w, comes⟩ := h.comesTo plays (by rw [next.2]; exact goes)
  have course : Stretch s w := (stretch_of_frames plays.1).trans comes.stretch
  have played := next.2
  rw [h.playFrame_eq plays comes] at played
  obtain ⟨_, u, controlled, played⟩ := Play.bind_eq_ok_iff.mp played
  obtain ⟨-, rfl⟩ := Play.advance_eq_ok_iff.mp played
  have kept := h.request_control course
  rw [controlled] at kept
  exact kept.trans ((h.brief_comesTo plays comes).2.trans plays.2)

/-- A scene is left only if it was asked to before its first frame. -/
theorem stays {request : SceneRequest} {u : Session}
    (left : Play.playScene game s = .ok request u) : s.stage.request = some request := by
  obtain ⟨t, frames, result⟩ := playedOut game s
  rw [left] at result
  obtain ⟨asked, -⟩ := result
  induction frames with
  | refl => exact asked
  | tail frames next ih =>
    rw [h.request_eq_none ⟨frames, next.1⟩ next] at asked
    exact nomatch asked

end Session.Unblocked

/-! ### What handlers hear -/

/-- Every frame that a scene plays passes in one that begins in it. -/
theorem exists_plays_of_frames {game : Game} {s t : Session}
    (frames : Relation.ReflTransGen (NextFrame game) s t) {frame : Nat} (since : s.host.frame ≤ frame)
    (last : frame < t.host.frame) :
    ∃ a, s.Plays game a ∧ a.host.frame ≤ frame ∧
      frame < (Play.final (Play.playFrame game a)).host.frame := by
  induction frames with
  | refl => exact absurd last (Nat.not_lt.mpr since)
  | @tail b c frames next ih =>
    by_cases earlier : frame < b.host.frame
    · exact ih earlier
    · refine ⟨b, ⟨frames, next.1⟩, Nat.not_lt.mp earlier, ?_⟩
      rw [next.2]
      exact last

theorem exists_plays {game : Game} {s : Session} {frame : Nat} (since : s.host.frame ≤ frame)
    (last : frame < (Play.final (Play.playScene game s)).host.frame) :
    ∃ a, s.Plays game a ∧ a.host.frame ≤ frame ∧
      frame < (Play.final (Play.playFrame game a)).host.frame := by
  obtain ⟨u, frames, result⟩ := playedOut game s
  cases played : Play.playScene game s with
  | ok request t =>
    rw [played] at result last
    obtain ⟨-, rfl⟩ := result
    exact exists_plays_of_frames frames since last
  | error e t =>
    rw [played] at result last
    rcases result with ⟨goes, stops⟩ | ⟨-, rfl⟩
    · by_cases earlier : frame < u.host.frame
      · exact exists_plays_of_frames frames since earlier
      · refine ⟨u, ⟨frames, goes⟩, Nat.not_lt.mp earlier, ?_⟩
        rw [stops]
        exact last
    · exact exists_plays_of_frames frames since last

namespace Session.ComesTo

variable {game : Game} {a w : Session} {i : Nat}

/-- Whoever comes to all handlers comes to each of them, and from there to the others. -/
theorem split (comes : a.ComesTo game a.stage.handlers.length w) (i : Nat) :
    ∃ u, a.ComesTo game i u ∧
      Play.runEvents game game.config.maxDepth true (a.stage.handlers.drop i) u = .ok () w := by
  rw [Session.ComesTo, List.take_length, ← List.take_append_drop i a.stage.handlers,
    Play.runEvents_append] at comes
  obtain ⟨_, u, first, rest⟩ := Play.bind_eq_ok_iff.mp comes
  exact ⟨u, first, rest⟩

/-- Nobody comes to the end of a handler if the limit of nesting leaves no room for it. -/
theorem maxDepth_pos (comes : a.ComesTo game a.stage.handlers.length w) {event : Event}
    (is : a.stage.handlers[i]? = some event) : 0 < game.config.maxDepth := by
  obtain ⟨u, -, rest⟩ := comes.split i
  obtain ⟨inside, -⟩ := List.getElem?_eq_some_iff.mp is
  rw [List.drop_eq_getElem_cons inside] at rest
  by_contra none
  rw [Nat.eq_zero_of_not_pos none] at rest
  exact nomatch rest

end Session.ComesTo

namespace Session.Unblocked

variable {game : Game} {input : InputScript} {s a : Session} {i frame : Nat} {buttons : List Button}
  {body : Handle} {button : Button}

/-- A frame that passes in a walk is not heard. -/
theorem not_hears (h : s.Unblocked game) (passes : s.WalksPast game frame) :
    ¬s.Hears game i frame := by
  obtain ⟨a, map, d, v, plays, out, since, last⟩ := passes
  rintro ⟨b, u, plays', ⟨comes, -⟩, rfl⟩
  have here := (h.brief_comesTo plays' comes).1
  have setOut := out.stretch.clock_le.1
  rcases Relation.ReflTransGen.total_of_right_unique (rightUnique_nextFrame game) plays.1 plays'.1
    with ahead | behind
  · rcases Relation.reflTransGen_iff_eq_or_transGen.mp ahead with rfl | later
    · omega
    · obtain ⟨c, next, frames⟩ := Relation.TransGen.head'_iff.mp later
      have ended := h.walk_lt plays next out
      have between := (stretch_of_frames frames).clock_le.1
      omega
  · have between := (stretch_of_frames behind).clock_le.1
    omega

/-- The first frame of those that pass in one is heard. -/
theorem hears (h : s.Unblocked game) (listens : s.Listens input) (plays : s.Plays game a)
    (takes : a.host.frame < (Play.final (Play.playFrame game a)).host.frame)
    (is : s.stage.handlers[i]? = some (.onButtonPress buttons body)) (mem : button ∈ buttons)
    (pressed : input.PressedAt button a.host.frame) : s.Hears game i a.host.frame := by
  rw [← handlers_of_frames plays.1] at is
  obtain ⟨w, comes⟩ := h.comesTo plays takes
  obtain ⟨u, here, -⟩ := comes.split i
  have same := (h.brief_comesTo plays here).1
  refine ⟨a, u, plays, (Session.fires_iff is).mpr ⟨here, comes.maxDepth_pos is, ?_⟩, same⟩
  have course : Stretch s u := (stretch_of_frames plays.1).trans here.stretch
  rw [← same, ← (listens.stretch course).pressed] at pressed
  exact List.any_eq_true.mpr ⟨button, mem, pressed⟩

theorem hears_iff (h : s.Unblocked game) (listens : s.Listens input)
    (is : s.stage.handlers[i]? = some (.onButtonPress buttons body)) (mem : button ∈ buttons)
    (pressed : input.PressedAt button frame) (since : s.host.frame ≤ frame)
    (last : frame < (Play.final (Play.playScene game s)).host.frame) :
    s.Hears game i frame ↔ ¬s.WalksPast game frame := by
  refine ⟨fun hears passes => h.not_hears passes hears, fun free => ?_⟩
  obtain ⟨a, plays, begun, ends⟩ := exists_plays since last
  rcases Nat.eq_or_lt_of_le begun with rfl | later
  · exact h.hears listens plays ends is mem pressed
  · obtain ⟨map, d, v, out, gone, within⟩ := h.setsOut plays later ends
    exact absurd ⟨a, map, d, v, plays, out, gone, within⟩ free

end Session.Unblocked

/-- Only a player on a map walks. -/
theorem Session.WalksPast.staged {game : Game} {s : Session} {frame : Nat}
    (h : s.WalksPast game frame) : s.stage.map.isSome ∧ s.stage.player.isSome := by
  obtain ⟨a, map, d, v, plays, out, -⟩ := h
  have course := stretch_of_frames plays.1
  rw [← course.map_eq, ← course.player_isSome]
  exact out.staged

/-- How the handlers of a scene hear the presses of their buttons, from a session on. -/
structure Session.HearsPresses (game : Game) (input : InputScript) (s : Session) : Prop where
  /-- The scene is left only if it was asked to before its first frame. -/
  stays {request : SceneRequest} {t : Session} (left : Play.playScene game s = .ok request t) :
    s.stage.request = some request
  /-- A press is heard in its own frame, unless and only unless this passes in a walk. -/
  hears_iff {i : Nat} {buttons : List Button} {body : Handle}
    (is : s.stage.handlers[i]? = some (.onButtonPress buttons body)) {button : Button}
    (mem : button ∈ buttons) {frame : Nat} (pressed : input.PressedAt button frame)
    (since : s.host.frame ≤ frame)
    (last : frame < (Play.final (Play.playScene game s)).host.frame) :
    s.Hears game i frame ↔ ¬s.WalksPast game frame
  /-- Without a player or a map, no frame does. -/
  unmanned (empty : s.stage.player = none ∨ s.stage.map = none) (frame : Nat) :
    ¬s.WalksPast game frame

/-- **Handlers hear every press, but for those that pass in a walk.** In every scene of a game in which
nothing scripted blocks, and in every frame of it in which the script begins to hold a button of a
registered handler, the handler has its body run, unless and only unless that frame passes while the
player walks, or is the one in which a walk comes to its end; in a scene without a player or a map,
the handler hears them all. Nothing leaves the scene on the way. -/
theorem hearsPresses_session {game : Game} {input : InputScript} {budget : Option Nat} {stops : Bool}
    {s : Session} (start : game.session (.fresh input budget stops) = .ok s) (calls : List Call)
    (unblocked : (s.after game calls).Unblocked game) :
    (s.after game calls).HearsPresses game input := by
  constructor
  case stays =>
    intro request t left
    exact unblocked.stays left
  case hears_iff =>
    intro i buttons body is button mem frame pressed since last
    exact unblocked.hears_iff (.after start calls) is mem pressed since last
  case unmanned =>
    rintro empty frame walks
    obtain ⟨onMap, present⟩ := walks.staged
    rcases empty with nobody | nowhere
    · rw [nobody] at present
      cases present
    · rw [nowhere] at onMap
      cases onMap

/-- In the yard nothing blocks: the bell rings at once. -/
theorem unblocked_bell {input : InputScript} {budget : Option Nat} {stops : Bool} {s : Session}
    (start : Game.bell.session (.fresh input budget stops) = .ok s) :
    (s.after Game.bell [.enter "yard"]).Unblocked Game.bell := by
  cases start
  constructor
  case sensors =>
    rintro map ⟨⟩
    rfl
  case interact =>
    intro actor mem
    cases List.mem_singleton.mp mem
    rfl
  case update =>
    intro actor mem
    cases List.mem_singleton.mp mem
    rfl
  case brief =>
    intro handler mem u _
    cases List.mem_singleton.mp mem
    rw [Play.runEvent_onButtonPress (by decide)]
    cases u.host.states.anyPressed [.activate] <;> exact ⟨rfl, rfl⟩

/-- A player who stands in the yard has the bell rung, in the frame of the press. -/
theorem hearsPresses_session_bell :
    let input := (InputScript.empty.idle 2).hold [.activate] 3
    ∃ s, Game.bell.session (.fresh input (some 9) false) = .ok s ∧
      (s.after Game.bell [.enter "yard"]).Unblocked Game.bell ∧
      (s.after Game.bell [.enter "yard"]).HearsPresses Game.bell input ∧
      (s.after Game.bell [.enter "yard", .frame, .frame]).host.sounds.size = 0 ∧
      (s.after Game.bell [.enter "yard", .frame, .frame, .frame]).host.sounds.size = 1 :=
  ⟨_, rfl, unblocked_bell rfl, hearsPresses_session rfl _ (unblocked_bell rfl), by decide +kernel,
    by decide +kernel⟩

/-- A player who walks across the yard has the bell missed, if its button is pressed on the way. -/
theorem not_always_heard :
    ¬∀ (game : Game) (input : InputScript) (budget : Option Nat) (stops : Bool) (s : Session)
        (calls : List Call), game.graph.check = .ok () →
      game.session (.fresh input budget stops) = .ok s → (s.after game calls).Unblocked game →
      ∀ (i : Nat) (buttons : List Button) (body : Handle),
        (s.after game calls).stage.handlers[i]? = some (.onButtonPress buttons body) →
      ∀ button ∈ buttons, ∀ frame, input.PressedAt button frame →
        (s.after game calls).host.frame ≤ frame →
        frame < (Play.final (Play.playScene game (s.after game calls))).host.frame →
        (s.after game calls).Hears game i frame := by
  intro always
  let input : InputScript :=
    ((InputScript.empty.hold [.right] 2).hold [.right, .activate] 1).hold [.right] 1
  let s : Session := .start (.fresh input (some 9) false) .empty (.bare .fallback)
  have start : Game.bell.session (.fresh input (some 9) false) = .ok s := rfl
  have unblocked := unblocked_bell start
  have heard := always Game.bell input (some 9) false s [.enter "yard"] (by decide +kernel) start
    unblocked 0 [.activate] ⟨4⟩ rfl .activate (List.mem_singleton_self _) 2 (by decide +kernel)
    (by decide +kernel) (by decide +kernel)
  have comes : (s.after Game.bell [.enter "yard"]).ComesTo Game.bell 1
      ((s.after Game.bell [.enter "yard"]).recorded (.onButtonPress [.activate] ⟨4⟩) true 1) := rfl
  have out := Session.SetsOut.across comes rfl rfl rfl
  exact unblocked.not_hears ⟨_, _, .right, _, ⟨.refl, rfl⟩, out, by decide +kernel, by decide +kernel⟩
    heard

end Overworld
