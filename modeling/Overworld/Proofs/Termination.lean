import Overworld.Graph.Faults
import Overworld.Proofs.Calls

/-!
When a run comes to its end.

On a host with a budget of frames every visit to a scene of a checked graph returns, since each of
its loops takes a frame every time round. A run may still go on for ever: a scene that asks for the
next one in its own entry is left before its first frame, and such visits may follow each other
without end. That is the only way in which a run does not return.
-/

namespace Overworld

open Simulation

/-! ### Checked graphs -/

theorem TileMap.grid_pos_of_fault? {m : TileMap} (sound : m.fault? = none) : 0 < m.grid := by
  unfold fault? at sound
  split at sound
  · exact nomatch sound
  · split at sound
    · exact nomatch sound
    · omega

/-- Nothing is wrong with the map of a scene in a checked graph. -/
theorem SceneGraph.fault?_eq_none {g : SceneGraph} (checked : g.check = .ok ()) {scene : Scene}
    (is : scene ∈ g.scenes) {m : TileMap} (has : scene.map = some m) : m.fault? = none := by
  have none := check_eq_ok_iff.mp checked
  simp only [faults, List.append_eq_nil_iff, List.flatMap_eq_nil_iff] at none
  have own := none.1.1.2 scene is
  simp only [sceneFaults, has, mapFaults, List.append_eq_nil_iff] at own
  simpa using own.1.2.1

/-- A map is that of a scene of the graph: the fallback has none. -/
theorem SceneGraph.scene_mem {g : SceneGraph} {name : String} {m : TileMap}
    (has : (g.scene name).map = some m) : g.scene name ∈ g.scenes := by
  unfold scene at has ⊢
  cases found : g.scene? name with
  | none =>
    rw [found] at has
    exact nomatch has
  | some scene => exact List.mem_of_find?_eq_some found

/-- The tiles of a checked graph have a size. -/
theorem SceneGraph.grid_pos {g : SceneGraph} (checked : g.check = .ok ()) {name : String}
    {m : TileMap} (has : (g.scene name).map = some m) : 0 < m.grid :=
  m.grid_pos_of_fault? (fault?_eq_none checked (scene_mem has) has)

/-! ### Time in a run -/

/-- In a checked graph every change takes a sound session on in time. -/
theorem Move.later {game : Game} (checked : game.graph.check = .ok ()) {s t : Session}
    (move : Move game s t) (sound : s.Sound) : s.Later t := by
  cases move with
  | stay step => exact Stretch.later (.single step) sound
  | arrive a allowed =>
    have clock := a.clock_apply game s
    have frame : (a.apply game s).host.frame = s.host.frame := congrArg Clock.frame clock
    exact ⟨sound.of_eq (by cases a <;> rfl) clock, Nat.le_of_eq frame.symm, Host.horizon_congr clock⟩
  | enter name =>
    have grid : ∀ m, (s.entering game name).stage.map = some m → 0 < m.grid :=
      fun m has => SceneGraph.grid_pos checked has
    exact ⟨⟨grid, sound.limited, sound.inTime⟩, Nat.le_refl _, rfl⟩

theorem Course.later {game : Game} (checked : game.graph.check = .ok ()) {s t : Session}
    (course : Course game s t) (sound : s.Sound) : s.Later t :=
  course.keeps (P := s.Later)
    (fun _ _ move later => later.trans (move.later checked later.sound)) (.refl sound)

/-- A game beside itself on a host with a budget, from a session on. -/
def timed (game : Game) (start : Session) : Simulation game game.config.maxDepth :=
  beside game start.Later Halt.Regular
    (fun _ _ step later => later.trans (Stretch.later (.single step.stay) later.sound))
    (fun _ regular => regular) (.inr fun _ later => later.sound)

theorem does_timed (game : Game) (start : Session) (d : Deed) : (timed game start).Does d :=
  does_beside fun _ allowed later =>
    later.trans (Stretch.later (.single (.deed d allowed)) later.sound)

theorem walks_timed (game : Game) (start : Session) : (timed game start).Walks :=
  .of_does fun d _ => does_timed game start d

theorem enters_timed {game : Game} (checked : game.graph.check = .ok ()) (start : Session)
    (name : String) : (timed game start).Enters name := by
  rintro u v ⟨same, later⟩
  exact ⟨by rw [same], later.trans (Move.later checked (.enter name) later.sound)⟩

theorem arrives_timed {game : Game} (checked : game.graph.check = .ok ()) (start : Session) :
    (timed game start).Arrives := by
  rintro u v a ⟨same, later⟩ allowed
  exact ⟨by rw [same], later.trans (Move.later checked (.arrive a allowed) later.sound)⟩

/-- What tracks itself from a sound session on returns. -/
theorem TracksFrom.returns {game : Game} {α : Type} {P : Session → Prop} {s : Session}
    {x y : Play α} (h : (timed game s).TracksFrom P x y) (sound : s.Sound) (hP : P s) :
    Play.Returns (x s) := by
  have regular := (h.holds (.refl sound) hP).2
  cases is : x s with
  | ok a t => exact .ok a t
  | error e t => exact .error t (regular e t is)

theorem Tracks.returns {game : Game} {α : Type} {s : Session} {x y : Play α}
    (h : (timed game s).Tracks x y) (sound : s.Sound) : Play.Returns (x s) :=
  TracksFrom.returns (h.from : (timed game s).TracksFrom (fun _ => True) x y) sound trivial

/-- A visit comes to an end. -/
theorem returns_visit {game : Game} (checked : game.graph.check = .ok ()) (name : String)
    {s : Session} (sound : s.Sound) : Play.Returns (Play.visit game name s) :=
  Tracks.returns (.visit (enters_timed checked s name) (arrives_timed checked s) (does_timed game s))
    sound

/-- A scene that is played before it is left takes time. -/
theorem frame_lt_of_playScene {game : Game} {request : SceneRequest} {s t : Session}
    (asked : s.stage.request = none) (played : Play.playScene game s = .ok request t) :
    s.host.frame < t.host.frame := by
  obtain ⟨_, u, frames, hidden⟩ := Play.bind_eq_ok_iff.mp played
  rw [Play.patience, framesUntilRequest_succ, asked] at frames
  obtain ⟨_, v, first, rest⟩ := Play.bind_eq_ok_iff.mp frames
  have onward : Stretch v u :=
    TracksFrom.stretch_ok (.framesUntilRequest (walks_within game v) Host.frameCeiling)
      (.inl ⟨trivial, trivial⟩) rest
  have still : t.host.frame = u.host.frame := by
    cases hidden
    rfl
  rw [still]
  exact Nat.lt_of_lt_of_le (frame_lt_of_playFrame first) onward.clock_le.1

/-- Before the first scene a session with a budget is sound. -/
theorem sound_session {game : Game} {input : InputScript} {n : Nat} {stops : Bool} {s : Session}
    (le : n ≤ Host.frameCeiling) (start : game.session (.fresh input (some n) stops) = .ok s) :
    s.Sound := by
  obtain ⟨vars, -, rfl⟩ := Game.session_eq_ok_iff.mp start
  exact ⟨nofun, ⟨n, rfl, le⟩, Nat.zero_le _⟩

/-! ### Visits one after the other -/

/-- A visit, and the scene that is to be entered after it. -/
def Leads (game : Game) (a b : String × Session) : Prop :=
  ∃ request, Play.visit game a.1 a.2 = .ok request b.2 ∧ b.1 = request.target

/-- Any number of visits. -/
abbrev Reached (game : Game) : String × Session → String × Session → Prop :=
  Relation.ReflTransGen (Leads game)

/-- From here on one scene is entered after the other for ever, and not a single frame is played. -/
def Idles (game : Game) (a : String × Session) : Prop :=
  ∀ b, Reached game a b → b.2.host.frame = a.2.host.frame ∧ ∃ c, Leads game b c

/-- A run that goes on for ever: some time it idles. -/
def Stalls (game : Game) (a : String × Session) : Prop :=
  ∃ b, Reached game a b ∧ Idles game b

/-- A run from a visit on ends, after some number of visits. -/
def Ends (game : Game) (a : String × Session) : Prop :=
  ∃ scenes, Play.Returns (Play.playScenes game scenes a.1 a.2)

section

variable {game : Game} {a b c : String × Session}

/-- From a visit on a run does what it does after it. -/
theorem Leads.playScenes_eq (h : Leads game a b) (scenes : Nat) :
    Play.playScenes game (scenes + 1) a.1 a.2 = Play.playScenes game scenes b.1 b.2 := by
  obtain ⟨request, visited, target⟩ := h
  rw [Play.playScenes_succ, visited, target]

theorem Leads.ends (h : Leads game a b) (ends : Ends game b) : Ends game a := by
  obtain ⟨scenes, returns⟩ := ends
  exact ⟨scenes + 1, h.playScenes_eq scenes ▸ returns⟩

/-- A run that ends after some visits ends. -/
theorem ends_of_reached (reached : Reached game a b) (ends : Ends game b) : Ends game a := by
  induction reached using Relation.ReflTransGen.head_induction_on with
  | refl => exact ends
  | head leads _ ih => exact leads.ends ih

/-- While a run idles it does not end, however many scenes it enters. -/
theorem Idles.endless (h : Idles game a) (reached : Reached game a b) (scenes : Nat) :
    ∃ u, Play.playScenes game scenes b.1 b.2 = .error .endless u := by
  induction scenes generalizing b with
  | zero => exact ⟨b.2, rfl⟩
  | succ scenes ih =>
    obtain ⟨-, c, leads⟩ := h b reached
    rw [leads.playScenes_eq]
    exact ih (reached.tail leads)

/-- A run that stalls goes on for ever. -/
theorem Stalls.endless (h : Stalls game a) (scenes : Nat) :
    ∃ u, Play.playScenes game scenes a.1 a.2 = .error .endless u := by
  obtain ⟨b, reached, idles⟩ := h
  induction reached using Relation.ReflTransGen.head_induction_on generalizing scenes with
  | refl => exact idles.endless .refl scenes
  | @head a c leads _ ih =>
    cases scenes with
    | zero => exact ⟨a.2, rfl⟩
    | succ scenes =>
      rw [leads.playScenes_eq]
      exact ih scenes

theorem Stalls.not_ends (h : Stalls game a) : ¬Ends game a := by
  rintro ⟨scenes, returns⟩
  obtain ⟨u, endless⟩ := h.endless scenes
  rw [endless, Play.returns_error_iff] at returns
  exact returns

section

variable (checked : game.graph.check = .ok ())
include checked

theorem Leads.later (h : Leads game a b) (sound : a.2.Sound) : a.2.Later b.2 := by
  obtain ⟨request, visited, -⟩ := h
  have later := (course_visit game a.1 a.2).later checked sound
  rwa [visited] at later

theorem later_of_reached (sound : a.2.Sound) (reached : Reached game a b) : a.2.Later b.2 := by
  induction reached with
  | refl => exact .refl sound
  | tail _ leads later => exact later.trans (leads.later checked later.sound)

/-- A visit that takes no time is over when its scene has been entered. -/
theorem Leads.request_of_still (leads : Leads game a b) (sound : a.2.Sound)
    (still : b.2.host.frame = a.2.host.frame) :
    ∃ u, Play.enterScene game a.1 a.2 = .ok () u ∧ u.stage.request ≠ none := by
  obtain ⟨request, visited, -⟩ := leads
  obtain ⟨_, u, entered, played⟩ := Play.bind_eq_ok_iff.mp visited
  have course : Course game a.2 u := by
    simpa only [Call.perform, entered, Play.final_ok] using (Call.enter a.1).course game a.2
  have before := (course.later checked sound).frame_le
  refine ⟨u, entered, fun none => ?_⟩
  have after := frame_lt_of_playScene none played
  omega

/-- A run goes on after a visit, or returns. -/
theorem leads_or_returns (sound : a.2.Sound) :
    (∃ b, Leads game a b) ∨ ∀ scenes, Play.Returns (Play.playScenes game (scenes + 1) a.1 a.2) := by
  have returns := returns_visit checked a.1 sound
  cases visited : Play.visit game a.1 a.2 with
  | ok request t => exact .inl ⟨(request.target, t), request, visited, rfl⟩
  | error e t =>
    rw [visited, Play.returns_error_iff] at returns
    refine .inr fun scenes => ?_
    rw [Play.playScenes_succ, visited]
    cases e with
    | host stop => exact .ok stop t
    | _ => exact .error t returns

/-- A run that returns returns as well if it may enter more scenes. -/
theorem returns_of_le {scenes more : Nat} (sound : a.2.Sound) (le : scenes ≤ more)
    (returns : Play.Returns (Play.playScenes game scenes a.1 a.2)) :
    Play.Returns (Play.playScenes game more a.1 a.2) := by
  induction scenes generalizing a more with
  | zero => exact (Play.returns_error_iff.mp returns).elim
  | succ scenes ih =>
    cases more with
    | zero => omega
    | succ more =>
      rcases leads_or_returns checked sound with ⟨b, leads⟩ | returns
      · rw [leads.playScenes_eq] at returns ⊢
        exact ih (leads.later checked sound).sound (Nat.le_of_succ_le_succ le) returns
      · exact returns more

/-- A run ends unless it stalls: where it plays a frame again and again it uses up the frames that
are left. -/
theorem ends_or_stalls (sound : a.2.Sound) : Ends game a ∨ Stalls game a := by
  induction left : a.2.host.framesLeft using Nat.strongRecOn generalizing a with
  | ind n ih =>
    by_cases still : ∀ b, Reached game a b → b.2.host.frame = a.2.host.frame
    · by_cases onward : ∀ b, Reached game a b → ∃ c, Leads game b c
      · exact .inr ⟨a, .refl, fun b reached => ⟨still b reached, onward b reached⟩⟩
      · simp only [Classical.not_forall] at onward
        obtain ⟨b, reached, last⟩ := onward
        have sound := (later_of_reached checked sound reached).sound
        have returns := (leads_or_returns checked sound).resolve_left last
        exact .inl (ends_of_reached reached ⟨1, returns 0⟩)
    · simp only [Classical.not_forall] at still
      obtain ⟨b, reached, moved⟩ := still
      have later := later_of_reached checked sound reached
      have frame_le := later.frame_le
      have fewer := later.framesLeft_lt (by omega)
      rcases ih _ (left ▸ fewer) later.sound rfl with ends | ⟨c, onward, idles⟩
      · exact .inl (ends_of_reached reached ends)
      · exact .inr ⟨c, reached.trans onward, idles⟩

/-- A run in which every visit takes time enters at most one scene more than there are frames. -/
theorem returns_of_brisk (sound : a.2.Sound)
    (brisk : ∀ b c, Reached game a b → Leads game b c → b.2.host.frame < c.2.host.frame)
    {scenes : Nat} (enough : a.2.host.framesLeft < scenes) :
    Play.Returns (Play.playScenes game scenes a.1 a.2) := by
  induction scenes generalizing a with
  | zero => omega
  | succ scenes ih =>
    rcases leads_or_returns checked sound with ⟨b, leads⟩ | returns
    · rw [leads.playScenes_eq]
      have later := leads.later checked sound
      have fewer := later.framesLeft_lt (brisk a b .refl leads)
      exact ih later.sound (fun c d reached => brisk c d (.head leads reached)) (by omega)
    · exact returns scenes

end

end

/-- A run returns if it ends after some number of the visits that it can count. -/
theorem returns_run {game : Game} {s : Session}
    (returns : Play.Returns
      (Play.playScenes game (Play.sceneCeiling - s.entered) game.graph.start s)) :
    Play.Returns (Play.run game s) := by
  rw [Play.run_eq]
  cases played : Play.playScenes game (Play.sceneCeiling - s.entered) game.graph.start s with
  | ok stop t => exact .ok _ _
  | error e t =>
    rw [played, Play.returns_error_iff] at returns
    exact .error t returns

/-! ### The law of runs -/

/-- How a run ends that starts in a session. -/
structure Session.RunsOut (game : Game) (s : Session) : Prop where
  /-- Every visit returns. -/
  visit {a : String × Session} (reached : Reached game (game.graph.start, s) a) :
    Play.Returns (Play.visit game a.1 a.2)
  /-- A scene that is left before its first frame has asked for the next one in its own entry. -/
  still {a b : String × Session} (reached : Reached game (game.graph.start, s) a)
    (leads : Leads game a b) (still : b.2.host.frame = a.2.host.frame) :
    ∃ u, Play.enterScene game a.1 a.2 = .ok () u ∧ u.stage.request ≠ none
  /-- The run ends if and only if it does not stall. -/
  ends : Ends game (game.graph.start, s) ↔ ¬Stalls game (game.graph.start, s)
  /-- It returns if it ends while its visits can be counted. -/
  counted {scenes : Nat} (le : scenes ≤ Play.sceneCeiling - s.entered)
    (returns : Play.Returns (Play.playScenes game scenes game.graph.start s)) :
    Play.Returns (Play.run game s)
  /-- It returns if every visit takes time and it can count more visits than there are frames left. -/
  brisk (enough : s.host.framesLeft < Play.sceneCeiling - s.entered)
    (moves : ∀ a b, Reached game (game.graph.start, s) a → Leads game a b →
      a.2.host.frame < b.2.host.frame) :
    Play.Returns (Play.run game s)

/-- **A run ends unless it stalls.** On a host with a budget every visit to a scene of a checked
graph returns, and so does the run, whatever was asked of the game before, unless it enters scenes
for ever that are left before their first frame. -/
theorem runsOut {game : Game} {input : InputScript} {n : Nat} {stops : Bool} {s : Session}
    (checked : game.graph.check = .ok ()) (le : n ≤ Host.frameCeiling)
    (start : game.session (.fresh input (some n) stops) = .ok s) (calls : List Call) :
    (s.after game calls).RunsOut game := by
  have sound := ((s.course_after game calls).later checked (sound_session le start)).sound
  constructor
  case visit =>
    intro a reached
    exact returns_visit checked a.1 (later_of_reached checked sound reached).sound
  case still =>
    intro a b reached leads still
    exact leads.request_of_still checked (later_of_reached checked sound reached).sound still
  case ends =>
    constructor
    · intro ends stalls
      exact stalls.not_ends ends
    · intro lively
      exact (ends_or_stalls checked sound).resolve_right lively
  case counted =>
    intro scenes le returns
    exact returns_run (returns_of_le checked (a := (_, _)) sound le returns)
  case brisk =>
    intro enough moves
    exact returns_run (returns_of_brisk checked (a := (_, _)) sound moves enough)

/-- In the sample the player walks through the gate and comes back from the hall. -/
theorem runsOut_sample :
    ∃ s, Game.sample.session (.fresh (InputScript.empty.hold [.right] 9) (some 9) false) = .ok s ∧
      (s.after Game.sample [.enter "hall", .frame]).RunsOut Game.sample :=
  ⟨_, rfl, runsOut rfl (by decide) rfl _⟩

/-- A game with one scene, which asks for itself as it is entered. -/
def Game.circle : Game where
  graph :=
    { SceneGraph.empty with
      lists := [[], [.goToScene "circle" .unset]]
      scenes := [{ Scene.called "circle" with events := ⟨1⟩ }] }
  config := .standard

/-- However often the scene is entered, it is left before its first frame. -/
theorem playScenes_circle (scenes : Nat) (s : Session) :
    ∃ t, Play.playScenes Game.circle scenes Game.circle.graph.start s = .error .endless t := by
  induction scenes generalizing s with
  | zero => exact ⟨s, rfl⟩
  | succ scenes ih =>
    obtain ⟨t, visited⟩ : ∃ t, Play.visit Game.circle Game.circle.graph.start s =
        .ok ⟨Game.circle.graph.start, .unset⟩ t := ⟨_, rfl⟩
    rw [Play.playScenes_succ, visited]
    exact ih t

theorem not_ends_circle (s : Session) : ¬Ends Game.circle (Game.circle.graph.start, s) := by
  rintro ⟨scenes, returns⟩
  obtain ⟨t, endless⟩ := playScenes_circle scenes s
  rw [endless, Play.returns_error_iff] at returns
  exact returns

theorem not_returns_circle (s : Session) : ¬Play.Returns (Play.run Game.circle s) := by
  intro returns
  obtain ⟨t, endless⟩ := playScenes_circle (Play.sceneCeiling - s.entered) s
  rw [Play.run_eq, endless, Play.returns_error_iff] at returns
  exact returns

/-- Its graph has no fault, and yet a run with a budget of ten frames goes on for ever. -/
theorem run_circle_endless :
    Game.circle.graph.check = .ok () ∧
      ∃ s, Game.circle.session (.fresh .empty (some 10) false) = .ok s ∧
        ¬Ends Game.circle (Game.circle.graph.start, s) ∧ ¬Play.Returns (Play.run Game.circle s) :=
  ⟨rfl, _, rfl, not_ends_circle _, not_returns_circle _⟩

end Overworld
