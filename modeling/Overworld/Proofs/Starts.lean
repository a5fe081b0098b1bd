import Mathlib.Data.List.Basic
import Mathlib.Data.List.Induction
import Overworld.Proofs.Termination
import Overworld.Proofs.Validity
import Overworld.Proofs.Words

/-!
Where the player stands when a scene is entered.

A scene that is left for another keeps the request in mind that led out of it, and the first scene
that can take it places the player where it says; every other scene places the player itself. Which
request is kept depends on everything that was asked of the game before (`Remembered`). The session
has no more of it than the request, and that is enough (`pending_after_iff`).

The corner of a tile is computed with words of 32 bits in the end, so where it has no more of them
(`TileMap.Reaches`) the player stands on the tile.
-/

namespace Overworld

open Simulation Word

/-! ### What was asked before -/

/-- Something that a game was asked to do, with the session in which it was. -/
structure Episode where
  session : Session
  call : Call

/-- Calls with the sessions in which they are made, the first one first. -/
def Session.history (game : Game) (s : Session) : List Call → List Episode
  | [] => []
  | call :: calls => ⟨s, call⟩ :: history game (Play.final (call.perform game s)) calls

theorem Session.history_append (game : Game) (s : Session) (calls more : List Call) :
    s.history game (calls ++ more) =
      s.history game calls ++ (s.after game calls).history game more := by
  induction calls generalizing s with
  | nil => rfl
  | cons call calls ih => exact congrArg (⟨s, call⟩ :: ·) (ih _)

theorem Session.after_append (game : Game) (s : Session) (calls more : List Call) :
    s.after game (calls ++ more) = (s.after game calls).after game more :=
  List.foldl_append

/-- The tile of a start position. -/
def StartPosition.tile (start : StartPosition) (vars : Variables) : Tile :=
  ⟨start.x.int vars, start.y.int vars⟩

/-- A start position that leaves no coordinate to the scene. -/
def StartPosition.Given (start : StartPosition) (vars : Variables) : Prop :=
  start.x.int vars ≠ unsetCoordinate ∧ start.y.int vars ≠ unsetCoordinate

instance (start : StartPosition) (vars : Variables) : Decidable (start.Given vars) :=
  inferInstanceAs (Decidable (_ ∧ _))

/-- The tile where a scene places its player. -/
def PlayerSpawn.tile (spawn : PlayerSpawn) (vars : Variables) : Tile :=
  ⟨spawn.x.int vars, spawn.y.int vars⟩

/-- A scene in which a request places the player: it has a player and a map, the request is for it,
and gives both coordinates. -/
def Scene.Takes (scene : Scene) (request : SceneRequest) (vars : Variables) : Prop :=
  scene.player.isSome ∧ scene.map.isSome ∧ scene.answersTo request.target ∧
    request.start.Given vars

instance (scene : Scene) (request : SceneRequest) (vars : Variables) :
    Decidable (scene.Takes request vars) :=
  inferInstanceAs (Decidable (_ ∧ _ ∧ _ ∧ _))

/-- A scene was played until it asked for another. -/
def Episode.Ended (game : Game) (e : Episode) (request : SceneRequest) : Prop :=
  e.call = .scene ∧ ∃ t, Play.playScene game e.session = .ok request t

/-- A scene was entered that takes a request. -/
def Episode.Uses (game : Game) (e : Episode) (request : SceneRequest) : Prop :=
  ∃ name, e.call = .enter name ∧ (game.graph.scene name).Takes request e.session.vars

/-- The request of the last scene that asked for another, if no scene that takes it was entered
since. -/
def Remembered (game : Game) (history : List Episode) (request : SceneRequest) : Prop :=
  ∃ earlier e later, history = earlier ++ e :: later ∧ e.Ended game request ∧
    ∀ l ∈ later, (∀ other, ¬l.Ended game other) ∧ ¬l.Uses game request

/-- What is remembered after one more call. -/
theorem remembered_concat_iff {game : Game} {history : List Episode} {e : Episode}
    {request : SceneRequest} :
    Remembered game (history ++ [e]) request ↔
      e.Ended game request ∨
        Remembered game history request ∧ (∀ other, ¬e.Ended game other) ∧
          ¬e.Uses game request := by
  constructor
  · rintro ⟨earlier, d, later, is, ended, since⟩
    rcases List.eq_nil_or_concat' later with rfl | ⟨later, l, rfl⟩
    · obtain ⟨-, same⟩ := List.append_inj' is rfl
      cases same
      exact .inl ended
    · rw [← List.cons_append, ← List.append_assoc] at is
      obtain ⟨rfl, same⟩ := List.append_inj' is rfl
      cases same
      have last := since e (List.mem_append_right _ List.mem_cons_self)
      refine .inr ⟨⟨earlier, d, later, rfl, ended, fun l mem => ?_⟩, last⟩
      exact since l (List.mem_append_left _ mem)
  · rintro (ended | ⟨⟨earlier, d, later, rfl, ended, since⟩, last⟩)
    · exact ⟨history, e, [], rfl, ended, fun l mem => absurd mem List.not_mem_nil⟩
    · refine ⟨earlier, d, later ++ [e], by simp, ended, fun l mem => ?_⟩
      rcases List.mem_append.mp mem with old | new
      · exact since l old
      · rw [List.mem_singleton.mp new]
        exact last

/-- What is remembered after calls by which no scene is left. -/
theorem remembered_append_iff {game : Game} {history more : List Episode} {request : SceneRequest}
    (still : ∀ e ∈ more, ∀ other, ¬e.Ended game other) :
    Remembered game (history ++ more) request ↔
      Remembered game history request ∧ ∀ e ∈ more, ¬e.Uses game request := by
  induction more using List.reverseRecOn with
  | nil => simp
  | append_singleton more e ih =>
    have before := ih fun d mem => still d (List.mem_append_left _ mem)
    have last := still e (List.mem_append_right _ List.mem_cons_self)
    rw [← List.append_assoc, remembered_concat_iff, before]
    constructor
    · rintro (ended | ⟨⟨kept, idle⟩, -, unused⟩)
      · exact absurd ended (last request)
      · refine ⟨kept, fun d mem => ?_⟩
        rcases List.mem_append.mp mem with old | new
        · exact idle d old
        · rw [List.mem_singleton.mp new]
          exact unused
    · rintro ⟨kept, idle⟩
      refine .inr ⟨⟨kept, fun d mem => idle d (List.mem_append_left _ mem)⟩, last, ?_⟩
      exact idle e (List.mem_append_right _ List.mem_cons_self)

/-! ### The place of the player -/

/-- The request that places the player in a scene, if one does. -/
def Session.placing? (s : Session) (scene : Scene) : Option SceneRequest :=
  s.pending.filter fun request => scene.Takes request s.vars

/-- Where the player of a scene is placed, and in which direction. -/
def Session.placement (s : Session) (scene : Scene) (spawn : PlayerSpawn) : Tile × Direction :=
  match s.placing? scene with
  | some request => (request.start.tile s.vars, request.start.direction)
  | none => (spawn.tile s.vars, spawn.direction)

/-- The request that is still kept in mind when a scene was entered. -/
def Session.unused? (s : Session) (scene : Scene) : Option SceneRequest :=
  if (s.placing? scene).isSome then none else s.pending

section

variable {s : Session} {scene : Scene}

theorem Session.placing?_eq_some_iff {request : SceneRequest} :
    s.placing? scene = some request ↔ s.pending = some request ∧ scene.Takes request s.vars := by
  simp [placing?, Option.filter_eq_some_iff]

theorem Session.placing?_eq_none_iff :
    s.placing? scene = none ↔
      ∀ request, s.pending = some request → ¬scene.Takes request s.vars := by
  simp [placing?, Option.filter_eq_none_iff]

/-- A request that a scene takes places the player, and is used up. -/
theorem Session.placement_of_takes {request : SceneRequest} (kept : s.pending = some request)
    (takes : scene.Takes request s.vars) (spawn : PlayerSpawn) :
    s.placement scene spawn = (request.start.tile s.vars, request.start.direction) ∧
      s.unused? scene = none := by
  have placing := placing?_eq_some_iff.mpr ⟨kept, takes⟩
  constructor
  · simp only [placement, placing]
  · simp [unused?, placing]

/-- Without a request that it takes, a scene places the player itself. -/
theorem Session.placement_of_others
    (others : ∀ request, s.pending = some request → ¬scene.Takes request s.vars)
    (spawn : PlayerSpawn) :
    s.placement scene spawn = (spawn.tile s.vars, spawn.direction) ∧
      s.unused? scene = s.pending := by
  have placing := placing?_eq_none_iff.mpr others
  constructor
  · simp only [placement, placing]
  · simp [unused?, placing]

/-- A request is still kept if the scene does not take it. -/
theorem Session.unused?_eq_some_iff {request : SceneRequest} :
    s.unused? scene = some request ↔ s.pending = some request ∧ ¬scene.Takes request s.vars := by
  unfold unused?
  cases placing : s.placing? scene with
  | none =>
    have others := placing?_eq_none_iff.mp placing
    simpa using others request
  | some used =>
    obtain ⟨kept, takes⟩ := placing?_eq_some_iff.mp placing
    simp only [Option.isSome_some, if_true, reduceCtorEq, false_iff]
    rintro ⟨same, idle⟩
    cases kept.symm.trans same
    exact idle takes

theorem startPosition_eq {spawn : PlayerSpawn} {map : TileMap}
    (hasPlayer : scene.player = some spawn) (hasMap : scene.map = some map) (s : Session) :
    ∃ notices, Play.startPosition scene spawn s =
      .ok (s.placement scene spawn)
        { s with notices := notices, pending := s.unused? scene } := by
  have takes (request : SceneRequest) : scene.Takes request s.vars ↔
      scene.answersTo request.target = true ∧ request.start.Given s.vars := by
    simp [Scene.Takes, hasPlayer, hasMap]
  have own : Play.Reads
      (do let tile ← Play.tileAt spawn.x spawn.y; return (tile, spawn.direction))
      fun vars => (spawn.tile vars, spawn.direction) :=
    (Play.Reads.tileAt _ _).bind fun _ => .pure _
  have fallback (others : ∀ request, s.pending = some request → ¬scene.Takes request s.vars)
      (reported : Array Notice) : ∃ notices,
        (do let tile ← Play.tileAt spawn.x spawn.y; return (tile, spawn.direction) : Play _)
          { s with notices := reported } =
        .ok (s.placement scene spawn)
          { s with notices := notices, pending := s.unused? scene } := by
    obtain ⟨placement, unused⟩ := Session.placement_of_others others spawn
    rw [placement, unused]
    exact own { s with notices := reported }
  rw [Play.startPosition, Play.get_bind_apply]
  cases kept : s.pending with
  | none => exact fallback (by simp [kept]) s.notices
  | some request =>
    dsimp only
    by_cases answers : scene.answersTo request.target
    · obtain ⟨notices, read⟩ := Play.Reads.tileAt request.start.x request.start.y s
      rw [if_pos answers, Play.bind_apply, read]
      dsimp only
      split
      · rename_i given
        have used : scene.Takes request s.vars := (takes request).mpr ⟨answers, given⟩
        obtain ⟨placement, unused⟩ := Session.placement_of_takes kept used spawn
        rw [placement, unused]
        exact ⟨notices, rfl⟩
      · rename_i given
        refine fallback (fun other same takesOther => given ?_) notices
        cases kept.symm.trans same
        exact ((takes request).mp takesOther).2
    · rw [if_neg answers]
      refine fallback (fun other same takesOther => answers ?_) s.notices
      cases kept.symm.trans same
      exact ((takes request).mp takesOther).1

end

/-! ### Entering a scene -/

/-- The deeds of events leave the player alone. -/
theorem Deed.player_apply (s : Session) {d : Deed} (scripted : d.Scripted) :
    (d.apply s).stage.player = s.stage.player := by
  cases d with
  | turn d => exact scripted.elim
  | place map position => exact scripted.elim
  | _ => rfl

/-- A scene that is left keeps its request in mind, and no other deed does. -/
theorem Deed.pending_apply (s : Session) {d : Deed} (other : ∀ request, d ≠ .remember request) :
    (d.apply s).pending = s.pending := by
  cases d with
  | remember request => exact absurd rfl (other request)
  | _ => rfl

theorem Beat.player_eq {s t : Session} (h : Beat s t) : t.stage.player = s.stage.player := by
  cases h with
  | deed d scripted _ => exact d.player_apply s scripted
  | frame goes => rfl

theorem Beat.scene_eq {s t : Session} (h : Beat s t) : t.stage.scene = s.stage.scene :=
  Stretch.scene_eq (.single h.stay)

theorem Beat.pending_eq {s t : Session} (h : Beat s t) : t.pending = s.pending := by
  cases h with
  | deed d scripted _ =>
    refine d.pending_apply s fun request is => ?_
    subst is
    exact scripted
  | frame goes => rfl

/-- A game beside itself, for as long as the scene and the player stay as they are. -/
def standing (game : Game) (stage : Stage) : Simulation game game.config.maxDepth :=
  beside game (fun s => s.stage.scene = stage.scene ∧ s.stage.player = stage.player)
    (fun _ => True) (fun _ _ beat is => ⟨beat.scene_eq.trans is.1, beat.player_eq.trans is.2⟩)
    (fun _ _ => trivial) (.inl ⟨trivial, trivial⟩)

/-- A game beside itself, for as long as the same request is kept in mind. -/
def minding (game : Game) (request : Option SceneRequest) : Simulation game game.config.maxDepth :=
  beside game (fun s => s.pending = request) (fun _ => True)
    (fun _ _ beat is => beat.pending_eq.trans is) (fun _ _ => trivial) (.inl ⟨trivial, trivial⟩)

theorem furnishes_standing (game : Game) (stage : Stage) : (standing game stage).Furnishes := by
  rintro s t a furnishes ⟨same, is⟩
  refine ⟨by rw [same], ?_⟩
  cases a with
  | player => exact furnishes.elim
  | _ => exact is

theorem furnishes_minding (game : Game) (request : Option SceneRequest) :
    (minding game request).Furnishes := by
  rintro s t a furnishes ⟨same, is⟩
  refine ⟨by rw [same], ?_⟩
  cases a with
  | forget => exact furnishes.elim
  | _ => exact is

theorem walks_minding (game : Game) (request : Option SceneRequest) :
    (minding game request).Walks :=
  .of_does fun d other => does_beside fun s _ is => (d.pending_apply s other).trans is

namespace Simulation

variable {game : Game} {α : Type} {s : Session} {x y : Play α}

theorem Tracks.stands (h : (standing game s.stage).Tracks x y) :
    (Play.final (x s)).stage.scene = s.stage.scene ∧
      (Play.final (x s)).stage.player = s.stage.player :=
  (TracksFrom.holds (P := fun _ => True) h.from ⟨rfl, rfl⟩ trivial).1

theorem Tracks.pending_eq (h : (minding game s.pending).Tracks x y) :
    (Play.final (x s)).pending = s.pending :=
  (TracksFrom.holds (P := fun _ => True) h.from rfl trivial).1

end Simulation

/-- Where the player stands, and in which direction it faces. -/
def Stage.stance? (stage : Stage) : Option (Pixel × Direction) :=
  stage.player.map fun player => (player.position, player.direction)

/-- Where the player of a scene shall stand, and in which direction it shall face, if it has a map
to stand on. -/
def Session.stance? (s : Session) (scene : Scene) : Option (Pixel × Direction) :=
  match scene.player, scene.map with
  | some spawn, some map =>
    some (map.pixelOf (s.placement scene spawn).1, (s.placement scene spawn).2)
  | _, _ => none

/-- Without a player or a map, nobody stands anywhere, and no request is used. -/
theorem Session.unplaced {scene : Scene} (s : Session)
    (lacks : scene.player = none ∨ scene.map = none) :
    s.stance? scene = none ∧ s.unused? scene = s.pending := by
  have idle (request : SceneRequest) : ¬scene.Takes request s.vars := by
    rintro ⟨hasPlayer, hasMap, -⟩
    rcases lacks with none | none
    · simp [none] at hasPlayer
    · simp [none] at hasMap
  constructor
  · unfold stance?
    rcases lacks with none | none
    · rw [none]
    · rw [none]
      cases scene.player <;> rfl
  · have placing := placing?_eq_none_iff.mpr fun request _ => idle request
    simp [unused?, placing]

/-- The map of a scene in a checked graph is a valid one. -/
theorem SceneGraph.map_valid {g : SceneGraph} (checked : g.check = .ok ()) {name : String}
    {m : TileMap} (has : (g.scene name).map = some m) : m.Valid :=
  TileMap.fault?_eq_none_iff.mp (fault?_eq_none checked (scene_mem has) has)

/-- Bring the player onto the stage, and the camera to it. -/
def Play.enterPlayerOnWords (config : Config) (scene : Scene) (spawn : PlayerSpawn) :
    WordPlay Unit := do
  match scene.map with
  | none => return
  | some map =>
    let (tile, d) ← lift (startPosition scene spawn)
    let z ← lift (intOf spawn.z)
    let corner ← compute (map.pixelOfOnWords? tile)
    let place ← compute (worldPositionOnWords? map corner spawn.sheet)
    let bounds ← compute (ScrollBounds.ofMapOnWords? map config)
    let camera ← compute (bounds.followingOnWords? map corner)
    modify fun s =>
      let (sprite, host) := s.host.createSprite (newSprite spawn.sheet place z d.idlePicture)
      let player : Player := ⟨corner, d, spawn.sheet, sprite⟩
      { s with host := host, stage := { s.stage with player := some player, camera := camera } }

/-- Where it can be drawn the player is brought onto the stage as on numbers. -/
theorem enterPlayerOnWords_eq {config : Config} {scene : Scene} {spawn : PlayerSpawn}
    {map : TileMap} {s : Session} (hasPlayer : scene.player = some spawn)
    (hasMap : scene.map = some map) (measured : map.Measured)
    (size : 0 ≤ map.pixelWidth ∧ 0 ≤ map.pixelHeight)
    (screen : Signed32 config.screenWidth ∧ Signed32 config.screenHeight)
    (draws : map.Draws spawn.sheet (map.pixelOf (s.placement scene spawn).1)) :
    Play.enterPlayerOnWords config scene spawn s = lift (Play.enterPlayer config scene spawn) s := by
  obtain ⟨notices, started⟩ := startPosition_eq hasPlayer hasMap s
  have corner := map.pixelOfOnWords?_eq draws.corner
  have place := draws.worldPositionOnWords?_eq measured
  have bounds := ScrollBounds.ofMapOnWords?_eq measured size screen
  have camera := draws.followingOnWords?_eq measured
  generalize s.placement scene spawn = placement at *
  rw [Play.enterPlayerOnWords, Play.enterPlayer, hasMap]
  refine bind_lift rfl fun start t is => ?_
  cases started.symm.trans is
  refine bind_lift rfl fun z u _ => ?_
  simp only [corner, place, bounds, camera, compute_some, pure_bind]
  rfl

/-- What the entry to a scene makes of a session. -/
structure Session.Placed (s : Session) (scene : Scene) (t : Session) : Prop where
  opened : t.stage.scene = scene
  stance : t.stage.stance? = s.stance? scene
  dressed : ∀ spawn, scene.player = some spawn →
    ∀ player, t.stage.player = some player → player.sheet = spawn.sheet
  pending : t.pending = s.unused? scene

/-- Only the variables and the request that is kept in mind have a say in the place. -/
theorem Session.placement_congr {s t : Session} {scene : Scene} (vars : s.vars = t.vars)
    (pending : s.pending = t.pending) : s.placement scene = t.placement scene := by
  funext spawn
  simp only [placement, placing?, vars, pending]

theorem Session.Placed.congr {s t u : Session} {scene : Scene} (placed : s.Placed scene u)
    (vars : s.vars = t.vars) (pending : s.pending = t.pending) : t.Placed scene u := by
  have placing : s.placing? scene = t.placing? scene := by
    rw [placing?, vars, pending, placing?]
  constructor
  · exact placed.opened
  · rw [placed.stance]
    simp only [stance?, Session.placement_congr vars pending]
  · exact placed.dressed
  · rw [placed.pending]
    simp only [unused?, placing, pending]

/-- The player comes to its place, and a request that put it there is used. -/
theorem placed_of_enterPlayer (config : Config) {scene : Scene} {spawn : PlayerSpawn} {s : Session}
    (hasPlayer : scene.player = some spawn) (bare : s.stage = .bare scene) :
    ∃ t, Play.enterPlayer config scene spawn s = .ok () t ∧ s.Placed scene t := by
  unfold Play.enterPlayer
  cases hasMap : scene.map with
  | none =>
    obtain ⟨stance, unused⟩ := s.unplaced (.inr hasMap)
    refine ⟨s, rfl, ?_, ?_, ?_, unused.symm⟩
    · rw [bare]
      rfl
    · rw [stance, bare]
      rfl
    · rw [bare]
      exact fun _ _ _ => nofun
  | some map =>
    obtain ⟨_, started⟩ := startPosition_eq hasPlayer hasMap s
    obtain ⟨_, read⟩ := Play.Reads.intOf spawn.z
      { s with notices := _, pending := s.unused? scene }
    dsimp only
    rw [Play.bind_apply, started]
    dsimp only
    rw [Play.bind_apply, read]
    refine ⟨_, rfl, congrArg Stage.scene bare, ?_, ?_, rfl⟩
    · simp only [Session.stance?, hasPlayer, hasMap]
      rfl
    · intro other same player is
      cases hasPlayer.symm.trans same
      cases is
      rfl

/-- Furnishing a scene moves nobody, and uses no request. -/
theorem Session.Placed.furnish {s t : Session} {scene : Scene} (placed : s.Placed scene t)
    (game : Game) : s.Placed scene (Play.final (Play.furnish game scene t)) := by
  have stands := Tracks.stands (Tracks.furnish (furnishes_standing game t.stage) scene)
  have pending := Tracks.pending_eq (Tracks.furnish (furnishes_minding game t.pending) scene)
  refine ⟨stands.1.trans placed.opened, ?_, ?_, pending.trans placed.pending⟩
  · rw [← placed.stance, Stage.stance?, stands.2, Stage.stance?]
  · rw [stands.2]
    exact placed.dressed

/-- On a bare stage a scene is built with its player in its place. -/
theorem placed_of_build {game : Game} {scene : Scene} {s : Session} (bare : s.stage = .bare scene) :
    s.Placed scene (Play.final (Play.build game scene s)) := by
  obtain ⟨t, shown, vars, stage, pending⟩ : ∃ t, Play.showBackground s = .ok () t ∧
      t.vars = s.vars ∧ t.stage = s.stage ∧ t.pending = s.pending := ⟨_, rfl, rfl, rfl, rfl⟩
  have bare : t.stage = .bare scene := stage.trans bare
  refine Session.Placed.congr ?_ vars pending
  rw [Play.build, Play.bind_apply, shown]
  dsimp only
  cases hasPlayer : scene.player with
  | none =>
    obtain ⟨stance, unused⟩ := t.unplaced (.inl hasPlayer)
    have placed : t.Placed scene t := by
      refine ⟨congrArg Stage.scene bare, ?_, ?_, unused.symm⟩
      · rw [stance, bare]
        rfl
      · rw [bare]
        exact fun _ _ _ => nofun
    exact placed.furnish game
  | some spawn =>
    obtain ⟨u, entered, placed⟩ := placed_of_enterPlayer game.config hasPlayer bare
    dsimp only
    rw [Play.bind_apply, entered]
    exact placed.furnish game

/-- However the entry to a scene ends, the player stands in its place. -/
theorem placed_of_enterScene (game : Game) (name : String) (s : Session) :
    s.Placed (game.graph.scene name) (Play.final (Play.enterScene game name s)) := by
  rw [Play.enterScene, Play.bind_apply, openScene_eq game name s]
  cases game.graph.scene? name with
  | some _ => exact (placed_of_build rfl).congr rfl rfl
  | none => exact (placed_of_build rfl).congr rfl rfl

/-! ### What is remembered -/

/-- Frames keep the same request in mind, for as long as the scene is not left. -/
theorem pending_of_framesUntilRequest (game : Game) (n : Nat) (s : Session) :
    (Play.final (Play.framesUntilRequest game n s)).pending = s.pending :=
  (TracksFrom.holds (TracksFrom.framesUntilRequest (walks_minding game s.pending) n) rfl
    (.inl ⟨trivial, trivial⟩)).1

/-- A scene that is left keeps its request in mind, and one that is not keeps the last. -/
theorem pending_of_playScene (game : Game) (s : Session) :
    match Play.playScene game s with
    | .ok request t => t.pending = some request
    | .error _ t => t.pending = s.pending := by
  have kept := pending_of_framesUntilRequest game Play.patience s
  rw [Play.playScene, Play.bind_apply]
  cases played : Play.framesUntilRequest game Play.patience s with
  | ok request t => rfl
  | error e t =>
    rw [played] at kept
    exact kept

/-- What is kept in mind after a call. -/
theorem Call.pending_iff (game : Game) {call : Call} (single : call ≠ .run) (s : Session)
    (request : SceneRequest) :
    (Play.final (call.perform game s)).pending = some request ↔
      Episode.Ended game ⟨s, call⟩ request ∨
        s.pending = some request ∧ (∀ other, ¬Episode.Ended game ⟨s, call⟩ other) ∧
          ¬Episode.Uses game ⟨s, call⟩ request := by
  have idle (still : ∀ other, ¬Episode.Ended game ⟨s, call⟩ other)
      (other : ∀ name, call ≠ .enter name)
      (kept : (Play.final (call.perform game s)).pending = s.pending) :
      (Play.final (call.perform game s)).pending = some request ↔
        Episode.Ended game ⟨s, call⟩ request ∨
          s.pending = some request ∧ (∀ other, ¬Episode.Ended game ⟨s, call⟩ other) ∧
            ¬Episode.Uses game ⟨s, call⟩ request := by
    have unused : ¬Episode.Uses game ⟨s, call⟩ request := by
      rintro ⟨name, is, -⟩
      exact other name is
    rw [kept]
    simp [still, unused]
  cases call with
  | enter name =>
    have still (other : SceneRequest) : ¬Episode.Ended game ⟨s, .enter name⟩ other := by
      rintro ⟨⟨⟩, -⟩
    have uses : Episode.Uses game ⟨s, .enter name⟩ request ↔
        (game.graph.scene name).Takes request s.vars := by
      constructor
      · rintro ⟨_, is, takes⟩
        cases is
        exact takes
      · exact fun takes => ⟨name, rfl, takes⟩
    have unused := (placed_of_enterScene game name s).pending
    rw [Call.perform, unused, Session.unused?_eq_some_iff, uses]
    simp [still]
  | frame =>
    refine idle (fun _ => by rintro ⟨⟨⟩, -⟩) (by simp) ?_
    exact Tracks.pending_eq (.playFrame (walks_minding game s.pending))
  | list events inFrame =>
    refine idle (fun _ => by rintro ⟨⟨⟩, -⟩) (by simp) ?_
    exact Tracks.pending_eq (.runList events inFrame)
  | scene =>
    have played := pending_of_playScene game s
    have final : Play.final (Call.scene.perform game s) = Play.final (Play.playScene game s) := by
      rw [Call.perform, Play.bind_apply]
      cases Play.playScene game s <;> rfl
    cases ends : Play.playScene game s with
    | ok left t =>
      rw [ends] at played final
      have ended : Episode.Ended game ⟨s, .scene⟩ left := ⟨rfl, t, ends⟩
      rw [final, Play.final_ok, played]
      constructor
      · rintro ⟨⟩
        exact .inl ended
      · rintro (⟨-, u, same⟩ | ⟨-, still, -⟩)
        · cases ends.symm.trans same
          rfl
        · exact absurd ended (still left)
    | error e t =>
      rw [ends] at played final
      have still (other : SceneRequest) : ¬Episode.Ended game ⟨s, .scene⟩ other := by
        rintro ⟨-, u, same⟩
        cases ends.symm.trans same
      exact idle still (by simp) (final ▸ played)
  | run => exact absurd rfl single

/-- **What is kept in mind.** After any calls but whole runs a session keeps the request in mind
that is remembered of them. -/
theorem pending_after_iff {game : Game} {s : Session} (none : s.pending = none) {calls : List Call}
    (single : ∀ call ∈ calls, call ≠ .run) (request : SceneRequest) :
    (s.after game calls).pending = some request ↔
      Remembered game (s.history game calls) request := by
  induction calls using List.reverseRecOn with
  | nil =>
    constructor
    · intro kept
      exact nomatch kept.symm.trans none
    · rintro ⟨earlier, e, later, is, -⟩
      simp [Session.history] at is
  | append_singleton calls call ih =>
    have before := ih fun other mem => single other (List.mem_append_left _ mem)
    have last := single call (List.mem_append_right _ List.mem_cons_self)
    rw [Session.after_append, Session.history_append]
    exact (call.pending_iff game last _ request).trans
      (remembered_concat_iff.trans (or_congr_right (and_congr_left' before.symm))).symm

/-! ### The law of starts -/

/-- The player faces a direction and stands on a tile of a map, if the corner of the tile has 32
bits. -/
structure Stage.Stands (stage : Stage) (map : TileMap) (tile : Tile) (direction : Direction) :
    Prop where
  faces : stage.stance?.map Prod.snd = some direction
  stance (reaches : map.Reaches tile) : stage.stance? = some (map.pixelOf tile, direction)
  /-- On words the corner is the same. -/
  corner (reaches : map.Reaches tile) : map.pixelOfOnWords? tile = some (map.pixelOf tile)
  /-- The tile is the one that the map has where the player stands. -/
  tile (reaches : map.Reaches tile) {player : Player} (is : stage.player = some player) :
    map.tileOf? player.position = some tile

/-- How the player stands after a scene was entered, by what had been asked of the game before. -/
structure Places (game : Game) (history : List Episode) (scene : Scene) (before after : Session) :
    Prop where
  /-- A request that is remembered and that the scene takes places the player. -/
  start {map : TileMap} {request : SceneRequest} (hasMap : scene.map = some map)
    (kept : Remembered game history request) (takes : scene.Takes request before.vars) :
    after.stage.Stands map (request.start.tile before.vars) request.start.direction
  /-- Otherwise the scene does. -/
  own {map : TileMap} {spawn : PlayerSpawn} (hasMap : scene.map = some map)
    (hasPlayer : scene.player = some spawn)
    (others : ∀ request, Remembered game history request → ¬scene.Takes request before.vars) :
    after.stage.Stands map (spawn.tile before.vars) spawn.direction
  absent (lacks : scene.player = none ∨ scene.map = none) : after.stage.player = none

/-- What becomes of the player and of requests when the scene of a name is entered after calls. -/
structure Session.PlacesPlayer (game : Game) (s : Session) (calls : List Call) (name : String) :
    Prop where
  /-- However the entry ends, the player stands where it was placed. -/
  places : Places game (s.history game calls) (game.graph.scene name) (s.after game calls)
    (s.after game (calls ++ [.enter name]))
  /-- Where all that is computed for the player fits, it is brought in on words as on numbers. -/
  fits {map : TileMap} {spawn : PlayerSpawn} (hasMap : (game.graph.scene name).map = some map)
    (hasPlayer : (game.graph.scene name).player = some spawn) (measured : map.Measured)
    (screen : Signed32 game.config.screenWidth ∧ Signed32 game.config.screenHeight)
    (draws : map.Draws spawn.sheet
      (map.pixelOf ((s.after game calls).placement (game.graph.scene name) spawn).1))
    {u : Session} (vars : u.vars = (s.after game calls).vars)
    (kept : u.pending = (s.after game calls).pending) :
    Play.enterPlayerOnWords game.config (game.graph.scene name) spawn u =
      lift (Play.enterPlayer game.config (game.graph.scene name) spawn) u
  /-- One request is remembered at most. -/
  unique {a b : SceneRequest} (keptA : Remembered game (s.history game calls) a)
    (keptB : Remembered game (s.history game calls) b) : a = b
  /-- A request is used once: from then on none is remembered until a scene is left. -/
  once {request : SceneRequest} (kept : Remembered game (s.history game calls) request)
    (takes : (game.graph.scene name).Takes request (s.after game calls).vars) {later : List Call}
    (still : ∀ e ∈ (s.after game (calls ++ [.enter name])).history game later,
      ∀ other, ¬e.Ended game other)
    (other : SceneRequest) :
    ¬Remembered game (s.history game (calls ++ .enter name :: later)) other
  /-- A request that the scene does not take is remembered still. -/
  skipped {request : SceneRequest} (kept : Remembered game (s.history game calls) request)
    (idle : ¬(game.graph.scene name).Takes request (s.after game calls).vars) :
    Remembered game (s.history game (calls ++ [.enter name])) request

section

variable {game : Game} {scene : Scene} {s t : Session} {map : TileMap}

/-- A player that has its stance on a tile stands there, if tiles have a size. -/
theorem Stage.Stands.of_stance {stage : Stage} {tile : Tile} {direction : Direction}
    (sized : 0 < map.grid) (stance : stage.stance? = some (map.pixelOf tile, direction)) :
    stage.Stands map tile direction where
  faces := congrArg (Option.map Prod.snd) stance
  stance _ := stance
  corner reaches := map.pixelOfOnWords?_eq reaches
  tile _ player is := by
    rw [stance?, is] at stance
    simp only [Option.map_some, Option.some.injEq, Prod.mk.injEq] at stance
    rw [stance.1]
    exact TileMap.tileOf?_pixelOf sized tile

theorem Session.stance?_eq {spawn : PlayerSpawn} (hasPlayer : scene.player = some spawn)
    (hasMap : scene.map = some map) :
    s.stance? scene =
      some (map.pixelOf (s.placement scene spawn).1, (s.placement scene spawn).2) := by
  simp only [stance?, hasPlayer, hasMap]

/-- What is kept in mind is what is remembered, so the player stands as the history has it. -/
theorem places_of_stance {history : List Episode}
    (sized : ∀ map, scene.map = some map → 0 < map.grid)
    (kept_iff : ∀ request, s.pending = some request ↔ Remembered game history request)
    (stance : t.stage.stance? = s.stance? scene) : Places game history scene s t where
  start {map request} hasMap kept takes := by
    obtain ⟨spawn, hasPlayer⟩ := Option.isSome_iff_exists.mp takes.1
    have placement := (s.placement_of_takes ((kept_iff request).mpr kept) takes spawn).1
    refine .of_stance (sized map hasMap) (stance.trans ?_)
    rw [Session.stance?_eq hasPlayer hasMap, placement]
  own {map spawn} hasMap hasPlayer others := by
    have others (request : SceneRequest) (kept : s.pending = some request) :=
      others request ((kept_iff request).mp kept)
    have placement := (s.placement_of_others others spawn).1
    refine .of_stance (sized map hasMap) (stance.trans ?_)
    rw [Session.stance?_eq hasPlayer hasMap, placement]
  absent lacks := by
    rw [(s.unplaced lacks).1] at stance
    simpa [Stage.stance?] using stance

end

/-- **A start is used once, in the first scene that takes it.** After any calls but whole runs,
entering a scene of a checked graph places the player where the request of the last scene that was
left says, if the scene takes it and none before has, and otherwise where the scene says; and there
the player stands when the scene has been entered, on each tile whose corner has 32 bits. -/
theorem placesPlayer_of_check {game : Game} {input : InputScript} {budget : Option Nat}
    {stops : Bool} {s : Session} (checked : game.graph.check = .ok ())
    (start : game.session (.fresh input budget stops) = .ok s) {calls : List Call}
    (single : ∀ call ∈ calls, call ≠ .run) (name : String) : s.PlacesPlayer game calls name := by
  have none : s.pending = none := by
    obtain ⟨vars, -, rfl⟩ := Game.session_eq_ok_iff.mp start
    rfl
  have kept_iff (request : SceneRequest) : (s.after game calls).pending = some request ↔
      Remembered game (s.history game calls) request := pending_after_iff none single request
  have entry (other : SceneRequest) :
      ¬Episode.Ended game ⟨s.after game calls, .enter name⟩ other := fun ⟨is, _⟩ => nomatch is
  constructor
  case places =>
    have stance := (placed_of_enterScene game name (s.after game calls)).stance
    rw [Session.after_append]
    exact places_of_stance (fun map has => SceneGraph.grid_pos checked has) kept_iff stance
  case fits =>
    intro map spawn hasMap hasPlayer measured screen draws u vars kept
    have size := (SceneGraph.map_valid checked hasMap).pixel_nonneg
    rw [← Session.placement_congr vars kept] at draws
    exact enterPlayerOnWords_eq hasPlayer hasMap measured size screen draws
  case unique =>
    intro a b keptA keptB
    have same := ((kept_iff a).mpr keptA).symm.trans ((kept_iff b).mpr keptB)
    exact Option.some.inj same
  case once =>
    intro request kept takes later still other keptOther
    rw [Session.after_append] at still
    rw [Session.history_append] at keptOther
    have stillAll : ∀ e ∈ (s.after game calls).history game (.enter name :: later),
        ∀ other, ¬e.Ended game other := by
      intro e mem
      rcases List.mem_cons.mp mem with rfl | mem
      · exact entry
      · exact still e mem
    obtain ⟨keptOther, idle⟩ := (remembered_append_iff stillAll).mp keptOther
    have same := ((kept_iff request).mpr kept).symm.trans ((kept_iff other).mpr keptOther)
    cases same
    exact idle _ List.mem_cons_self ⟨name, rfl, takes⟩
  case skipped =>
    intro request kept idle
    rw [Session.history_append]
    refine remembered_concat_iff.mpr (.inr ⟨kept, entry, ?_⟩)
    rintro ⟨_, is, takes⟩
    cases is
    exact idle takes

/-- The sample, in which the hall leads back to the middle of the yard. -/
def Game.detour : Game :=
  { Game.sample with
    graph :=
      { Game.sample.graph with
        lists := [[], [.goToScene "hall" .unset],
          [.goToScene "yard" ⟨.ofInt 1, .ofInt 0, .left⟩]] } }

/-- After the hall was left the yard takes the start that the hall gave. -/
theorem placesPlayer_of_check_detour :
    ∃ s, Game.detour.session (.fresh .empty (some 9) false) = .ok s ∧
      Remembered Game.detour (s.history Game.detour [.enter "hall", .scene])
        ⟨"yard", ⟨.ofInt 1, .ofInt 0, .left⟩⟩ ∧
      (∀ map ∈ (Game.detour.graph.scene "yard").map, map.Reaches ⟨1, 0⟩) ∧
      s.PlacesPlayer Game.detour [.enter "hall", .scene] "yard" := by
  refine ⟨_, rfl, ?_, by decide, placesPlayer_of_check rfl rfl (by decide) "yard"⟩
  exact (pending_after_iff rfl (by decide) _).mp (by decide +kernel)

end Overworld
