import Overworld.Proofs.Steps

/-!
Where the player walks.

Where strides fit into tiles a step ends on the corner of the next one (`stepped_of_step`), and
nothing else moves the player within a scene. From its entry on a scene therefore moves the player
at the pace of such steps (`Paces`), each onto a tile that does not block movement.

Where there is room for the player on each map to which it comes (`Episode.HasRoom`), it measures
after every call, so all of this is computed with words as with numbers.
-/

namespace Overworld

open Simulation Word

/-! ### Calls that do not fail -/

section

variable {game : Game} {R : Session → Prop} {ends : Halt → Prop}
  {beat : ∀ s t, Beat s t → R s → R t} {regular : ∀ e, e.Regular → ends e}
  {sound : Lenient ends ∨ ∀ s, R s → s.Sound}

/-- What tracks itself and does not fail keeps the property, which may be lost where it halts. -/
theorem holds_of_cutting {α : Type} {x y : Play α} {s t : Session} {a : α}
    (h : (beside game R ends beat regular sound).cutting.Tracks x y) (hR : R s)
    (is : x s = .ok a t) : R t := by
  have joined := h.joined ⟨rfl, hR⟩
  rw [is] at joined
  generalize y s = r at joined
  cases joined with
  | ok a related => exact related.2

/-- A call that enters no scene and does not fail keeps a property that steps and leaving keep. -/
theorem Call.keeps {call : Call} (stays : call.Stays)
    (walks : (beside game R ends beat regular sound).cutting.Walks)
    (remembers : ∀ r, (beside game R ends beat regular sound).cutting.Does (.remember r))
    {s t : Session} (hR : R s) (is : call.perform game s = .ok () t) : R t := by
  cases call with
  | enter name => exact stays.elim
  | run => exact stays.elim
  | frame => exact holds_of_cutting (.playFrame walks) hR is
  | list events inFrame =>
    have runs : (beside game R ends beat regular sound).cutting.Tracks _ _ := .runList events inFrame
    exact holds_of_cutting runs hR is
  | scene =>
    exact holds_of_cutting ((Tracks.playScene walks remembers).bind fun _ => .pure ()) hR is

end

/-! ### The pace of a scene -/

/-- One change of a session within a scene by which the player stays where it is, or a step by which
it crosses to a tile that is free. -/
inductive Pace (game : Game) : Session → Session → Prop
  | stay {s t : Session} (h : Stay s t) (still : t.stage.position? = s.stage.position?) :
    Pace game s t
  | step {s t : Session} {map : TileMap} {tile : Tile} {d : Direction} {sprite : SpriteHandle}
    {walk walk' : WalkCycle} (onMap : s.stage.map = some map) (asked : s.stage.request = none)
    (on : s.stage.position? = some (map.pixelOf tile))
    (stepped : Play.step game map d sprite walk s = .ok walk' t)
    (clear : map.blocked (tile.step d) = false) (vacant : s.stage.occupied (tile.step d) = false)
    (there : t.stage.position? = some (map.pixelOf (tile.step d))) : Pace game s t

/-- The changes of a session within a scene, of which only steps move the player. -/
abbrev Paces (game : Game) : Session → Session → Prop := Relation.ReflTransGen (Pace game)

/-- A session whose player stands on the corner of a tile of the map, one of some tiles or one that
does not block movement. -/
def Session.Treads (s : Session) (known : Tile → Prop) : Prop :=
  ∀ position, s.stage.position? = some position →
    ∃ map tile, s.stage.map = some map ∧ position = map.pixelOf tile ∧
      (known tile ∨ map.blocked tile = false)

theorem Session.Treads.mono {s : Session} {known known' : Tile → Prop} (h : s.Treads known)
    (imp : ∀ tile, known tile → known' tile) : s.Treads known' := by
  intro position is
  obtain ⟨map, tile, onMap, corner, free⟩ := h position is
  exact ⟨map, tile, onMap, corner, free.imp_left (imp tile)⟩

section

variable {game : Game} {s t : Session}

theorem Pace.map_eq (h : Pace game s t) : t.stage.map = s.stage.map := by
  cases h with
  | stay h still => exact Stretch.map_eq (.single h)
  | step onMap asked _ stepped _ _ _ => exact (stretch_of_step onMap asked stepped).map_eq

theorem Pace.treads (h : Pace game s t) {known : Tile → Prop} (treads : s.Treads known) :
    t.Treads known := by
  intro position is
  rw [h.map_eq]
  cases h with
  | stay h still => exact treads position (still.symm.trans is)
  | step onMap asked on stepped clear vacant there =>
    cases there.symm.trans is
    exact ⟨_, _, onMap, rfl, .inr clear⟩

/-- At this pace the player stays on the tiles. -/
theorem Paces.treads (h : Paces game s t) {known : Tile → Prop} (treads : s.Treads known) :
    t.stage.map = s.stage.map ∧ t.Treads known := by
  induction h with
  | refl => exact ⟨rfl, treads⟩
  | tail _ last ih => exact ⟨last.map_eq.trans ih.1, last.treads ih.2⟩

end

/-- A game beside itself at this pace; where it halts, it may be in the middle of a step. -/
def pacing (game : Game) (start : Session) : Simulation game game.config.maxDepth :=
  (beside game (Paces game start) (fun _ => True)
    (fun _ _ beat paces =>
      paces.tail (.stay beat.stay (congrArg (Option.map Player.position) beat.player_eq)))
    (fun _ _ => trivial) (.inl ⟨trivial, trivial⟩)).cutting

section

variable {game : Game} {start : Session}

/-- A deed that does not move the player is kept. -/
theorem does_pacing {d : Deed} (still : ∀ s, (d.apply s).stage.position? = s.stage.position?) :
    (pacing game start).Does d := by
  rintro _ s ⟨rfl, paces⟩ allowed
  exact ⟨rfl, paces.tail (.stay (.deed d allowed) (still s))⟩

/-- Where strides fit, so is every step that ends. -/
theorem joined_step {map : TileMap} (fits : game.config.Fits map) (d : Direction)
    (sprite : SpriteHandle) (walk : WalkCycle) {s : Session} (paces : Paces game start s)
    (treads : s.Treads fun _ => True) (onMap : s.stage.map = some map)
    (asked : s.stage.request = none) :
    (pacing game start).Joined (Play.step game map d sprite walk s)
      (Play.step game map d sprite walk s) := by
  cases is : s.stage.player with
  | none =>
    rw [step_of_absent game map d sprite walk is]
    exact .ok walk ⟨rfl, paces⟩
  | some player =>
    have standing := Stage.position?_eq is
    obtain ⟨map', tile, onMap', corner, -⟩ := treads player.position standing
    cases onMap.symm.trans onMap'
    have on := standing.trans (congrArg some corner)
    by_cases barred : (map.blocked (tile.step d) || s.stage.occupied (tile.step d)) = true
    · have found : map.tileOf? player.position = some tile := by
        rw [corner]
        exact TileMap.tileOf?_pixelOf fits.1 tile
      have turns : (pacing game start).Tracks
          (do let walk ← Play.tick walk sprite; Play.advance; return walk)
          (do let walk ← Play.tick walk sprite; Play.advance; return walk) :=
        (Tracks.tick walk sprite).bind fun walk => .bind .advance fun _ => .pure walk
      rw [step_eq game map d sprite walk is found, if_pos barred]
      exact turns.joined ⟨rfl, paces⟩
    · cases stepped : Play.step game map d sprite walk s with
      | error e t => exact .cut trivial
      | ok walk' t =>
        refine .ok walk' ⟨rfl, ?_⟩
        cases stepped_of_step fits on stepped with
        | stayed barred' => exact absurd (by simpa using barred') barred
        | crossed clear vacant there =>
          exact paces.tail (.step onMap asked on stepped clear vacant there)

theorem walks_pacing (fits : ∀ map, start.stage.map = some map → game.config.Fits map)
    (treads : start.Treads fun _ => True) : (pacing game start).Walks := by
  constructor
  case turn => exact fun d => does_pacing (position_of_turn d)
  case turnActor => exact fun index d => does_pacing fun s => rfl
  case step =>
    intro map d sprite walk
    refine ⟨?_, ((walks_within game start).step map d sprite walk).grows⟩
    rintro _ s ⟨rfl, paces⟩ ⟨onMap, asked⟩
    obtain ⟨same, treads⟩ := paces.treads treads
    exact joined_step (fits map (same.symm.trans onMap)) d sprite walk paces treads onMap asked

/-- A call that enters no scene and does not fail keeps the pace. -/
theorem Call.paces {call : Call} (stays : call.Stays) {s t : Session}
    (fits : ∀ map, s.stage.map = some map → game.config.Fits map)
    (treads : s.Treads fun _ => True) (is : call.perform game s = .ok () t) : Paces game s t :=
  call.keeps stays (walks_pacing fits treads) (fun _ => does_pacing fun _ => rfl) .refl is

end

/-! ### The tiles that are trodden on -/

/-- The strides of the player fit into the tiles of every map. -/
def Game.StridesFit (game : Game) : Prop :=
  ∀ scene ∈ game.graph.scenes, ∀ map ∈ scene.map, game.config.stride ∣ map.grid

instance (game : Game) : Decidable game.StridesFit :=
  inferInstanceAs (Decidable (∀ scene ∈ game.graph.scenes, ∀ map ∈ scene.map, _))

/-- An action came to its end without a halt. -/
def Play.Done {α : Type} : EStateM.Result Halt Session α → Prop
  | .ok _ _ => True
  | .error _ _ => False

instance {α : Type} : DecidablePred (Play.Done (α := α))
  | .ok _ _ => .isTrue trivial
  | .error _ _ => .isFalse id

/-- Calls none of which halts. -/
def Session.Succeeds (game : Game) (s : Session) (calls : List Call) : Prop :=
  ∀ e ∈ s.history game calls, Play.Done (e.call.perform game e.session)

instance (game : Game) (s : Session) (calls : List Call) : Decidable (s.Succeeds game calls) :=
  inferInstanceAs (Decidable (∀ e ∈ s.history game calls, _))

/-- The tile on which the player came when the last scene was entered. -/
def SpawnedOn (game : Game) (history : List Episode) (tile : Tile) : Prop :=
  ∃ earlier e later name spawn, history = earlier ++ e :: later ∧ e.call = .enter name ∧
    (∀ l ∈ later, l.call.Stays) ∧ (game.graph.scene name).player = some spawn ∧
      tile = (e.session.placement (game.graph.scene name) spawn).1

theorem SpawnedOn.concat {game : Game} {history : List Episode} {tile : Tile}
    (h : SpawnedOn game history tile) {e : Episode} (stays : e.call.Stays) :
    SpawnedOn game (history ++ [e]) tile := by
  obtain ⟨earlier, d, later, name, spawn, rfl, enters, stayed, hasPlayer, is⟩ := h
  refine ⟨earlier, d, later ++ [e], name, spawn, by simp, enters, ?_, hasPlayer, is⟩
  intro l mem
  rcases List.mem_append.mp mem with old | new
  · exact stayed l old
  · rw [List.mem_singleton.mp new]
    exact stays

section

variable {game : Game}

/-- What holds of the maps of all scenes holds of the map on which one plays. -/
theorem map_of_course {P : TileMap → Prop}
    (scenes : ∀ name map, (game.graph.scene name).map = some map → P map) {s t : Session}
    (course : Course game s t) (fits : ∀ map, s.stage.map = some map → P map) :
    ∀ map, t.stage.map = some map → P map := by
  refine course.keeps (P := fun u => ∀ map, u.stage.map = some map → P map) ?_ fits
  intro u v move fits map onMap
  cases move with
  | stay h =>
    rw [Stretch.map_eq (.single h)] at onMap
    exact fits map onMap
  | arrive a allowed => exact fits map (by cases a <;> exact onMap)
  | enter name => exact scenes name map onMap

/-- Strides fit into the tiles of whatever scene is entered. -/
theorem fits_of_course (checked : game.graph.check = .ok ()) (strides : game.StridesFit)
    {s t : Session} (course : Course game s t)
    (fits : ∀ map, s.stage.map = some map → game.config.Fits map) :
    ∀ map, t.stage.map = some map → game.config.Fits map :=
  map_of_course (fun _ map has =>
    ⟨SceneGraph.grid_pos checked has, strides _ (SceneGraph.scene_mem has) map has⟩) course fits

/-- A scene is entered on the tile where the player is placed. -/
theorem spawned_of_enterScene (history : List Episode) (name : String) {s : Session}
    {position : Pixel}
    (is : (Play.final (Play.enterScene game name s)).stage.position? = some position) :
    ∃ map tile, (Play.final (Play.enterScene game name s)).stage.map = some map ∧
      position = map.pixelOf tile ∧ SpawnedOn game (history ++ [⟨s, .enter name⟩]) tile := by
  have placed := placed_of_enterScene game name s
  generalize Play.final (Play.enterScene game name s) = t at placed is
  obtain ⟨player, present, rfl⟩ := Option.map_eq_some_iff.mp is
  have stance := placed.stance
  rw [Stage.stance?, present, Session.stance?] at stance
  split at stance
  · rename_i spawn map hasPlayer hasMap
    simp only [Option.map_some, Option.some.injEq, Prod.mk.injEq] at stance
    refine ⟨map, _, ?_, stance.1, ?_⟩
    · rw [Stage.map, placed.opened, hasMap]
    · exact ⟨history, _, [], name, spawn, rfl, rfl, fun l mem => absurd mem List.not_mem_nil,
        hasPlayer, rfl⟩
  · cases stance

theorem treads_of_enterScene (history : List Episode) (name : String) (s : Session) :
    (Play.final (Play.enterScene game name s)).Treads
      (SpawnedOn game (history ++ [⟨s, .enter name⟩])) := by
  intro position is
  obtain ⟨map, tile, onMap, corner, spawned⟩ := spawned_of_enterScene history name is
  exact ⟨map, tile, onMap, corner, .inl spawned⟩

/-- What holds before the first call, when a scene was entered, and after a call that enters none
and does not fail where it held before, holds after any calls but whole runs of which none failed. -/
theorem after_of_succeeds {P : List Episode → Session → Prop} {s : Session} (start : P [] s)
    {calls : List Call}
    (enter : ∀ history name u, ⟨u, .enter name⟩ ∈ s.history game calls →
      P (history ++ [⟨u, .enter name⟩]) (Play.final (Play.enterScene game name u)))
    (stay : ∀ earlier call t, call.Stays →
      P (s.history game earlier) (s.after game earlier) →
      call.perform game (s.after game earlier) = .ok () t →
      P (s.history game earlier ++ [⟨s.after game earlier, call⟩]) t)
    (single : ∀ call ∈ calls, call ≠ .run) (succeeds : s.Succeeds game calls) :
    P (s.history game calls) (s.after game calls) := by
  induction calls using List.reverseRecOn with
  | nil => exact start
  | append_singleton calls call ih =>
    have history : s.history game (calls ++ [call]) =
        s.history game calls ++ [⟨s.after game calls, call⟩] := s.history_append game calls [call]
    have earlier {e : Episode} (mem : e ∈ s.history game calls) :
        e ∈ s.history game (calls ++ [call]) := history ▸ List.mem_append_left _ mem
    have now : ⟨s.after game calls, call⟩ ∈ s.history game (calls ++ [call]) :=
      history ▸ List.mem_append_right _ List.mem_cons_self
    have before := ih (fun history name u mem => enter history name u (earlier mem))
      (fun other mem => single other (List.mem_append_left _ mem))
      fun e mem => succeeds e (earlier mem)
    have done := succeeds _ now
    have last := single call (List.mem_append_right _ List.mem_cons_self)
    have after : s.after game (calls ++ [call]) =
        Play.final (call.perform game (s.after game calls)) := s.after_append game calls [call]
    have stays (stays : call.Stays) :
        P (s.history game (calls ++ [call])) (s.after game (calls ++ [call])) := by
      rw [after, history]
      cases ok : call.perform game (s.after game calls) with
      | ok _ t => exact stay calls call t stays before ok
      | error e t =>
        rw [ok] at done
        exact done.elim
    cases call with
    | enter name =>
      rw [after, history]
      exact enter _ name _ now
    | run => exact absurd rfl last
    | frame => exact stays trivial
    | scene => exact stays trivial
    | list events inFrame => exact stays trivial

/-- After calls that do not fail the player stands on the tile to which it came, or on one that does
not block movement. -/
theorem treads_after {s : Session} (none : s.stage.player = none) {calls : List Call}
    (single : ∀ call ∈ calls, call ≠ .run) (succeeds : s.Succeeds game calls)
    (fits : ∀ calls map, (s.after game calls).stage.map = some map → game.config.Fits map) :
    (s.after game calls).Treads (SpawnedOn game (s.history game calls)) := by
  refine after_of_succeeds (P := fun history u => u.Treads (SpawnedOn game history)) ?_
    (fun history name u _ => treads_of_enterScene history name u) ?_ single succeeds
  · intro position is
    rw [Stage.position?, none] at is
    cases is
  · intro earlier call t stays treads ok
    have paces := Call.paces stays (fits earlier) (treads.mono fun _ _ => trivial) ok
    exact (paces.treads treads).2.mono fun tile spawned => spawned.concat stays

end

/-! ### Room on the way -/

/-- When a scene is entered its player measures where it is placed. -/
def Episode.HasRoom (game : Game) (e : Episode) : Prop :=
  match e.call with
  | .enter name =>
    ∀ spawn ∈ (game.graph.scene name).player, ∀ map ∈ (game.graph.scene name).map,
      game.config.Measures map spawn.sheet
        (map.pixelOf (e.session.placement (game.graph.scene name) spawn).1)
  | _ => True

instance (game : Game) : DecidablePred (Episode.HasRoom game)
  | ⟨_, .enter name⟩ =>
    inferInstanceAs (Decidable (∀ spawn ∈ (game.graph.scene name).player,
      ∀ map ∈ (game.graph.scene name).map, _))
  | ⟨_, .frame⟩ => .isTrue trivial
  | ⟨_, .scene⟩ => .isTrue trivial
  | ⟨_, .run⟩ => .isTrue trivial
  | ⟨_, .list _ _⟩ => .isTrue trivial

/-- A session on a valid map, if on any, whose player measures. -/
def Session.Fits (config : Config) (s : Session) : Prop :=
  (∀ map, s.stage.map = some map → map.Valid) ∧ s.Measures config

/-- A game beside itself, for as long as the player measures; where it halts, it may be in the
middle of a step. -/
def measuring (game : Game) : Simulation game game.config.maxDepth :=
  (beside game (fun s => s.Fits game.config) (fun _ => True)
    (fun _ _ beat fits =>
      ⟨fun map onMap => fits.1 map ((congrArg Scene.map beat.scene_eq).symm.trans onMap),
        fits.2.of_stretch (.single beat.stay)
          (congrArg (Option.map Player.position) beat.player_eq)⟩)
    (fun _ _ => trivial) (.inl ⟨trivial, trivial⟩)).cutting

section

variable {game : Game}

theorem Session.Fits.of_absent {config : Config} {s : Session} (none : s.stage.map = none) :
    s.Fits config :=
  ⟨fun _ onMap => (nomatch none.symm.trans onMap), fun _ _ onMap => nomatch none.symm.trans onMap⟩

/-- At the pace of steps, too, the player stays where it measures. -/
theorem Paces.fits {s t : Session} (h : Paces game s t) (fits : s.Fits game.config) :
    t.Fits game.config := by
  induction h with
  | refl => exact fits
  | tail _ last ih =>
    have sameMap := last.map_eq
    refine ⟨fun map onMap => ih.1 map (sameMap.symm.trans onMap), ?_⟩
    cases last with
    | stay h still => exact ih.2.of_stretch (.single h) still
    | step onMap asked _ stepped _ _ _ =>
      exact measures_of_step (ih.1 _ onMap) onMap asked ih.2 stepped

/-- A deed that does not move the player is kept. -/
theorem does_measuring {d : Deed} (still : ∀ s, (d.apply s).stage.position? = s.stage.position?) :
    (measuring game).Does d := by
  rintro _ s ⟨rfl, fits⟩ allowed
  have stretch : Stretch s (d.apply s) := .single (.deed d allowed)
  exact ⟨rfl, fun map onMap => fits.1 map (stretch.map_eq.symm.trans onMap),
    fits.2.of_stretch stretch (still s)⟩

theorem walks_measuring : (measuring game).Walks := by
  constructor
  case turn => exact fun d => does_measuring (position_of_turn d)
  case turnActor => exact fun index d => does_measuring fun s => rfl
  case step =>
    intro map d sprite walk
    refine ⟨?_, ((walks_within game default).step map d sprite walk).grows⟩
    rintro _ s ⟨rfl, fits⟩ ⟨onMap, asked⟩
    change (measuring game).Joined _ (Play.step game map d sprite walk s)
    cases stepped : Play.step game map d sprite walk s with
    | error e t => exact .cut trivial
    | ok walk' t =>
      have sameMap := (stretch_of_step onMap asked stepped).map_eq
      refine .ok walk' ⟨rfl, fun map onMap => fits.1 map (sameMap.symm.trans onMap), ?_⟩
      exact measures_of_step (fits.1 map onMap) onMap asked fits.2 stepped

/-- A call that enters no scene and does not fail leaves the player where it measures. -/
theorem Call.fits {call : Call} (stays : call.Stays) {s t : Session} (fits : s.Fits game.config)
    (is : call.perform game s = .ok () t) : t.Fits game.config :=
  call.keeps stays walks_measuring (fun _ => does_measuring fun _ => rfl) fits is

/-- Where a scene is entered that has room for it, the player measures. -/
theorem fits_of_enterScene (checked : game.graph.check = .ok ()) {name : String} {s : Session}
    (room : Episode.HasRoom game ⟨s, .enter name⟩) :
    (Play.final (Play.enterScene game name s)).Fits game.config := by
  have placed := placed_of_enterScene game name s
  generalize Play.final (Play.enterScene game name s) = t at placed
  have has {map : TileMap} (onMap : t.stage.map = some map) :
      (game.graph.scene name).map = some map := by
    rw [← placed.opened]
    exact onMap
  refine ⟨fun map onMap => SceneGraph.map_valid checked (has onMap), fun map player onMap is => ?_⟩
  cases hasPlayer : (game.graph.scene name).player with
  | none =>
    have absent := placed.stance
    rw [(s.unplaced (.inl hasPlayer)).1, Stage.stance?, is] at absent
    cases absent
  | some spawn =>
    have stance := placed.stance
    rw [Session.stance?_eq hasPlayer (has onMap), Stage.stance?, is] at stance
    have position := congrArg Prod.fst (Option.some.inj stance)
    rw [placed.dressed spawn hasPlayer player is, show player.position = _ from position]
    exact room spawn hasPlayer map (has onMap)

/-- Where there is room wherever the player comes, it measures after calls that do not fail. -/
theorem fits_after (checked : game.graph.check = .ok ()) {s : Session}
    (start : s.Fits game.config) {calls : List Call} (single : ∀ call ∈ calls, call ≠ .run)
    (succeeds : s.Succeeds game calls) (room : ∀ e ∈ s.history game calls, e.HasRoom game) :
    (s.after game calls).Fits game.config :=
  after_of_succeeds (P := fun _ u => u.Fits game.config) start
    (fun _ _ _ mem => fits_of_enterScene checked (room _ mem))
    (fun _ _ _ stays fits ok => Call.fits stays fits ok) single succeeds

end

/-! ### The law of walking -/

/-- How the player walks in a session after calls. -/
structure Session.WalksOnTiles (game : Game) (s : Session) (calls : List Call) : Prop where
  /-- The player stands on the corner of the tile on which it came to the scene, or of one on the
  map that does not block movement, and measures there. -/
  corner {player : Player} (is : (s.after game calls).stage.player = some player) :
    ∃ map tile, (s.after game calls).stage.map = some map ∧ player.position = map.pixelOf tile ∧
      game.config.Measures map player.sheet player.position ∧
      map.grid ∣ player.position.x ∧ map.grid ∣ player.position.y ∧
      map.tileOf? player.position = some tile ∧
      (SpawnedOn game (s.history game calls) tile ∨
        map.blocked tile = false ∧ 0 ≤ tile.x ∧ tile.x < map.width ∧ 0 ≤ tile.y ∧
          tile.y < map.height)
  /-- A further call in the scene that does not fail moves the player by steps only, each of which
  crosses to a tile that is free. -/
  paces {call : Call} (stays : call.Stays) {t : Session}
    (ok : call.perform game (s.after game calls) = .ok () t) : Paces game (s.after game calls) t
  /-- Whenever a step is started on the way and ends, the player stands on a tile before it, and
  then stays there, since the way is not free, or crosses exactly to the next one. -/
  steps {u v : Session} (reached : Paces game (s.after game calls) u) {map : TileMap}
    (onMap : u.stage.map = some map) {player : Player} (is : u.stage.player = some player)
    {d : Direction} {sprite : SpriteHandle} {walk walk' : WalkCycle}
    (ends : Play.step game map d sprite walk u = .ok walk' v) :
    ∃ tile, player.position = map.pixelOf tile ∧ Stepped map tile d u v
  /-- Each step that is started on the way, however it ends, goes on words as on numbers. -/
  fits {u : Session} (reached : Paces game (s.after game calls) u) {map : TileMap}
    (onMap : u.stage.map = some map) (d : Direction) (sprite : SpriteHandle) (walk : WalkCycle) :
    Play.stepOnWords game map d sprite walk u = lift (Play.step game map d sprite walk) u

/-- **The player never walks into a wall.** Where strides fit into tiles, and maps have room for the
player, the player of a checked game stands on a tile after any calls but whole runs of which none
failed: on the one on which it came to the scene, or on one that does not block movement; and every
step that ends takes it across exactly one tile, if the way is free when the step begins. -/
theorem walksOnTiles_of_check {game : Game} {input : InputScript} {budget : Option Nat}
    {stops : Bool} {s : Session} (checked : game.graph.check = .ok ())
    (strides : game.StridesFit) (start : game.session (.fresh input budget stops) = .ok s)
    {calls : List Call} (single : ∀ call ∈ calls, call ≠ .run)
    (succeeds : s.Succeeds game calls) (room : ∀ e ∈ s.history game calls, e.HasRoom game) :
    s.WalksOnTiles game calls := by
  obtain ⟨none, noMap⟩ : s.stage.player = none ∧ s.stage.map = none := by
    obtain ⟨vars, -, rfl⟩ := Game.session_eq_ok_iff.mp start
    exact ⟨rfl, rfl⟩
  have fits (calls : List Call) :=
    fits_of_course checked strides (s.course_after game calls) fun map onMap =>
      nomatch noMap.symm.trans onMap
  have treads := treads_after none single succeeds fits
  have measured := fits_after checked (.of_absent noMap) single succeeds room
  constructor
  case corner =>
    intro player is
    have standing := Stage.position?_eq is
    obtain ⟨map, tile, onMap, corner, free⟩ := treads player.position standing
    have sized := (fits calls map onMap).1
    refine ⟨map, tile, onMap, corner, measured.2 map player onMap is, ?_, ?_, ?_,
      free.imp_right fun free => ⟨free, ?_⟩⟩
    · rw [corner]
      exact Int.dvd_mul_left _ _
    · rw [corner]
      exact Int.dvd_mul_left _ _
    · rw [corner]
      exact TileMap.tileOf?_pixelOf sized tile
    · exact TileMap.inside_of_blocked_eq_false free
  case paces =>
    intro call stays t ok
    exact Call.paces stays (fits calls) (treads.mono fun _ _ => trivial) ok
  case steps =>
    intro u v reached map onMap player is d sprite walk walk' ends
    have standing := Stage.position?_eq is
    obtain ⟨same, treads⟩ := reached.treads treads
    obtain ⟨map', tile, onMap', corner, -⟩ := treads player.position standing
    cases onMap.symm.trans onMap'
    have fits := fits calls map (same.symm.trans onMap)
    exact ⟨tile, corner, stepped_of_step fits (standing.trans (congrArg some corner)) ends⟩
  case fits =>
    intro u reached map onMap d sprite walk
    have fits := reached.fits measured
    exact stepOnWords_eq (fits.1 map onMap) fun player is => fits.2 map player onMap is

/-- In the sample the player walks through the gate, and comes back from the hall. -/
theorem walksOnTiles_of_check_sample :
    ∃ s, Game.sample.session (.fresh (InputScript.empty.hold [.right] 9) (some 9) false) = .ok s ∧
      s.Succeeds Game.sample [.enter "yard", .scene, .enter "hall", .scene, .enter "yard"] ∧
      (∀ e ∈ s.history Game.sample [.enter "yard", .scene, .enter "hall", .scene, .enter "yard"],
        e.HasRoom Game.sample) ∧
      s.WalksOnTiles Game.sample [.enter "yard", .scene, .enter "hall", .scene, .enter "yard"] := by
  have succeeds : (Session.sample (InputScript.empty.hold [.right] 9) 9).Succeeds Game.sample
      [.enter "yard", .scene, .enter "hall", .scene, .enter "yard"] := by
    decide +kernel
  have room : ∀ e ∈ (Session.sample (InputScript.empty.hold [.right] 9) 9).history Game.sample
      [.enter "yard", .scene, .enter "hall", .scene, .enter "yard"], e.HasRoom Game.sample := by
    decide +kernel
  exact ⟨_, rfl, succeeds, room,
    walksOnTiles_of_check rfl (by decide) rfl (by decide) succeeds room⟩

end Overworld
