import Overworld.Proofs.Walking

/-!
How the player drifts off the tiles.

A step goes on until a tile is covered, in whole strides. Where they do not fit it goes too far, by
`Config.overshoot`, and no later step takes that back: the player stands a whole number of steps away
from the tile on which it came to the scene, and that is the corner of a tile only where the
overshoots add up to tiles. Where maps have room for the player, and for the overshoot to either
side, it is the same on words.
-/

namespace Overworld

open Simulation Word

/-! ### Corners and strayed points -/

/-- A map on which steps lead from tile to tile: a stride is a part of a tile, or whole tiles. -/
def Config.Matches (config : Config) (map : TileMap) : Prop :=
  config.stride ∣ map.grid ∨ map.grid ∣ config.stride

/-- A point that is the corner of a tile. -/
def TileMap.Aligned (m : TileMap) (p : Pixel) : Prop := m.grid ∣ p.x ∧ m.grid ∣ p.y

/-- The point some steps to the right of the corner of a tile and some below it. -/
def Config.strayed (config : Config) (map : TileMap) (tile : Tile) (right down : Int) : Pixel :=
  ⟨(map.pixelOf tile).x + right * config.crossing map,
    (map.pixelOf tile).y + down * config.crossing map⟩

section

variable {config : Config} {map : TileMap}

/-- Steps lead from tile to tile exactly where the overshoot is made of whole tiles, too. -/
theorem Config.matches_iff (sized : 0 < map.grid) :
    config.Matches map ↔ map.grid ∣ config.overshoot map := by
  obtain ⟨least, less⟩ := config.overshoot_bounds sized
  have goes : config.stride ∣ config.crossing map := Int.dvd_mul_right _ _
  have crossing := config.crossing_eq map
  constructor
  · rintro (part | tiles)
    · have none : config.overshoot map = 0 := by
        rw [overshoot_eq sized]
        exact Int.emod_eq_zero_of_dvd (Int.dvd_neg.mpr part)
      rw [none]
      exact Int.dvd_zero _
    · have across := Int.dvd_trans tiles goes
      rw [crossing] at across
      exact (Int.dvd_iff_dvd_of_dvd_add across).mp (Int.dvd_refl _)
  · intro whole
    by_cases small : config.stride ≤ map.grid
    · have none := Int.eq_zero_of_dvd_of_natAbs_lt_natAbs whole (by omega)
      rw [crossing, none, Int.add_zero] at goes
      exact .inl goes
    · -- One stride covers the tile, so it is the whole step.
      have one : config.crossing map = config.stride := by
        obtain ⟨count, is⟩ := goes
        have upper : config.stride * count < config.stride * 2 := by omega
        have lower : config.stride * 0 < config.stride * count := by omega
        have pos := Int.le_of_lt config.stride_pos
        have count_lt := Int.lt_of_mul_lt_mul_left upper pos
        have count_pos := Int.lt_of_mul_lt_mul_left lower pos
        have count : count = 1 := by omega
        rw [is, count, Int.mul_one]
      right
      rw [← one, crossing]
      exact Int.dvd_add (Int.dvd_refl _) whole

/-- Where a number of steps leads from a tile, there is a tile just where the overshoots add up to
tiles. -/
theorem Config.aligned_strayed_iff {tile : Tile} {right down : Int} :
    map.Aligned (config.strayed map tile right down) ↔
      map.grid ∣ right * config.overshoot map ∧ map.grid ∣ down * config.overshoot map := by
  have axis (corner steps : Int) :
      map.grid ∣ corner * map.grid + steps * config.crossing map ↔
        map.grid ∣ steps * config.overshoot map := by
    rw [config.crossing_eq, Int.mul_add, ← Int.add_assoc, ← Int.add_mul]
    exact Int.dvd_add_right (Int.dvd_mul_left _ _)
  exact and_congr (axis tile.x right) (axis tile.y down)

/-- One more step leads to the next such point. -/
theorem Config.along_strayed (tile : Tile) (right down : Int) (d : Direction) :
    (config.strayed map tile right down).along d (config.crossing map) =
      config.strayed map tile (right + d.offset.1) (down + d.offset.2) := by
  simp only [strayed, Pixel.along, Int.add_mul, Int.add_assoc]

/-- Where steps do not lead from tile to tile, each takes the player off the tiles. -/
theorem Config.not_aligned_along (sized : 0 < map.grid) (off : ¬config.Matches map) {p : Pixel}
    (aligned : map.Aligned p) (d : Direction) :
    ¬map.Aligned (p.along d (config.crossing map)) := by
  intro again
  have rest : ¬map.grid ∣ config.overshoot map := fun whole => off ((matches_iff sized).mpr whole)
  have across : ¬map.grid ∣ config.crossing map := by
    rwa [config.crossing_eq, Int.dvd_add_right (Int.dvd_refl _)]
  have x : map.grid ∣ d.offset.1 * config.crossing map := (Int.dvd_add_right aligned.1).mp again.1
  have y : map.grid ∣ d.offset.2 * config.crossing map := (Int.dvd_add_right aligned.2).mp again.2
  cases d with
  | left => exact across (by simpa [Direction.offset] using x)
  | right => exact across (by simpa [Direction.offset] using x)
  | up => exact across (by simpa [Direction.offset] using y)
  | down => exact across (by simpa [Direction.offset] using y)

end

/-! ### Whole steps from a tile -/

/-- A session whose player stands a whole number of steps away from one of some tiles. -/
def Session.Strays (config : Config) (s : Session) (known : Tile → Prop) : Prop :=
  ∀ position, s.stage.position? = some position →
    ∃ map tile right down, s.stage.map = some map ∧ 0 < map.grid ∧ known tile ∧
      position = config.strayed map tile right down

theorem Session.Strays.mono {config : Config} {s : Session} {known known' : Tile → Prop}
    (h : s.Strays config known) (imp : ∀ tile, known tile → known' tile) :
    s.Strays config known' := by
  intro position is
  obtain ⟨map, tile, right, down, onMap, sized, knows, there⟩ := h position is
  exact ⟨map, tile, right, down, onMap, sized, imp tile knows, there⟩

theorem Session.Strays.of_eq {config : Config} {s t : Session} {known : Tile → Prop}
    (h : s.Strays config known) (position : t.stage.position? = s.stage.position?)
    (map : t.stage.map = s.stage.map) : t.Strays config known := by
  intro there is
  rw [map]
  exact h there (position.symm.trans is)

/-- A game beside itself, for as long as the player is whole steps away from a known tile; where it
halts, it may be in the middle of one. -/
def straying (game : Game) (known : Tile → Prop) : Simulation game game.config.maxDepth :=
  (beside game (fun s => s.Strays game.config known) (fun _ => True)
    (fun _ _ beat strays => strays.of_eq (congrArg (Option.map Player.position) beat.player_eq)
      (congrArg Scene.map beat.scene_eq))
    (fun _ _ => trivial) (.inl ⟨trivial, trivial⟩)).cutting

section

variable {game : Game} {known : Tile → Prop}

/-- Every step that ends keeps the player whole steps away from the tile. -/
theorem strays_of_step {map : TileMap} {d : Direction} {sprite : SpriteHandle}
    {walk walk' : WalkCycle} {s t : Session} (strays : s.Strays game.config known)
    (onMap : s.stage.map = some map) (asked : s.stage.request = none)
    (stepped : Play.step game map d sprite walk s = .ok walk' t) :
    t.Strays game.config known := by
  have sameMap := (stretch_of_step onMap asked stepped).map_eq
  cases is : s.stage.player with
  | none =>
    rw [step_of_absent game map d sprite walk is] at stepped
    cases stepped
    exact strays
  | some player =>
    have standing := Stage.position?_eq is
    obtain ⟨map', tile, right, down, onMap', sized, knows, there⟩ := strays player.position standing
    cases onMap.symm.trans onMap'
    cases advanced_of_step is (TileMap.tileOf?_eq sized _) stepped with
    | stayed _ still => exact strays.of_eq still sameMap
    | went _ _ moved =>
      intro position arrived
      rw [moved, standing, Option.map_some, there, Config.along_strayed] at arrived
      cases arrived
      exact ⟨map, tile, _, _, sameMap.trans onMap, sized, knows, rfl⟩

theorem walks_straying : (straying game known).Walks := by
  constructor
  case turn =>
    rintro d _ s ⟨rfl, strays⟩ -
    exact ⟨rfl, strays.of_eq (position_of_turn d s) rfl⟩
  case turnActor =>
    rintro index d _ s ⟨rfl, strays⟩ -
    exact ⟨rfl, strays.of_eq rfl rfl⟩
  case step =>
    intro map d sprite walk
    refine ⟨?_, ((walks_within game default).step map d sprite walk).grows⟩
    rintro _ s ⟨rfl, strays⟩ ⟨onMap, asked⟩
    change (straying game known).Joined _ (Play.step game map d sprite walk s)
    cases stepped : Play.step game map d sprite walk s with
    | error e t => exact .cut trivial
    | ok walk' t => exact .ok walk' ⟨rfl, strays_of_step strays onMap asked stepped⟩

/-- A call that enters no scene and does not fail keeps the player whole steps away from the tile. -/
theorem Call.strays {call : Call} (stays : call.Stays) {s t : Session}
    (strays : s.Strays game.config known) (is : call.perform game s = .ok () t) :
    t.Strays game.config known := by
  refine call.keeps stays walks_straying ?_ strays is
  rintro request _ s ⟨rfl, strays⟩ -
  exact ⟨rfl, strays.of_eq rfl rfl⟩

end

/-- After calls that do not fail the player is whole steps away from the tile on which it came. -/
theorem strays_after {game : Game} (checked : game.graph.check = .ok ()) {s : Session}
    (none : s.stage.player = none) {calls : List Call} (single : ∀ call ∈ calls, call ≠ .run)
    (succeeds : s.Succeeds game calls) :
    (s.after game calls).Strays game.config (SpawnedOn game (s.history game calls)) := by
  refine after_of_succeeds
    (P := fun history u => u.Strays game.config (SpawnedOn game history)) ?_ ?_ ?_ single succeeds
  · intro position is
    rw [Stage.position?, none] at is
    cases is
  · intro history name u _ position is
    obtain ⟨map, tile, onMap, corner, spawned⟩ := spawned_of_enterScene history name is
    have scene : (Play.final (Play.enterScene game name u)).stage.scene = game.graph.scene name :=
      (placed_of_enterScene game name u).opened
    have has : (game.graph.scene name).map = some map := by
      rw [← scene]
      exact onMap
    refine ⟨map, tile, 0, 0, onMap, SceneGraph.grid_pos checked has, spawned, ?_⟩
    rw [corner, Config.strayed, Int.zero_mul, Int.add_zero, Int.add_zero]
  · intro earlier call t stays strays ok
    exact (Call.strays stays strays ok).mono fun tile spawned => spawned.concat stays

/-! ### The law of drifting -/

/-- How far the player is off the tiles in a session after calls. -/
structure Session.Drifts (game : Game) (s : Session) (calls : List Call) : Prop where
  /-- The player is a whole number of steps away from the tile on which it came to the scene, to the
  right and downward, and so on a tile just where the overshoots add up to tiles; and it measures
  there. -/
  strays {player : Player} (is : (s.after game calls).stage.player = some player) :
    ∃ map tile right down, (s.after game calls).stage.map = some map ∧
      SpawnedOn game (s.history game calls) tile ∧
      player.position = game.config.strayed map tile right down ∧
      game.config.Measures map player.sheet player.position ∧
      (map.Aligned player.position ↔
        map.grid ∣ right * (-map.grid % game.config.stride) ∧
          map.grid ∣ down * (-map.grid % game.config.stride))
  /-- Where a stride is a part of a tile or whole tiles, the player is on a tile. -/
  aligned {player : Player} (is : (s.after game calls).stage.player = some player) {map : TileMap}
    (onMap : (s.after game calls).stage.map = some map) (fits : game.config.Matches map) :
    map.Aligned player.position
  /-- Elsewhere every step from a tile that moves the player at all takes it off the tiles. -/
  leaves {map : TileMap} (onMap : (s.after game calls).stage.map = some map)
    (off : ¬game.config.Matches map) {u v : Session} {player : Player}
    (is : u.stage.player = some player)
    (measures : game.config.Measures map player.sheet player.position) {d : Direction}
    {sprite : SpriteHandle} {walk walk' : WalkCycle}
    (stepped : Play.stepOnWords game map d sprite walk u = .ok walk' v) {q : Pixel}
    (after : v.stage.position? = some q) (moved : q ≠ player.position)
    (aligned : map.Aligned player.position) : ¬map.Aligned q
  /-- Each step from where the player measures goes on words as on numbers. -/
  fits {map : TileMap} (onMap : (s.after game calls).stage.map = some map) {u : Session}
    {player : Player} (is : u.stage.player = some player)
    (measures : game.config.Measures map player.sheet player.position) (d : Direction)
    (sprite : SpriteHandle) (walk : WalkCycle) :
    Play.stepOnWords game map d sprite walk u = lift (Play.step game map d sprite walk) u

/-- **Steps that do not fit take the player off the tiles.** After any calls but whole runs of which
none failed, the player of a checked game whose maps have room for it is a whole number of steps away
from the tile on which it came to the scene. It is on a tile as well where a stride is a part of a
tile or whole tiles; where it is neither, every step from a tile ends beside the tiles. -/
theorem drifts_of_check {game : Game} {input : InputScript} {budget : Option Nat} {stops : Bool}
    {s : Session} (checked : game.graph.check = .ok ())
    (start : game.session (.fresh input budget stops) = .ok s) {calls : List Call}
    (single : ∀ call ∈ calls, call ≠ .run) (succeeds : s.Succeeds game calls)
    (room : ∀ e ∈ s.history game calls, e.HasRoom game) : s.Drifts game calls := by
  obtain ⟨none, noMap⟩ : s.stage.player = none ∧ s.stage.map = none := by
    obtain ⟨vars, -, rfl⟩ := Game.session_eq_ok_iff.mp start
    exact ⟨rfl, rfl⟩
  have strays := strays_after checked none single succeeds
  have measured := fits_after checked (.of_absent noMap) single succeeds room
  constructor
  case strays =>
    intro player is
    obtain ⟨map, tile, right, down, onMap, sized, spawned, there⟩ :=
      strays player.position (Stage.position?_eq is)
    refine ⟨map, tile, right, down, onMap, spawned, there, measured.2 map player onMap is, ?_⟩
    rw [there, ← Config.overshoot_eq sized]
    exact Config.aligned_strayed_iff
  case aligned =>
    intro player is map onMap fits
    obtain ⟨map', tile, right, down, onMap', sized, -, there⟩ :=
      strays player.position (Stage.position?_eq is)
    cases onMap.symm.trans onMap'
    have whole := (Config.matches_iff sized).mp fits
    rw [there]
    exact Config.aligned_strayed_iff.mpr
      ⟨Int.dvd_mul_of_dvd_right whole, Int.dvd_mul_of_dvd_right whole⟩
  case leaves =>
    intro map onMap off u v player is measures d sprite walk walk' stepped q after moved aligned
    have valid := measured.1 map onMap
    rw [measures.stepOnWords_eq is valid] at stepped
    have standing := Stage.position?_eq is
    cases advanced_of_step is (TileMap.tileOf?_eq valid.grid _) (lift_eq_ok_iff.mp stepped) with
    | stayed _ still =>
      rw [still, standing] at after
      exact absurd (Option.some.inj after).symm moved
    | went _ _ there =>
      rw [there, standing, Option.map_some] at after
      rw [← Option.some.inj after]
      exact Config.not_aligned_along valid.grid off aligned d
  case fits =>
    intro map onMap u player is measures d sprite walk
    exact measures.stepOnWords_eq is (measured.1 map onMap)

/-- A yard whose tiles are two pixels wide, and a player that walks three pixels in a frame. -/
def Game.skid : Game where
  graph :=
    { SceneGraph.empty with
      scenes :=
        [{ Scene.called "yard" with
            map := some ⟨3, 1, 2, [0, 0, 0], []⟩
            player := some (.at 0 0) }] }
  config := { Config.standard with playerSpeed := 3 }

/-- In the yard one step takes the player off the tiles. -/
theorem drifts_of_check_skid :
    ∃ s, Game.skid.session (.fresh (InputScript.empty.hold [.right] 1) (some 9) false) = .ok s ∧
      s.Succeeds Game.skid [.enter "yard", .frame] ∧
      (∀ e ∈ s.history Game.skid [.enter "yard", .frame], e.HasRoom Game.skid) ∧
      s.Drifts Game.skid [.enter "yard", .frame] := by
  have succeeds : (Session.sample (InputScript.empty.hold [.right] 1) 9).Succeeds Game.skid
      [.enter "yard", .frame] := by
    decide +kernel
  have room : ∀ e ∈ (Session.sample (InputScript.empty.hold [.right] 1) 9).history Game.skid
      [.enter "yard", .frame], e.HasRoom Game.skid := by
    decide +kernel
  exact ⟨_, rfl, succeeds, room, drifts_of_check rfl rfl (by decide) succeeds room⟩

/-- The player does not stay on the tiles of every map, whatever its speed. -/
theorem not_always_aligned :
    ¬∀ (game : Game) (input : InputScript) (budget : Option Nat) (stops : Bool) (s : Session)
        (calls : List Call) (map : TileMap) (player : Player),
      game.graph.check = .ok () → 0 < game.config.playerSpeed →
      game.session (.fresh input budget stops) = .ok s → (∀ call ∈ calls, call ≠ .run) →
      s.Succeeds game calls → (s.after game calls).stage.map = some map →
      (s.after game calls).stage.player = some player → map.Aligned player.position := by
  intro always
  have succeeds : (Session.sample (InputScript.empty.hold [.right] 1) 9).Succeeds Game.skid
      [.enter "yard", .frame] := by
    decide +kernel
  have aligned := always Game.skid (InputScript.empty.hold [.right] 1) (some 9) false _
    [.enter "yard", .frame] ⟨3, 1, 2, [0, 0, 0], []⟩ ⟨⟨3, 0⟩, .right, .standard, ⟨0⟩⟩ rfl (by decide) rfl
    (by decide) succeeds (by decide +kernel) (by decide +kernel)
  exact absurd aligned.1 (by decide)

end Overworld
