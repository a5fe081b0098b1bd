import Overworld.Proofs.Acts.Control
import Overworld.Proofs.Requests
import Overworld.Proofs.Starts
import Overworld.Proofs.Validity
import Overworld.Proofs.Words

/-!
How the player steps.

Where the way is free a step takes the player across one tile in whole strides, so where strides fit
into tiles it ends on the corner of the next one (`stepped_of_step`); nothing else moves the player
within a scene. Where they do not fit it goes too far, by `Config.overshoot`.

A step is computed with numbers of any size. `Play.stepOnWords` computes it with words of 32 bits,
and counts on the way how far the player has come. Where a player can be drawn on words and its map
has room (`Config.Measures`), it does the same, and the next step can be computed so as well.
-/

namespace Overworld

open Simulation Word

/-! ### Tiles and pixels -/

/-- The point some way off in a direction. -/
def Pixel.along (p : Pixel) (d : Direction) (way : Int) : Pixel :=
  ⟨p.x + d.offset.1 * way, p.y + d.offset.2 * way⟩

theorem Pixel.along_along (p : Pixel) (d : Direction) (a b : Int) :
    (p.along d a).along d b = p.along d (a + b) := by
  simp only [along, Int.mul_add, Int.add_assoc]

theorem Pixel.along_zero (p : Pixel) (d : Direction) : p.along d 0 = p := by
  simp only [along, Int.mul_zero, Int.add_zero]

namespace TileMap

/-- The corner of the next tile is the width of a tile away. -/
theorem pixelOf_step (m : TileMap) (t : Tile) (d : Direction) :
    m.pixelOf (t.step d) = (m.pixelOf t).along d m.grid := by
  simp only [pixelOf, Tile.step, Pixel.along, Int.add_mul]

theorem tileOf?_eq {m : TileMap} (sized : 0 < m.grid) (p : Pixel) :
    m.tileOf? p = some ⟨p.x / m.grid, p.y / m.grid⟩ :=
  if_neg (by omega)

/-- Outside the map everything blocks movement. -/
theorem inside_of_blocked_eq_false {m : TileMap} {t : Tile} (free : m.blocked t = false) :
    0 ≤ t.x ∧ t.x < m.width ∧ 0 ≤ t.y ∧ t.y < m.height := by
  have known : m.index? t ≠ none := by
    intro unknown
    simp [blocked, unknown] at free
  unfold index? at known
  split at known
  · exact absurd rfl known
  · omega

end TileMap

/-- A map whose tiles can be crossed in whole strides. -/
def Config.Fits (config : Config) (map : TileMap) : Prop := 0 < map.grid ∧ config.stride ∣ map.grid

theorem Config.stride_pos (config : Config) : 0 < config.stride := by
  unfold stride
  omega

/-- Where strides fit they lead exactly across the tile. -/
theorem Config.Fits.stride_mul {config : Config} {map : TileMap} (fits : config.Fits map) :
    config.stride * Play.stridesPerTile config map = map.grid := by
  obtain ⟨sized, count, is⟩ := fits
  have pos := config.stride_pos
  have some : 0 < count := by
    rw [is, Int.mul_comm] at sized
    exact Int.pos_of_mul_pos_left sized pos
  obtain ⟨n, stride⟩ := Int.eq_ofNat_of_zero_le (Int.le_of_lt pos)
  obtain ⟨m, rfl⟩ := Int.eq_ofNat_of_zero_le (Int.le_of_lt some)
  have grid : map.grid.toNat = n * m := by
    rw [is, stride, ← Int.natCast_mul, Int.toNat_natCast]
  have strides : Play.stridesPerTile config map = m := by
    have step : n * m + n - 1 = n * m + (n - 1) := by omega
    unfold Play.stridesPerTile
    rw [grid, stride, Int.toNat_natCast, step, Nat.mul_add_div (by omega),
      Nat.div_eq_of_lt (by omega), Nat.add_zero]
  rw [strides, is]

/-! ### How far a step goes -/

/-- How far a step takes the player where the way is free: across the tile, and beyond it where
strides do not fit. -/
def Config.crossing (config : Config) (map : TileMap) : Int :=
  config.stride * Play.stridesPerTile config map

/-- How far a step takes the player beyond the corner of the next tile. -/
def Config.overshoot (config : Config) (map : TileMap) : Int := config.crossing map - map.grid

section

variable {config : Config} {map : TileMap}

theorem Config.crossing_eq (config : Config) (map : TileMap) :
    config.crossing map = map.grid + config.overshoot map := by
  unfold overshoot
  omega

/-- A step covers the tile, and no stride is made after that. -/
theorem Config.overshoot_bounds (config : Config) (sized : 0 < map.grid) :
    0 ≤ config.overshoot map ∧ config.overshoot map < config.stride := by
  have pos := config.stride_pos
  obtain ⟨n, stride⟩ := Int.eq_ofNat_of_zero_le (Int.le_of_lt pos)
  obtain ⟨m, grid⟩ := Int.eq_ofNat_of_zero_le (Int.le_of_lt sized)
  have whole := Nat.div_add_mod (m + n - 1) n
  have rest := Nat.mod_lt (m + n - 1) (show 0 < n by omega)
  have crossing : config.crossing map = ((n * ((m + n - 1) / n) : Nat) : Int) := by
    unfold crossing Play.stridesPerTile
    rw [stride, grid, Int.toNat_natCast, Int.toNat_natCast, Int.natCast_mul]
  unfold overshoot
  rw [crossing, grid, stride]
  omega

/-- The overshoot is what is missing to a tile from whole strides. -/
theorem Config.overshoot_eq (sized : 0 < map.grid) :
    config.overshoot map = -map.grid % config.stride := by
  obtain ⟨least, less⟩ := config.overshoot_bounds sized
  have strides : config.overshoot map =
      -map.grid + config.stride * Play.stridesPerTile config map := by
    unfold overshoot crossing
    omega
  rw [← Int.emod_eq_of_lt least less, strides, Int.add_mul_emod_self_left]

end

/-! ### Strides -/

theorem Stage.position?_eq {stage : Stage} {player : Player} (is : stage.player = some player) :
    stage.position? = some player.position := by
  rw [position?, is]
  rfl

theorem position_of_turn (d : Direction) (s : Session) :
    ((Deed.turn d).apply s).stage.position? = s.stage.position? := by
  simp only [Deed.apply, Session.withPlayer, Stage.position?, Option.map_map]
  rfl

theorem position_of_place {map : TileMap} {start position : Pixel} {s : Session}
    (present : s.stage.position? = some start) :
    ((Deed.place map position).apply s).stage.position? = some position := by
  unfold Stage.position? at present ⊢
  obtain ⟨player, is, -⟩ := Option.map_eq_some_iff.mp present
  simp only [Deed.apply, Session.withPlayer, is]
  rfl

/-- Strides take the player in their direction, each as far as the others. -/
theorem position_of_stride {config : Config} {map : TileMap} {d : Direction} {sprite : SpriteHandle}
    {count : Nat} {position : Pixel} {walk walk' : WalkCycle} {s t : Session}
    (present : s.stage.position? = some position)
    (h : Play.stride config map d sprite count position walk s = .ok walk' t) :
    t.stage.position? = some (position.along d (config.stride * count)) := by
  induction count generalizing position walk s with
  | zero =>
    cases h
    rw [present, Int.natCast_zero, Int.mul_zero, Pixel.along_zero]
  | succ count ih =>
    obtain ⟨_, w, placed, h⟩ := Play.bind_eq_ok_iff.mp h
    obtain ⟨_, x, shown, h⟩ := Play.bind_eq_ok_iff.mp h
    obtain ⟨walk, y, ticked, h⟩ := Play.bind_eq_ok_iff.mp h
    obtain ⟨_, z, played, h⟩ := Play.bind_eq_ok_iff.mp h
    have arrived : z.stage.position? = some (position.along d config.stride) := by
      obtain ⟨-, rfl⟩ := Play.advance_eq_ok_iff.mp played
      rw [placePlayer_eq] at placed
      cases placed
      cases shown
      change y.stage.position? = _
      rw [(after_tick ticked).1]
      exact position_of_place present
    have rest := ih arrived h
    have way : config.stride + config.stride * (count : Int) =
        config.stride * ((count + 1 : Nat) : Int) := by
      rw [Int.natCast_add, Int.mul_add, Int.natCast_one, Int.mul_one, Int.add_comm]
    rw [rest, Pixel.along_along, way]

/-! ### Steps -/

theorem step_of_absent (game : Game) (map : TileMap) (d : Direction) (sprite : SpriteHandle)
    (walk : WalkCycle) {s : Session} (none : s.stage.player = none) :
    Play.step game map d sprite walk s = .ok walk s := by
  rw [Play.step, Play.get_bind_apply, none]
  rfl

theorem stretch_of_step {game : Game} {map : TileMap} {d : Direction} {sprite : SpriteHandle}
    {walk walk' : WalkCycle} {s t : Session} (onMap : s.stage.map = some map)
    (asked : s.stage.request = none) (h : Play.step game map d sprite walk s = .ok walk' t) :
    Stretch s t :=
  TracksFrom.stretch_ok ((walks_within game s).step ..) ⟨onMap, asked⟩ h

/-- A step goes on the spot where the way is not free. -/
theorem step_eq (game : Game) (map : TileMap) (d : Direction) (sprite : SpriteHandle)
    (walk : WalkCycle) {s : Session} {player : Player} {tile : Tile}
    (is : s.stage.player = some player) (on : map.tileOf? player.position = some tile) :
    Play.step game map d sprite walk s =
      if map.blocked (tile.step d) || s.stage.occupied (tile.step d) then
        (do let walk ← Play.tick walk sprite; Play.advance; return walk : Play WalkCycle) s
      else
        (do
          let walk ← Play.stride game.config map d sprite (Play.stridesPerTile game.config map)
            player.position walk
          Play.trigger game map (tile.step d) sprite walk : Play WalkCycle) s := by
  rw [Play.step, Play.get_bind_apply]
  simp only [is, Play.tileOf, on]
  change (if _ then _ else _ : Play WalkCycle) s = _
  split <;> rfl

/-- What a step from a tile came to: the player stayed where it was, since the way was not free, or
it went as far as a step takes it. -/
inductive Advanced (config : Config) (map : TileMap) (tile : Tile) (d : Direction) (s t : Session) :
    Prop
  | stayed (barred : map.blocked (tile.step d) = true ∨ s.stage.occupied (tile.step d) = true)
    (still : t.stage.position? = s.stage.position?)
  | went (clear : map.blocked (tile.step d) = false)
    (vacant : s.stage.occupied (tile.step d) = false)
    (there : t.stage.position? = s.stage.position?.map fun p => p.along d (config.crossing map))

/-- What a step from a tile came to: the player stayed there, since the way was not free, or it
crossed to the next tile. -/
inductive Stepped (map : TileMap) (tile : Tile) (d : Direction) (s t : Session) : Prop
  | stayed (barred : map.blocked (tile.step d) = true ∨ s.stage.occupied (tile.step d) = true)
    (still : t.stage.position? = s.stage.position?)
  | crossed (clear : map.blocked (tile.step d) = false)
    (vacant : s.stage.occupied (tile.step d) = false)
    (there : t.stage.position? = some (map.pixelOf (tile.step d)))

theorem position_of_trigger {game : Game} {map : TileMap} {tile : Tile} {sprite : SpriteHandle}
    {walk walk' : WalkCycle} {s t : Session}
    (h : Play.trigger game map tile sprite walk s = .ok walk' t) :
    t.stage.position? = s.stage.position? := by
  have tracks : (standing game s.stage).Tracks (Play.trigger game map tile sprite walk) _ :=
    .trigger map tile sprite walk
  have stands := tracks.stands
  rw [h] at stands
  exact congrArg (Option.map Player.position) stands.2

/-- Every step that ends leaves the player where it is or takes it as far as steps go. -/
theorem advanced_of_step {game : Game} {map : TileMap} {tile : Tile} {d : Direction}
    {sprite : SpriteHandle} {walk walk' : WalkCycle} {s t : Session} {player : Player}
    (is : s.stage.player = some player) (on : map.tileOf? player.position = some tile)
    (h : Play.step game map d sprite walk s = .ok walk' t) :
    Advanced game.config map tile d s t := by
  rw [step_eq game map d sprite walk is on] at h
  split at h
  · rename_i barred
    refine .stayed (by simpa using barred) ?_
    obtain ⟨walk, u, ticked, h⟩ := Play.bind_eq_ok_iff.mp h
    obtain ⟨_, v, played, h⟩ := Play.bind_eq_ok_iff.mp h
    obtain ⟨-, rfl⟩ := Play.advance_eq_ok_iff.mp played
    cases h
    exact congrArg Stage.position? (after_tick ticked).1
  · rename_i free
    simp only [Bool.or_eq_true, not_or, Bool.not_eq_true] at free
    obtain ⟨walk, u, strode, triggered⟩ := Play.bind_eq_ok_iff.mp h
    refine .went free.1 free.2 ?_
    have standing := Stage.position?_eq is
    rw [position_of_trigger triggered, position_of_stride standing strode, standing]
    rfl

/-- Where strides fit, every step that ends leaves the player on the tile or takes it exactly to the
next one. -/
theorem stepped_of_step {game : Game} {map : TileMap} (fits : game.config.Fits map) {tile : Tile}
    {d : Direction} {sprite : SpriteHandle} {walk walk' : WalkCycle} {s t : Session}
    (on : s.stage.position? = some (map.pixelOf tile))
    (h : Play.step game map d sprite walk s = .ok walk' t) : Stepped map tile d s t := by
  obtain ⟨player, is, position⟩ := Option.map_eq_some_iff.mp on
  have found : map.tileOf? player.position = some tile := by
    rw [position]
    exact TileMap.tileOf?_pixelOf fits.1 tile
  cases advanced_of_step is found h with
  | stayed barred still => exact .stayed barred still
  | went clear vacant there =>
    refine .crossed clear vacant ?_
    rw [there, on, Option.map_some, Config.crossing, fits.stride_mul, TileMap.pixelOf_step]

/-! ### What has to fit for a step -/

/-- A map of which the machine has room for the pixels, and to either side for what a step may go
beyond it, on a screen of 32 bits. -/
structure Config.Room (config : Config) (map : TileMap) : Prop where
  screen : Signed32 config.screenWidth ∧ Signed32 config.screenHeight
  across : map.pixelWidth + 2 * config.overshoot map ≤ 2147483647
  down : map.pixelHeight + 2 * config.overshoot map ≤ 2147483647

instance (config : Config) (map : TileMap) : Decidable (config.Room map) :=
  decidable_of_iff (_ ∧ _ ∧ _)
    ⟨fun ⟨screen, across, down⟩ => ⟨screen, across, down⟩,
      fun room => ⟨room.screen, room.across, room.down⟩⟩

/-- A point on a map, or beyond its edge by no more than a step goes too far. -/
def Config.Near (config : Config) (map : TileMap) (p : Pixel) : Prop :=
  (-config.overshoot map ≤ p.x ∧ p.x < map.pixelWidth + config.overshoot map) ∧
    -config.overshoot map ≤ p.y ∧ p.y < map.pixelHeight + config.overshoot map

/-- A player with this sheet at a corner of a map, for which everything that is computed when it
comes there, and when it steps on, has 32 bits. -/
structure Config.Measures (config : Config) (map : TileMap) (sheet : SpriteSheet) (p : Pixel) :
    Prop where
  room : config.Room map
  narrow : Signed32 sheet.width ∧ Signed32 sheet.height
  draws : map.Draws sheet p
  /-- The tiles to which a step from there may lead. -/
  beside : ∀ d ∈ Direction.all,
    Signed32 ((⟨p.x / map.grid, p.y / map.grid⟩ : Tile).step d).x ∧
      Signed32 ((⟨p.x / map.grid, p.y / map.grid⟩ : Tile).step d).y

instance (config : Config) (map : TileMap) (sheet : SpriteSheet) (p : Pixel) :
    Decidable (config.Measures map sheet p) :=
  decidable_of_iff (_ ∧ _ ∧ _ ∧ _)
    ⟨fun ⟨room, narrow, draws, beside⟩ => ⟨room, narrow, draws, beside⟩,
      fun measures => ⟨measures.room, measures.narrow, measures.draws, measures.beside⟩⟩

section

variable {config : Config} {map : TileMap} {sheet : SpriteSheet} {p q r : Pixel} {d : Direction}

/-- Between two corners at which an entity is drawn it is drawn everywhere. -/
theorem TileMap.Draws.within (first : map.Draws sheet p) (last : map.Draws sheet q)
    (on : p.Within q r) : map.Draws sheet r := by
  obtain ⟨x, y⟩ := on
  exact {
    corner := ⟨first.corner.1.between last.corner.1 x, first.corner.2.between last.corner.2 y⟩
    middle :=
      ⟨first.middle.1.between last.middle.1 (by omega),
        first.middle.2.between last.middle.2 (by omega)⟩
    sprite :=
      ⟨first.sprite.1.between last.sprite.1 (by omega),
        first.sprite.2.between last.sprite.2 (by omega)⟩ }

/-- Part of the way leads between the two ends. -/
theorem Pixel.within_along (p : Pixel) (d : Direction) {part way : Int} (least : 0 ≤ part)
    (most : part ≤ way) : p.Within (p.along d way) (p.along d part) := by
  cases d <;> simp only [Within, along, Direction.offset] <;> omega

theorem Config.Room.measured (room : config.Room map) (valid : map.Valid) : map.Measured := by
  have least := (config.overshoot_bounds valid.grid).1
  have across := room.across
  have down := room.down
  have size := valid.pixel_nonneg
  unfold TileMap.Measured Signed32
  omega

/-- The coordinate of a tile is no larger than that of a pixel on it. -/
theorem ediv_bounds {n g : Int} (pos : 0 < g) :
    (0 ≤ n → 0 ≤ n / g ∧ n / g ≤ n) ∧ (n ≤ 0 → n ≤ n / g ∧ n / g ≤ 0) := by
  constructor
  · intro positive
    exact ⟨Int.ediv_nonneg positive (Int.le_of_lt pos), Int.ediv_le_self _ positive⟩
  · intro negative
    constructor
    · have fewer : n * g ≤ n * 1 := Int.mul_le_mul_of_nonpos_left negative pos
      exact (Int.le_ediv_iff_mul_le pos).mpr (by omega)
    · have := Int.ediv_le_ediv pos negative
      rwa [Int.zero_ediv] at this

/-- Wherever steps lead on a map with room for them, everything that is computed fits. -/
theorem Config.Room.measures (room : config.Room map) (valid : map.Valid)
    (narrow : Signed32 sheet.width ∧ Signed32 sheet.height) (near : config.Near map p) :
    config.Measures map sheet p := by
  obtain ⟨wide, high⟩ := valid.pixel_nonneg
  have axis (n size extent excess : Int) (fits : size + 2 * excess ≤ 2147483647) (wide : 0 ≤ size)
      (least : 0 ≤ excess) (narrow : Signed32 extent) (near : -excess ≤ n ∧ n < size + excess) :
      Signed32 n ∧ Signed32 (n - size.tdiv 2) ∧ Signed32 (n - size.tdiv 2 + extent.tdiv 2) ∧
        Signed32 (n / map.grid + -1) ∧ Signed32 (n / map.grid) ∧ Signed32 (n / map.grid + 1) := by
    have := half_bounds size
    have := half_bounds extent
    have := ediv_bounds (n := n) valid.grid
    unfold Signed32 at *
    omega
  have least := (config.overshoot_bounds valid.grid).1
  have x := axis p.x _ sheet.width _ room.across wide least narrow.1 near.1
  have y := axis p.y _ sheet.height _ room.down high least narrow.2 near.2
  refine ⟨room, narrow, ⟨⟨x.1, y.1⟩, ⟨x.2.1, y.2.1⟩, ⟨x.2.2.1, y.2.2.1⟩⟩, fun d _ => ?_⟩
  cases d <;> simp only [Tile.step, Direction.offset, Int.add_zero] <;> tauto

end

/-! ### Steps on words -/

namespace Play

/-- Move the player. -/
def placeOnWords (map : TileMap) (position : Pixel) : WordPlay Unit := do
  match (← get).stage.player with
  | none => return
  | some player =>
    let place ← compute (worldPositionOnWords? map position player.sheet)
    modify fun s =>
      { s with
        host := s.host.moveSprite player.sprite place
        stage := { s.stage with player := some { player with position := position } } }

/-- Move the player by strides, until it has come as far as a tile is wide. -/
def stridesOnWords (config : Config) (map : TileMap) (d : Direction) (sprite : SpriteHandle)
    (bounds : ScrollBounds) (moved : Int) (position : Pixel) (walk : WalkCycle) :
    WordPlay WalkCycle := do
  if moved < map.grid then
    let position ← compute (point? (position.x + d.offset.1 * config.stride)
      (position.y + d.offset.2 * config.stride))
    placeOnWords map position
    let camera ← compute (bounds.followingOnWords? map position)
    lift (setCamera camera)
    let _ ← compute (signed32? (moved + config.stride))
    let walk ← lift (tick walk sprite)
    lift advance
    stridesOnWords config map d sprite bounds (moved + config.stride) position walk
  else return walk
termination_by (map.grid - moved).toNat
decreasing_by
  have := config.stride_pos
  omega

/-- Walk to the next tile, or on the spot, and trigger the sensor there. -/
def stepOnWords (game : Game) (map : TileMap) (d : Direction) (sprite : SpriteHandle)
    (walk : WalkCycle) : WordPlay WalkCycle := do
  match (← get).stage.player with
  | none => return walk
  | some player =>
    let tile ← lift (tileOf map player.position)
    let goal ← compute (tile.stepOnWords? d)
    if map.blocked goal || (← get).stage.occupied goal then
      lift do
        let walk ← tick walk sprite
        advance
        return walk
    else
      let bounds ← compute (ScrollBounds.ofMapOnWords? map game.config)
      let walk ← stridesOnWords game.config map d sprite bounds 0 player.position walk
      lift (trigger game map goal sprite walk)

end Play

/-- The sheet of the player. -/
def Stage.sheet? (stage : Stage) : Option SpriteSheet := stage.player.map Player.sheet

section

variable {game : Game} {config : Config} {map : TileMap} {sheet : SpriteSheet} {p : Pixel}
  {d : Direction} {sprite : SpriteHandle} {walk : WalkCycle} {s : Session}

theorem sheet_of_place (map : TileMap) (p : Pixel) (s : Session) :
    ((Deed.place map p).apply s).stage.sheet? = s.stage.sheet? := by
  simp only [Deed.apply, Session.withPlayer, Stage.sheet?, Option.map_map]
  rfl

/-- Where it can be drawn the player is moved as on numbers. -/
theorem placeOnWords_eq (draws : map.Draws sheet p) (measured : map.Measured)
    (present : s.stage.sheet? = some sheet) :
    Play.placeOnWords map p s =
      lift (Play.onPlayer fun player host => player.place host map p) s := by
  obtain ⟨player, is, rfl⟩ := Option.map_eq_some_iff.mp present
  have place := draws.worldPositionOnWords?_eq measured
  change (match s.stage.player with | none => _ | some player => _ : WordPlay Unit) s = _
  simp only [is, place, compute_some, pure_bind]
  unfold lift EStateM.adaptExcept Play.onPlayer
  simp only [Play.modify_apply, is]
  rfl

/-- As long as the player can be drawn on its way strides go as on numbers, and there are as many. -/
theorem stridesOnWords_eq (sized : 0 < map.grid) (measured : map.Measured)
    (short : Signed32 (config.crossing map)) {count : Nat} {moved : Int}
    (left : moved + config.stride * count = config.crossing map) (begun : 0 ≤ moved)
    (first : map.Draws sheet p) (last : map.Draws sheet (p.along d (config.stride * count)))
    (present : s.stage.sheet? = some sheet) :
    Play.stridesOnWords config map d sprite (.ofMap map config) moved p walk s =
      lift (Play.stride config map d sprite count p walk) s := by
  have pos := config.stride_pos
  have bounds := config.overshoot_bounds sized
  have crossing := config.crossing_eq map
  induction count generalizing moved p walk s with
  | zero =>
    rw [Int.natCast_zero, Int.mul_zero, Int.add_zero] at left
    rw [Play.stridesOnWords, if_neg (by omega)]
    rfl
  | succ count ih =>
    have way : config.stride * ((count + 1 : Nat) : Int) =
        config.stride + config.stride * (count : Int) := by
      rw [Int.natCast_add, Int.mul_add, Int.natCast_one, Int.mul_one, Int.add_comm]
    have rest : 0 ≤ config.stride * (count : Int) :=
      Int.mul_nonneg (Int.le_of_lt pos) (Int.natCast_nonneg _)
    rw [way] at left last
    have next : map.Draws sheet (p.along d config.stride) :=
      first.within last (p.within_along d (Int.le_of_lt pos) (by omega))
    have counted : Signed32 (moved + config.stride) := by
      unfold Signed32 at *
      omega
    rw [Play.stridesOnWords, if_pos (by omega), Play.stride]
    have moves : point? (p.x + d.offset.1 * config.stride) (p.y + d.offset.2 * config.stride) =
        some (p.along d config.stride) := point?_eq next.corner
    simp only [moves, next.followingOnWords?_eq measured, signed32?_eq counted, compute_some,
      pure_bind]
    refine bind_lift (placeOnWords_eq next measured present) fun _ t placed => ?_
    refine bind_lift rfl fun _ u pointed => bind_lift rfl fun walk v ticked =>
      bind_lift rfl fun _ w played => ?_
    have kept : w.stage.sheet? = some sheet := by
      obtain ⟨-, rfl⟩ := Play.advance_eq_ok_iff.mp played
      rw [placePlayer_eq] at placed
      cases placed
      cases pointed
      change v.stage.sheet? = _
      rw [(after_tick ticked).1]
      exact (sheet_of_place map _ s).trans present
    rw [← Pixel.along_along] at last
    exact ih (by omega) (by omega) next last kept

/-- From wherever a step to a free tile sets out, it goes beyond the map by no more than it goes too
far. -/
theorem Config.near_along (config : Config) (valid : map.Valid)
    (clear : map.blocked ((⟨p.x / map.grid, p.y / map.grid⟩ : Tile).step d) = false) :
    config.Near map (p.along d (config.crossing map)) := by
  obtain ⟨left, right, top, bottom⟩ := TileMap.inside_of_blocked_eq_false clear
  have least := (config.overshoot_bounds valid.grid).1
  have crossing := config.crossing_eq map
  -- A tile that is some tiles before the end of the map ends before it.
  have axis (n tiles offset : Int) (first : 0 ≤ n / map.grid + offset)
      (last : n / map.grid + offset < tiles) :
      0 ≤ n + map.grid * offset ∧ n + map.grid * offset < tiles * map.grid := by
    rw [← Int.add_mul_ediv_left n offset (by have := valid.grid; omega)] at first last
    rw [Int.ediv_lt_iff_lt_mul valid.grid] at last
    exact ⟨(Int.ediv_nonneg_iff_of_pos valid.grid).mp first, last⟩
  have x := axis p.x _ _ left right
  have y := axis p.y _ _ top bottom
  unfold Near TileMap.pixelWidth TileMap.pixelHeight
  cases d <;> simp only [Direction.offset, Pixel.along] at x y ⊢ <;> omega

/-- A map with a free tile is no narrower than a tile, so the way across it fits. -/
theorem Config.Room.crossing (room : config.Room map) (valid : map.Valid) {tile : Tile}
    (clear : map.blocked tile = false) : Signed32 (config.crossing map) := by
  obtain ⟨left, right, -⟩ := TileMap.inside_of_blocked_eq_false clear
  have wide : 1 * map.grid ≤ map.width * map.grid :=
    Int.mul_le_mul_of_nonneg_right (by omega) (Int.le_of_lt valid.grid)
  have least := (config.overshoot_bounds valid.grid).1
  have across := room.across
  have crossing := config.crossing_eq map
  have grid := valid.grid
  unfold TileMap.pixelWidth at across
  unfold Signed32
  omega

/-- Where a step to a free tile leads, the player measures again. -/
theorem Config.Measures.along (measures : config.Measures map sheet p) (valid : map.Valid)
    (clear : map.blocked ((⟨p.x / map.grid, p.y / map.grid⟩ : Tile).step d) = false) :
    config.Measures map sheet (p.along d (config.crossing map)) :=
  measures.room.measures valid measures.narrow (config.near_along valid clear)

/-- Where strides fit it measures on the next tile, if that is free. -/
theorem Config.Measures.step {tile : Tile} (measures : config.Measures map sheet (map.pixelOf tile))
    (valid : map.Valid) (fits : config.Fits map) (clear : map.blocked (tile.step d) = false) :
    config.Measures map sheet (map.pixelOf (tile.step d)) := by
  have size : map.grid ≠ 0 := by have := valid.grid; omega
  have next : config.Measures map sheet ((map.pixelOf tile).along d (config.crossing map)) := by
    refine measures.along valid ?_
    simpa only [TileMap.pixelOf, Int.mul_ediv_cancel _ size] using clear
  rwa [Config.crossing, fits.stride_mul, ← TileMap.pixelOf_step] at next

/-- Where the player measures, a step on words goes as on numbers. -/
theorem stepOnWords_eq (valid : map.Valid)
    (measures : ∀ player, s.stage.player = some player →
      game.config.Measures map player.sheet player.position) :
    Play.stepOnWords game map d sprite walk s = lift (Play.step game map d sprite walk) s := by
  cases is : s.stage.player with
  | none =>
    rw [Play.stepOnWords, Play.get_bind_apply, is,
      lift_congr (y := pure walk) (step_of_absent game map d sprite walk is)]
    rfl
  | some player =>
    have measures := measures player is
    have measured := measures.room.measured valid
    have on := TileMap.tileOf?_eq valid.grid player.position
    have goal := Tile.stepOnWords?_eq (measures.beside d d.mem_all)
    have bounds := ScrollBounds.ofMapOnWords?_eq measured valid.pixel_nonneg measures.room.screen
    have steps := step_eq game map d sprite walk is on
    have clears := measures.along valid (d := d)
    generalize (⟨player.position.x / map.grid, player.position.y / map.grid⟩ : Tile) = tile at *
    rw [Play.stepOnWords, Play.get_bind_apply, is]
    simp only [Play.tileOf, on, goal, bounds, lift_pure, compute_some, pure_bind]
    by_cases barred : (map.blocked (tile.step d) || s.stage.occupied (tile.step d)) = true
    · rw [Play.get_bind_apply, if_pos barred, lift_congr (steps.trans (if_pos barred))]
    · rw [Play.get_bind_apply, if_neg barred, lift_congr (steps.trans (if_neg barred))]
      have clear : map.blocked (tile.step d) = false := by
        simp only [Bool.or_eq_true, not_or, Bool.not_eq_true] at barred
        exact barred.1
      have short := measures.room.crossing valid clear
      refine bind_lift ?_ fun _ _ _ => rfl
      exact stridesOnWords_eq valid.grid measured short (Int.zero_add _) (Int.le_refl 0)
        measures.draws (clears clear).draws (congrArg (Option.map _) is)

theorem Config.Measures.stepOnWords_eq {player : Player} (is : s.stage.player = some player)
    (measures : game.config.Measures map player.sheet player.position) (valid : map.Valid) :
    Play.stepOnWords game map d sprite walk s = lift (Play.step game map d sprite walk) s := by
  refine Overworld.stepOnWords_eq valid fun other same => ?_
  cases is.symm.trans same
  exact measures

end

/-! ### Step after step -/

/-- A session whose player, if there is one, measures on the map. -/
def Session.Measures (config : Config) (s : Session) : Prop :=
  ∀ map player, s.stage.map = some map → s.stage.player = some player →
    config.Measures map player.sheet player.position

section

variable {game : Game} {config : Config} {s t : Session}

theorem Stretch.sheet?_eq (h : Stretch s t) : t.stage.sheet? = s.stage.sheet? :=
  h.player_map_eq _ (fun _ _ _ => rfl) fun _ _ _ _ => rfl

theorem Stage.player_of_sheet? {stage : Stage} {sheet : SpriteSheet} {p : Pixel}
    (sheets : stage.sheet? = some sheet) (on : stage.position? = some p) :
    ∃ player, stage.player = some player ∧ player.sheet = sheet ∧ player.position = p := by
  obtain ⟨player, is, rfl⟩ := Option.map_eq_some_iff.mp sheets
  rw [position?_eq is] at on
  exact ⟨player, is, rfl, Option.some.inj on⟩

/-- Within a scene all of it depends on where the player is. -/
theorem Session.Measures.of_stretch (measures : s.Measures config) (stretch : Stretch s t)
    (still : t.stage.position? = s.stage.position?) : t.Measures config := by
  intro map player onMap is
  obtain ⟨before, was, sheet, position⟩ := Stage.player_of_sheet?
    (stretch.sheet?_eq.symm.trans (congrArg (Option.map _) is))
    (still.symm.trans (Stage.position?_eq is))
  rw [← sheet, ← position]
  exact measures map before (stretch.map_eq.symm.trans onMap) was

/-- From where a step ends the next one can be computed, too. -/
theorem measures_of_step {map : TileMap} {d : Direction} {sprite : SpriteHandle}
    {walk walk' : WalkCycle} (valid : map.Valid) (onMap : s.stage.map = some map)
    (asked : s.stage.request = none) (measures : s.Measures game.config)
    (stepped : Play.step game map d sprite walk s = .ok walk' t) : t.Measures game.config := by
  have stretch := stretch_of_step onMap asked stepped
  cases is : s.stage.player with
  | none =>
    rw [step_of_absent game map d sprite walk is] at stepped
    cases stepped
    exact measures
  | some player =>
    cases advanced_of_step is (TileMap.tileOf?_eq valid.grid _) stepped with
    | stayed _ still => exact measures.of_stretch stretch still
    | went clear _ there =>
      intro map' after onMap' comes
      cases onMap.symm.trans (stretch.map_eq.symm.trans onMap')
      have sheet : after.sheet = player.sheet := by
        have same := stretch.sheet?_eq
        rw [Stage.sheet?, Stage.sheet?, comes, is] at same
        exact Option.some.inj same
      rw [Stage.position?_eq comes, Stage.position?_eq is, Option.map_some] at there
      rw [sheet, Option.some.inj there]
      exact (measures map player onMap is).along valid clear

end

end Overworld
