import Mathlib.Algebra.Order.Floor.Div
import Overworld.Proofs.Appearance
import Overworld.Proofs.Awaiting
import Overworld.Proofs.Presses
import Overworld.Proofs.Walking

/-!
How far the player walks.

A walk looks at its button between tiles alone, so a button that is held for some frames takes the
player over every tile that it begins to cross in them, up to the first tile that is not free;
before that one each further frame is spent on the spot. In a scene with nothing in it but the
player nothing else takes time, so this is where a run leaves the player, as long as the budget lets
the last tile be crossed. If the map has room for the player where it comes, it has room for it all
the way.
-/

namespace Overworld

open Simulation Word

/-! ### Tiles ahead -/

/-- The tile some steps away. -/
def Tile.ahead (t : Tile) (d : Direction) (n : Nat) : Tile :=
  ⟨t.x + n * d.offset.1, t.y + n * d.offset.2⟩

@[simp] theorem Tile.ahead_zero (t : Tile) (d : Direction) : t.ahead d 0 = t := by
  simp [ahead]

/-- The steps may be counted from the next tile. -/
theorem Tile.ahead_step (t : Tile) (d : Direction) (n : Nat) :
    (t.step d).ahead d n = t.ahead d (n + 1) := by
  simp only [ahead, step, Tile.mk.injEq]
  constructor <;> push_cast <;> ring

namespace TileMap

/-- In every direction something blocks movement, be it the end of the map. -/
theorem exists_blocked (m : TileMap) (t : Tile) (d : Direction) :
    ∃ n, m.blocked (t.ahead d (n + 1)) = true := by
  refine ⟨t.x.natAbs + t.y.natAbs + m.width.natAbs + m.height.natAbs, ?_⟩
  by_contra free
  obtain ⟨left, right, top, bottom⟩ := inside_of_blocked_eq_false (Bool.eq_false_iff.mpr free)
  cases d <;> simp only [Tile.ahead, Direction.offset] at left right top bottom <;> omega

/-- How many tiles ahead are free, one after the other. -/
def clearance (m : TileMap) (t : Tile) (d : Direction) : Nat := Nat.find (m.exists_blocked t d)

variable {m : TileMap} {t : Tile} {d : Direction}

theorem clearance_eq_zero (barred : m.blocked (t.step d) = true) : m.clearance t d = 0 := by
  refine (Nat.find_eq_zero _).mpr ?_
  rw [← Tile.ahead_step, Tile.ahead_zero]
  exact barred

theorem clearance_eq_succ (free : m.blocked (t.step d) = false) :
    m.clearance t d = m.clearance (t.step d) d + 1 := by
  have none : ¬m.blocked (t.ahead d (0 + 1)) = true := by
    rw [← Tile.ahead_step, Tile.ahead_zero, free]
    exact Bool.false_ne_true
  refine (Nat.find_eq_iff _).mpr ⟨?_, fun n lt => ?_⟩
  · rw [← Tile.ahead_step]
    exact Nat.find_spec (m.exists_blocked (t.step d) d)
  · cases n with
    | zero => exact none
    | succ n =>
      have earlier : n < m.clearance (t.step d) d := Nat.lt_of_succ_lt_succ lt
      rw [← Tile.ahead_step]
      exact Nat.find_min (m.exists_blocked (t.step d) d) earlier

end TileMap

/-! ### The player alone -/

/-- A session on a map with nothing on the stage but the player, who stands at a point and has a
sprite, on a host that listens to a script. -/
structure Session.Strolls (map : TileMap) (h : SpriteHandle) (input : InputScript) (p : Pixel)
    (s : Session) : Prop where
  onMap : s.stage.map = some map
  actors : s.stage.actors = []
  handlers : s.stage.handlers = []
  asked : s.stage.request = none
  player : ∃ player, s.stage.player = some player ∧ player.position = p ∧ player.sprite = h
  shown : h ∈ s.host.handles
  listens : s.Listens input

namespace Session.Strolls

variable {map : TileMap} {h : SpriteHandle} {input : InputScript} {p q : Pixel} {s : Session}

/-- What does not change the stage, the handles and the clock. -/
theorem of_host (strolls : s.Strolls map h input p) {host : Host}
    (handles : host.handles = s.host.handles) (clock : host.clock = s.host.clock) :
    ({ s with host := host } : Session).Strolls map h input p :=
  ⟨strolls.onMap, strolls.actors, strolls.handlers, strolls.asked, strolls.player,
    handles ▸ strolls.shown, strolls.listens.of_clock_eq clock⟩

theorem turned (strolls : s.Strolls map h input p) (d : Direction) :
    ((Deed.turn d).apply s).Strolls map h input p := by
  obtain ⟨player, is, position, sprite⟩ := strolls.player
  have handles : ((Deed.turn d).apply s).host.handles = s.host.handles :=
    congrArg (·.1) (Deed.roster_apply s (.turn d))
  exact ⟨strolls.onMap, strolls.actors, strolls.handlers, strolls.asked,
    ⟨_, congrArg (Option.map _) is, position, sprite⟩, handles ▸ strolls.shown,
    strolls.listens.of_clock_eq rfl⟩

theorem placed (strolls : s.Strolls map h input p) (q : Pixel) :
    ((Deed.place map q).apply s).Strolls map h input q := by
  obtain ⟨player, is, -, sprite⟩ := strolls.player
  have handles : ((Deed.place map q).apply s).host.handles = s.host.handles :=
    congrArg (·.1) (Deed.roster_apply s (.place map q))
  exact ⟨strolls.onMap, strolls.actors, strolls.handlers, strolls.asked,
    ⟨_, congrArg (Option.map _) is, rfl, sprite⟩, handles ▸ strolls.shown,
    strolls.listens.of_clock_eq rfl⟩

theorem pointed (strolls : s.Strolls map h input p) (camera : Pixel) :
    ({ s with
      host := s.host.setCamera camera
      stage := { s.stage with camera := camera } } : Session).Strolls map h input p :=
  ⟨strolls.onMap, strolls.actors, strolls.handlers, strolls.asked, strolls.player, strolls.shown,
    strolls.listens.of_clock_eq rfl⟩

theorem frame (strolls : s.Strolls map h input p) :
    ({ s with host := s.host.afterFrame } : Session).Strolls map h input p :=
  ⟨strolls.onMap, strolls.actors, strolls.handlers, strolls.asked, strolls.player, strolls.shown,
    strolls.listens.frame⟩

theorem later (strolls : s.Strolls map h input p) (n : Nat) :
    (s.later n).Strolls map h input p := by
  induction n generalizing s with
  | zero => exact strolls
  | succ n ih => exact ih strolls.frame

end Session.Strolls

/-! ### Strides and steps -/

namespace Play.Spends

variable {map : TileMap} {h : SpriteHandle} {input : InputScript} {limit : Nat} {p : Pixel}
  {s : Session} (timed : s.Timed input limit)

include timed

/-- A tick of the walk changes nothing but the picture of a sprite. -/
theorem tick (walk : WalkCycle) (k : SpriteHandle) :
    Spends input limit (Play.tick walk k) s 0 fun walk' t =>
      walk' = walk.next ∧ ∃ host : Host, t = { s with host := host } ∧
        host.handles = s.host.handles ∧ host.clock = s.host.clock := by
  rw [tick_eq]
  cases walk.picture? with
  | none => exact pure timed ⟨rfl, s.host, rfl, rfl, rfl⟩
  | some picture =>
    exact andThen timed rfl rfl fun timed =>
      pure timed ⟨rfl, s.host.setFrame k picture, rfl, s.host.handles_updateSprite _ _, rfl⟩

/-- On the spot the player spends a frame. -/
theorem onTheSpot (walk : WalkCycle) (k : SpriteHandle) :
    Spends input limit (do let walk ← Play.tick walk k; Play.advance; return walk) s 1
      fun walk' t => walk' = walk.next ∧ ∃ host : Host, t = { s with host := host.afterFrame } ∧
        host.handles = s.host.handles ∧ host.clock = s.host.clock := by
  refine (tick timed walk k).still_bind fun walk' t timed ticked => ?_
  obtain ⟨rfl, host, rfl, handles, clock⟩ := ticked
  refine (Play.Spends.advance timed).bind_still fun _ t timed is => ?_
  exact pure timed ⟨rfl, host, is, handles, clock⟩

variable (strolls : s.Strolls map h input p)

include strolls

/-- Strides take the player in their direction, a frame each. -/
theorem stride (config : Config) (d : Direction) (k : SpriteHandle) (count : Nat)
    (walk : WalkCycle) :
    Spends input limit (Play.stride config map d k count p walk) s count fun _ t =>
      t.Strolls map h input (p.along d (config.stride * count)) := by
  induction count generalizing p walk s with
  | zero =>
    refine pure timed ?_
    rw [Int.natCast_zero, Int.mul_zero, Pixel.along_zero]
    exact strolls
  | succ count ih =>
    have way : config.stride + config.stride * (count : Int) =
        config.stride * ((count + 1 : Nat) : Int) := by
      push_cast
      ring
    let camera := (ScrollBounds.ofMap map config).following map (p.along d config.stride)
    have there := (strolls.placed (p.along d config.stride)).pointed camera
    have shows (u : Session) : Play.setCamera camera u = .ok ()
        { u with
          host := u.host.setCamera camera
          stage := { u.stage with camera := camera } } := rfl
    refine andThen timed (placePlayer_eq map _ s) rfl fun timed => ?_
    refine andThen timed (shows _) rfl fun timed => ?_
    refine (tick timed walk k).still_bind fun walk t timed ticked => ?_
    obtain ⟨-, host, rfl, handles, clock⟩ := ticked
    refine ((Play.Spends.advance timed).bind fun _ t timed is => ?_).of_eq (Nat.add_comm 1 count)
    subst is
    rw [← way, ← Pixel.along_along]
    exact ih timed (there.of_host handles clock).frame walk

end Play.Spends

/-- Where the next tile blocks movement, a step goes on the spot. -/
theorem step_of_blocked {game : Game} {map : TileMap} (sized : 0 < map.grid) {tile : Tile}
    {d : Direction} {s : Session} {player : Player} (is : s.stage.player = some player)
    (on : player.position = map.pixelOf tile) (barred : map.blocked (tile.step d) = true)
    (k : SpriteHandle) (walk : WalkCycle) :
    Play.step game map d k walk s =
      (do let walk ← Play.tick walk k; Play.advance; return walk : Play WalkCycle) s := by
  have found : map.tileOf? player.position = some tile := by
    rw [on]
    exact TileMap.tileOf?_pixelOf sized tile
  rw [step_eq game map d k walk is found, barred, Bool.true_or, if_pos rfl]

/-- Where nobody is in the way and there are no sensors, a step to a free tile is nothing but
strides. -/
theorem step_of_free {game : Game} {map : TileMap} (sized : 0 < map.grid) (bare : map.sensors = [])
    {tile : Tile} {d : Direction} {s : Session} {player : Player}
    (is : s.stage.player = some player) (on : player.position = map.pixelOf tile)
    (free : map.blocked (tile.step d) = false) (alone : s.stage.actors = []) (k : SpriteHandle)
    (walk : WalkCycle) :
    Play.step game map d k walk s =
      Play.stride game.config map d k (Play.stridesPerTile game.config map) (map.pixelOf tile) walk
        s := by
  have found : map.tileOf? player.position = some tile := by
    rw [on]
    exact TileMap.tileOf?_pixelOf sized tile
  have vacant : s.stage.occupied (tile.step d) = false := by simp [Stage.occupied, alone]
  have quiet (walk : WalkCycle) : Play.trigger game map (tile.step d) k walk = Pure.pure walk := by
    simp [Play.trigger, TileMap.sensorAt?, bare]
  rw [step_eq game map d k walk is found, free, vacant, Bool.or_false, if_neg Bool.false_ne_true,
    on]
  simp only [quiet, bind_pure]

theorem Config.Fits.stridesPerTile_pos {config : Config} {map : TileMap} (fits : config.Fits map) :
    0 < Play.stridesPerTile config map := by
  have sized := fits.1
  rw [← fits.stride_mul] at sized
  exact_mod_cast Int.pos_of_mul_pos_right sized config.stride_pos

/-! ### Walks -/

/-- A script that holds one button in its first frames, and no other and none later. -/
def InputScript.HoldsOnly (script : InputScript) (button : Button) (count : Nat) : Prop :=
  ∀ frame b, b ∈ script.heldAt frame ↔ frame < count ∧ b = button

/-- Nothing else is held in a script that only holds a button. -/
theorem InputScript.HoldsOnly.hold (button : Button) (count : Nat) :
    (InputScript.empty.hold [button] count).HoldsOnly button count := by
  intro frame b
  by_cases early : frame < count
  · simp [InputScript.hold, empty, heldAt, early]
  · simp [InputScript.hold, empty, heldAt, early]

theorem InputScript.HoldsOnly.quiet {input : InputScript} {button : Button} {count frame : Nat}
    (holds : input.HoldsOnly button count) (late : count ≤ frame) (b : Button) :
    b ∉ input.heldAt frame := by
  rw [holds]
  rintro ⟨early, -⟩
  omega

/-- How many frames a walk takes over tiles that take some each, when its button is held for a
number of frames and some tiles are free: tiles are crossed whole, but before one that is not free
the walk ends with the button. -/
def walkFrames (tile free held : Nat) : Nat :=
  if held ≤ tile * free then tile * (held ⌈/⌉ tile) else held

section

variable {tile : Nat} (pos : 0 < tile) {held : Nat} (free : Nat)

include pos

/-- A tile that is begun counts. -/
theorem ceilDiv_eq_succ (more : 0 < held) : held ⌈/⌉ tile = (held - tile) ⌈/⌉ tile + 1 := by
  rw [Nat.ceilDiv_eq_add_pred_div, Nat.ceilDiv_eq_add_pred_div]
  by_cases whole : tile ≤ held
  · have shift : held + tile - 1 = held - tile + tile - 1 + tile := by omega
    rw [shift, Nat.add_div_right _ pos]
  · have first : (held + tile - 1) / tile = 1 := Nat.div_eq_of_lt_le (by omega) (by omega)
    have none : (held - tile + tile - 1) / tile = 0 := Nat.div_eq_of_lt (by omega)
    rw [first, none]

/-- The next tile is crossed if it is free. -/
theorem walkFrames_succ (more : 0 < held) :
    walkFrames tile (free + 1) held = tile + walkFrames tile free (held - tile) := by
  unfold walkFrames
  rw [ceilDiv_eq_succ pos more, Nat.mul_succ, Nat.mul_succ]
  by_cases clear : held - tile ≤ tile * free
  · rw [if_pos clear, if_pos (by omega), Nat.add_comm]
  · rw [if_neg clear, if_neg (by omega)]
    omega

variable (held) in
/-- A walk lasts as long as its button is held, and not longer than it takes to cross the last
tile. -/
theorem walkFrames_bounds :
    held ≤ walkFrames tile free held ∧ walkFrames tile free held ≤ held + (tile - 1) := by
  unfold walkFrames
  split
  · have least : held ≤ tile * (held ⌈/⌉ tile) := le_smul_ceilDiv pos
    have under : tile * (held ⌈/⌉ tile) ≤ held + tile - 1 := Nat.mul_div_le _ _
    omega
  · omega

end

theorem walkFrames_zero (tile free : Nat) : walkFrames tile free 0 = 0 := by
  simp [walkFrames]

/-- Before a tile that is not free each frame is spent on the spot. -/
theorem walkFrames_blocked (tile held : Nat) : walkFrames tile 0 held = held := by
  unfold walkFrames
  split
  · have none : held = 0 := by omega
    rw [none, zero_ceilDiv, Nat.mul_zero]
  · rfl

theorem InputScript.HoldsOnly.held_iff {input : InputScript} {button : Button} {count : Nat}
    (holds : input.HoldsOnly button count) {s : Session} (listens : s.Listens input) (b : Button) :
    s.host.states.held.has b = true ↔ s.host.frame < count ∧ b = button :=
  (listens.held b).trans (holds _ b)

namespace Play.Spends

variable {game : Game} {map : TileMap} {h : SpriteHandle} {input : InputScript} {limit : Nat}
  {s : Session} {d : Direction} (fits : game.config.Fits map) (bare : map.sensors = [])

include fits bare

/-- A step to a free tile crosses it. -/
theorem crossing {tile : Tile} (timed : s.Timed input limit)
    (strolls : s.Strolls map h input (map.pixelOf tile)) (free : map.blocked (tile.step d) = false)
    (walk : WalkCycle) :
    Spends input limit (Play.step game map d h walk) s (Play.stridesPerTile game.config map)
      fun _ t => t.Strolls map h input (map.pixelOf (tile.step d)) := by
  obtain ⟨player, is, on, -⟩ := strolls.player
  rw [TileMap.pixelOf_step, ← fits.stride_mul]
  exact (stride timed strolls game.config d h _ walk).congr
    (step_of_free fits.1 bare is on free strolls.actors h walk)

omit bare in
/-- A step towards a tile that is not free takes a frame and leads nowhere. -/
theorem pausing {tile : Tile} (timed : s.Timed input limit)
    (strolls : s.Strolls map h input (map.pixelOf tile)) (barred : map.blocked (tile.step d) = true)
    (walk : WalkCycle) :
    Spends input limit (Play.step game map d h walk) s 1
      fun _ t => t.Strolls map h input (map.pixelOf tile) := by
  obtain ⟨player, is, on, -⟩ := strolls.player
  refine ((onTheSpot timed walk h).mono ?_).congr (step_of_blocked fits.1 is on barred h walk)
  rintro walk' t ⟨-, host, rfl, handles, clock⟩
  exact (strolls.of_host handles clock).frame

/-- A walk takes the player over the tiles that are free, each of which is begun while the button is
held. -/
theorem steps {k held rounds : Nat} {tile : Tile} (holds : input.HoldsOnly d.button k)
    (timed : s.Timed input limit) (strolls : s.Strolls map h input (map.pixelOf tile))
    (left : k - s.host.frame = held) (enough : held < rounds) (walk : WalkCycle) :
    let strides := Play.stridesPerTile game.config map
    Spends input limit (Play.steps game map d h rounds walk) s
      (walkFrames strides (map.clearance tile d) held) fun _ t =>
        t.Strolls map h input
          (map.pixelOf (tile.ahead d (min (held ⌈/⌉ strides) (map.clearance tile d)))) := by
  intro strides
  have pos : 0 < strides := fits.stridesPerTile_pos
  -- A round is one step, after which as many frames fewer are left to hold the button.
  induction rounds generalizing s tile held walk with
  | zero => omega
  | succ rounds ih =>
    have holding := holds.held_iff strolls.listens d.button
    have stays : s.stage.changing = false := by rw [Stage.changing, strolls.asked]; rfl
    have round := steps_succ game map d h rounds walk s
    by_cases more : s.host.frame < k
    · rw [holding.mpr ⟨more, rfl⟩, stays, Bool.not_false, Bool.and_true, if_pos rfl] at round
      refine Spends.congr ?_ round
      cases barred : map.blocked (tile.step d) with
      | true =>
        have none := TileMap.clearance_eq_zero barred
        have count : 1 + walkFrames strides (map.clearance tile d) (held - 1) =
            walkFrames strides (map.clearance tile d) held := by
          rw [none, walkFrames_blocked, walkFrames_blocked]
          omega
        refine ((pausing fits timed strolls barred walk).counted.bind ?_).of_eq count
        rintro walk t timed ⟨frame, strolls⟩
        have fewer : k - t.host.frame = held - 1 := by omega
        have rest := ih timed strolls fewer (by omega) walk
        rw [none, Nat.min_zero] at rest ⊢
        exact rest
      | false =>
        have more' : 0 < held := by omega
        have succ := TileMap.clearance_eq_succ barred
        have count := walkFrames_succ pos (map.clearance (tile.step d) d) more'
        rw [succ, ceilDiv_eq_succ pos more', Nat.succ_min_succ, ← Tile.ahead_step]
        refine ((crossing fits bare timed strolls barred walk).counted.bind ?_).of_eq count.symm
        rintro walk t timed ⟨frame, strolls⟩
        exact ih timed strolls (by omega) (by omega) walk
    · have released : s.host.states.held.has d.button = false := by
        rw [Bool.eq_false_iff, Ne, holding]
        rintro ⟨before, -⟩
        exact more before
      have none : held = 0 := by omega
      rw [released, Bool.false_and, if_neg Bool.false_ne_true] at round
      rw [none, walkFrames_zero, zero_ceilDiv, Nat.zero_min, Tile.ahead_zero]
      exact still timed round rfl strolls

end Play.Spends

/-! ### The whole frame -/

/-- The player faces a direction, and its sprite shows it standing so. -/
def Session.Faces (h : SpriteHandle) (d : Direction) (s : Session) : Prop :=
  (∃ player, s.stage.player = some player ∧ player.direction = d) ∧
    ∃ sprite, s.host.sprite? h = some sprite ∧ (sprite.frame, sprite.flip) = d.idlePicture

/-- The player of a session has walked from a tile while its button was held for some frames, and
faces where it went. -/
structure Session.Walked (map : TileMap) (h : SpriteHandle) (input : InputScript) (d : Direction)
    (tile : Tile) (strides held : Nat) (s : Session) : Prop where
  strolls : s.Strolls map h input
    (map.pixelOf (tile.ahead d (min (held ⌈/⌉ strides) (map.clearance tile d))))
  faces : s.Faces h d

theorem Host.exists_sprite?_of_mem {host : Host} {h : SpriteHandle} (mem : h ∈ host.handles) :
    ∃ sprite, host.sprite? h = some sprite := by
  cases found : host.sprite? h with
  | some sprite => exact ⟨sprite, rfl⟩
  | none =>
    obtain ⟨entry, inside, rfl⟩ := List.mem_map.mp mem
    simpa using List.lookup_eq_none_iff.mp found entry inside

/-- A sprite that is there shows the picture of the direction in which it is turned. -/
theorem Host.picture_faceSprite {host : Host} {h : SpriteHandle} (mem : h ∈ host.handles)
    (d : Direction) : ∃ sprite, (host.faceSprite h d).sprite? h = some sprite ∧
      (sprite.frame, sprite.flip) = d.idlePicture := by
  obtain ⟨sprite, found⟩ := exists_sprite?_of_mem mem
  refine ⟨{ sprite with frame := d.idlePicture.1, flip := d.idlePicture.2 }, ?_, rfl⟩
  rw [faceSprite, setFlip, sprite?_updateSprite, if_pos rfl, setFrame, sprite?_updateSprite,
    if_pos rfl, found]
  rfl

theorem Session.Strolls.faces_turned {map : TileMap} {h : SpriteHandle} {input : InputScript}
    {p : Pixel} {s : Session} (strolls : s.Strolls map h input p) (d : Direction) :
    ((Deed.turn d).apply s).Faces h d := by
  obtain ⟨player, is, -, sprite⟩ := strolls.player
  have shows : ((Deed.turn d).apply s).host.sprite? h = (s.host.faceSprite h d).sprite? h := by
    simp [Deed.apply, Session.withPlayer, is, Player.face, sprite, Host.sprite?]
  refine ⟨⟨_, congrArg (Option.map _) is, rfl⟩, ?_⟩
  rw [shows]
  exact Host.picture_faceSprite strolls.shown d

/-- In a frame in which no button is held none is pressed. -/
theorem Session.Listens.idle {input : InputScript} {s : Session} (listens : s.Listens input)
    (quiet : ∀ b, b ∉ input.heldAt s.host.frame) (b : Button) :
    s.host.states.held.has b = false ∧ s.host.states.pressed.has b = false := by
  constructor
  · rw [Bool.eq_false_iff, Ne, listens.held]
    exact quiet b
  · rw [Bool.eq_false_iff, Ne, listens.pressed]
    exact fun pressed => quiet b pressed.1

namespace Play

variable {game : Game} {map : TileMap} {h : SpriteHandle} {input : InputScript} {p : Pixel}
  {s : Session}

/-- Where no button is held the player does nothing. -/
theorem walkEither_of_quiet (listens : s.Listens input) (quiet : ∀ b, b ∉ input.heldAt s.host.frame)
    (first second : Direction) : walkEither game map first second s = .ok () s := by
  have idle := listens.idle quiet
  simp [walkEither_eq, ButtonStates.chosen?, ButtonStates.wants, idle]

/-- Without handlers a frame of a player alone is its walks, and what the actors then do, unless the
button for an interaction is pressed. -/
theorem enactFrame_of_strolls (strolls : s.Strolls map h input p)
    (calm : s.host.states.pressed.has .activate = false) :
    enactFrame game s = (walkAbout game map >>= fun _ => get >>= fun t =>
      t.stage.actors.forM fun actor => runList game actor.definition.update true) s := by
  obtain ⟨player, is, -⟩ := strolls.player
  have addressed : addressed game map player s = .ok none s := by
    change (if s.host.states.pressed.has .activate then actorInFront game map player
      else Pure.pure none : Play (Option (Nat × Actor))) s = _
    rw [calm]
    rfl
  have walks : control game s = walkAbout game map s := by
    rw [control_of_present strolls.onMap is, addressed]
  rw [enactFrame, get_bind_apply, strolls.handlers, List.forM_eq_forM, List.forM_nil, pure_bind,
    get_bind_apply, is]
  simp only [Option.isSome_some, if_true]
  rw [bind_apply, walks, bind_apply]

/-- A frame in which no button is held passes without anything being done. -/
theorem playFrame_of_quiet (strolls : s.Strolls map h input p)
    (quiet : ∀ b, b ∉ input.heldAt s.host.frame) : playFrame game s = advance s := by
  have still (first second : Direction) : walkEither game map first second s = .ok () s :=
    walkEither_of_quiet strolls.listens quiet first second
  have calm := (strolls.listens.idle quiet .activate).2
  have enacted : enactFrame game s = .ok () s := by
    rw [enactFrame_of_strolls strolls calm, bind_apply, walkAbout, bind_apply, still .left .right]
    simp only [still .up .down]
    rw [get_bind_apply, strolls.actors]
    rfl
  rw [playFrame, bind_apply, enacted]

/-- Where no button is held any more, nothing is done until the budget is used up. -/
theorem framesUntilRequest_of_quiet {limit n rounds : Nat} (timed : s.Timed input limit)
    (strolls : s.Strolls map h input p)
    (quiet : ∀ f, s.host.frame ≤ f → ∀ b, b ∉ input.heldAt f) (patient : n < rounds)
    (last : s.host.frame + n = limit) :
    framesUntilRequest game rounds s = .error (.host (.budgetExhausted limit)) (s.later n) := by
  obtain ⟨rounds, rfl⟩ : ∃ k, rounds = k + 1 := ⟨rounds - 1, by omega⟩
  induction n generalizing s rounds with
  | zero =>
    have stops : s.host.stop? = some (.budgetExhausted limit) := by
      rw [timed.stop?_eq, if_pos (by omega)]
    rw [framesUntilRequest_succ, strolls.asked]
    simp only [bind_apply, playFrame_of_quiet strolls (quiet _ (Nat.le_refl _)), advance_eq, stops]
    rfl
  | succ n ih =>
    obtain ⟨rounds, rfl⟩ : ∃ k, rounds = k + 1 := ⟨rounds - 1, by omega⟩
    have left : s.host.stop? = none := by rw [timed.stop?_eq, if_neg (by omega)]
    have next : s.host.afterFrame.frame = s.host.frame + 1 := rfl
    rw [framesUntilRequest_succ, strolls.asked]
    simp only [bind_apply, playFrame_of_quiet strolls (quiet _ (Nat.le_refl _)), advance_eq, left]
    refine ih (timed.frame left) strolls.frame (fun f after => quiet f ?_) (by rw [next]; omega)
      rounds (by omega)
    exact Nat.le_of_succ_le after

end Play

/-- Directions have buttons of their own. -/
theorem Direction.button_injective : Function.Injective Direction.button := by
  intro d e
  cases d <;> cases e <;> decide

namespace Play.Spends

variable {game : Game} {map : TileMap} {h : SpriteHandle} {input : InputScript} {limit k : Nat}
  {s : Session} {d : Direction} {tile : Tile} (fits : game.config.Fits map)
  (bare : map.sensors = []) (holds : input.HoldsOnly d.button k) (short : k ≤ Host.frameCeiling)
  (timed : s.Timed input limit) (strolls : s.Strolls map h input (map.pixelOf tile))
  (early : s.host.frame < k)

include fits bare holds short timed strolls early

/-- A walk ends with the player facing where it went. -/
theorem walk :
    let strides := Play.stridesPerTile game.config map
    let held := k - s.host.frame
    Spends input limit (Play.walk game map d) s
      (walkFrames strides (map.clearance tile d) held)
      fun _ t => t.Walked map h input d tile strides held := by
  intro strides held
  obtain ⟨player, is, -, sprite⟩ := strolls.player
  have goes : Play.walk game map d s = (Play.facePlayer d >>= fun _ => Play.held d.button >>=
      fun holding => if holding then
        Play.steps game map d h Play.patience (.start d game.config.walkWait) >>= fun _ =>
          Play.facePlayer d
      else Pure.pure ()) s := by
    rw [Play.walk, get_bind_apply, is, ← sprite]
  have holding : s.host.states.held.has d.button = true :=
    (holds.held_iff strolls.listens _).mpr ⟨early, rfl⟩
  have patient : held < Play.patience := by unfold Play.patience; omega
  refine Spends.congr ?_ goes
  refine andThen timed (facePlayer_eq d s) rfl fun timed => ?_
  refine andThen (x := Play.held d.button) timed rfl rfl fun timed => ?_
  rw [if_pos (show ((Deed.turn d).apply s).host.states.held.has d.button = true from holding)]
  refine (steps fits bare holds timed (strolls.turned d) rfl patient _).bind_still
    fun _ t timed strolls => ?_
  exact still timed (facePlayer_eq d t) rfl ⟨strolls.turned d, strolls.faces_turned d⟩

/-- The player walks in the direction of the button that is held, and in no other. -/
theorem walkAbout :
    let strides := Play.stridesPerTile game.config map
    let held := k - s.host.frame
    Spends input limit (Play.walkAbout game map) s
      (walkFrames strides (map.clearance tile d) held)
      fun _ t => t.Walked map h input d tile strides held := by
  intro strides held
  have wanted (e : Direction) : s.host.states.wants e = true ↔ e = d := by
    rw [ButtonStates.wants, Bool.or_eq_true, strolls.listens.pressed, strolls.listens.held]
    constructor
    · rintro (pressed | holding)
      · exact Direction.button_injective ((holds _ _).mp pressed.1).2
      · exact Direction.button_injective ((holds _ _).mp holding).2
    · rintro rfl
      exact .inr ((holds _ _).mpr ⟨early, rfl⟩)
  have walks := (walk fits bare holds short timed strolls early).counted
  by_cases first : d = .left ∨ d = .right
  · -- Across: when the walk is over the button is held no more, so no other walk follows.
    have chosen : s.host.states.chosen? .left .right = some d := by
      rcases first with rfl | rfl <;> simp [ButtonStates.chosen?, wanted]
    have across := walkEither_eq game map .left .right s
    rw [chosen] at across
    refine (walks.congr across).bind_still ?_
    rintro _ t timed ⟨frame, walked⟩
    have least := (walkFrames_bounds fits.stridesPerTile_pos (k - s.host.frame)
      (map.clearance tile d)).1
    have quiet := holds.quiet (show k ≤ t.host.frame by omega)
    exact still timed (walkEither_of_quiet walked.strolls.listens quiet _ _) rfl walked
  · have chosen : s.host.states.chosen? .left .right = none ∧
        s.host.states.chosen? .up .down = some d := by
      cases d <;> simp_all [ButtonStates.chosen?]
    have across := walkEither_eq game map .left .right s
    have along := walkEither_eq game map .up .down s
    rw [chosen.1] at across
    rw [chosen.2] at along
    exact Play.Spends.andThen timed across rfl fun _ =>
      (walk fits bare holds short timed strolls early).congr along

/-- The first frame in which the button is held lasts until the walk is over. -/
theorem playFrame :
    let strides := Play.stridesPerTile game.config map
    let held := k - s.host.frame
    Spends input limit (Play.playFrame game) s
      (walkFrames strides (map.clearance tile d) held + 1)
      fun _ t => t.Walked map h input d tile strides held := by
  intro strides held
  have calm : s.host.states.pressed.has .activate = false := by
    rw [Bool.eq_false_iff, Ne, strolls.listens.pressed]
    intro pressed
    have same := ((holds _ _).mp pressed.1).2
    cases d <;> exact nomatch same
  have enacts : Spends input limit (Play.enactFrame game) s
      (walkFrames strides (map.clearance tile d) held)
      fun _ t => t.Walked map h input d tile strides held := by
    refine ((walkAbout fits bare holds short timed strolls early).bind_still
      fun _ t timed walked => ?_).congr (enactFrame_of_strolls strolls calm)
    refine still timed (a := ()) ?_ rfl walked
    rw [get_bind_apply, walked.strolls.actors]
    rfl
  refine enacts.bind fun _ t timed walked => (Play.Spends.advance timed).mono ?_
  rintro _ _ rfl
  exact ⟨walked.strolls.frame, walked.faces⟩

end Play.Spends

/-! ### Entering -/

/-- A game whose starting scene has a sound map and a player, and nothing else that could do
anything. -/
structure Game.Solitary (game : Game) (map : TileMap) (spawn : PlayerSpawn) : Prop where
  onMap : (game.graph.scene game.graph.start).map = some map
  sound : map.fault? = none
  bare : map.sensors = []
  player : (game.graph.scene game.graph.start).player = some spawn
  actors : (game.graph.scene game.graph.start).actors = []
  quiet : game.graph.events (game.graph.scene game.graph.start).events = []
  strides : game.config.stride ∣ map.grid

theorem Game.Solitary.fits {game : Game} {map : TileMap} {spawn : PlayerSpawn}
    (alone : game.Solitary map spawn) : game.config.Fits map :=
  ⟨map.grid_pos_of_fault? alone.sound, alone.strides⟩

/-- A session with no actors, nothing to run in a frame and no request. -/
structure Session.Empty (s : Session) : Prop where
  actors : s.stage.actors = []
  handlers : s.stage.handlers = []
  asked : s.stage.request = none

namespace Play.Spends

variable {game : Game} {map : TileMap} {spawn : PlayerSpawn} {input : InputScript} {limit : Nat}
  {s : Session}

theorem reads {α : Type} {x : Play α} {value : Variables → α} (reads : Play.Reads x value)
    (timed : s.Timed input limit) (empty : s.Empty) :
    Spends input limit x s 0 fun _ t => t.Empty := by
  obtain ⟨notices, is⟩ := reads s
  exact still timed is rfl ⟨empty.actors, empty.handlers, empty.asked⟩

theorem enterProp (map : Option TileMap) (definition : PropDef) (timed : s.Timed input limit)
    (empty : s.Empty) :
    Spends input limit (Play.enterProp map definition) s 0 fun _ t => t.Empty := by
  refine (reads (.tileAt _ _) timed empty).still_bind fun tile t timed empty => ?_
  refine (reads (.intOf _) timed empty).still_bind fun z t timed empty => ?_
  exact still timed rfl rfl ⟨empty.actors, empty.handlers, empty.asked⟩

theorem enterPlayer {scene : Scene} (hasPlayer : scene.player = some spawn)
    (hasMap : scene.map = some map) (config : Config) (timed : s.Timed input limit)
    (empty : s.Empty) :
    Spends input limit (Play.enterPlayer config scene spawn) s 0 fun _ t => t.Empty := by
  obtain ⟨notices, started⟩ := startPosition_eq hasPlayer hasMap s
  have kept : ({ s with notices := notices, pending := s.unused? scene } : Session).Empty :=
    ⟨empty.actors, empty.handlers, empty.asked⟩
  rw [Play.enterPlayer, hasMap]
  refine andThen timed started rfl fun timed => ?_
  refine (reads (.intOf _) timed kept).still_bind fun z t timed empty => ?_
  exact still timed rfl rfl ⟨empty.actors, empty.handlers, empty.asked⟩

theorem enterProps (map : Option TileMap) (definitions : List PropDef) (timed : s.Timed input limit)
    (empty : s.Empty) :
    Spends input limit (definitions.forM (Play.enterProp map)) s 0 fun _ t => t.Empty := by
  induction definitions generalizing s with
  | nil => exact pure timed empty
  | cons definition definitions ih =>
    exact (enterProp map definition timed empty).bind fun _ _ => ih

theorem furnish (alone : game.Solitary map spawn) (timed : s.Timed input limit) (empty : s.Empty) :
    Spends input limit (Play.furnish game (game.graph.scene game.graph.start)) s 0
      fun _ t => t.Empty := by
  have pointed : Session.Empty { s with host := s.host.setCamera s.stage.camera } :=
    ⟨empty.actors, empty.handlers, empty.asked⟩
  rw [Play.furnish, alone.actors]
  refine andThen timed rfl rfl fun timed => ?_
  refine (enterProps _ _ timed pointed).still_bind fun _ t timed empty => ?_
  refine andThen timed rfl rfl fun timed => andThen timed rfl rfl fun timed => andThen timed rfl rfl
    fun timed => andThen timed rfl rfl fun timed => ?_
  have nothing : Play.runList game (game.graph.scene game.graph.start).events false =
      Pure.pure () := by
    rw [Play.runList, alone.quiet]
    rfl
  rw [nothing]
  exact pure timed ⟨empty.actors, rfl, empty.asked⟩

/-- Entering the scene of a player alone takes no time. -/
theorem enterScene (alone : game.Solitary map spawn) (timed : s.Timed input limit) :
    Spends input limit (Play.enterScene game game.graph.start) s 0 fun _ t => t.Empty := by
  have bare : Session.Empty (s.entering game game.graph.start) := ⟨rfl, rfl, rfl⟩
  obtain ⟨scene, found⟩ : ∃ scene, game.graph.scene? game.graph.start = some scene := by
    cases found : game.graph.scene? game.graph.start with
    | some scene => exact ⟨scene, rfl⟩
    | none => simpa [SceneGraph.scene, found, Scene.fallback, Scene.called] using alone.onMap
  have opened := openScene_eq game game.graph.start s
  rw [found] at opened
  rw [Play.enterScene]
  refine andThen timed opened rfl fun timed => ?_
  rw [Play.build, alone.player]
  have shows (u : Session) : Play.showBackground u = .ok () (Deed.showBackground.apply u) := rfl
  refine andThen timed (shows _) rfl fun timed => ?_
  have shown : Session.Empty (Deed.showBackground.apply (s.entering game game.graph.start)) :=
    ⟨rfl, rfl, rfl⟩
  exact (enterPlayer alone.player alone.onMap game.config timed shown).bind fun _ _ timed empty =>
    furnish alone timed empty

end Play.Spends

/-- Then the player stands where the scene says. -/
theorem Session.Strolls.of_enterScene {game : Game} {map : TileMap} {spawn : PlayerSpawn}
    (alone : game.Solitary map spawn) {input : InputScript} {budget : Option Nat} {stops : Bool}
    {s t : Session} (start : game.session (.fresh input budget stops) = .ok s)
    (entered : Play.enterScene game game.graph.start s = .ok () t) (empty : t.Empty) :
    ∃ h, t.Strolls map h input (map.pixelOf (spawn.tile s.vars)) := by
  have becomes : s.after game [.enter game.graph.start] = t := congrArg Play.final entered
  have placed := placed_of_enterScene game game.graph.start s
  have held := held_after start rfl [.enter game.graph.start]
  have listens := Session.Listens.after start [.enter game.graph.start]
  rw [becomes] at held listens
  rw [entered] at placed
  have pending : s.pending = none := by
    obtain ⟨vars, -, rfl⟩ := Game.session_eq_ok_iff.mp start
    rfl
  have stance : t.stage.stance? = some (map.pixelOf (spawn.tile s.vars), spawn.direction) := by
    have others (request : SceneRequest) (kept : s.pending = some request) :
        ¬(game.graph.scene game.graph.start).Takes request s.vars := nomatch pending.symm.trans kept
    rw [show t.stage.stance? = _ from placed.stance, stance?_eq alone.player alone.onMap,
      (s.placement_of_others others spawn).1]
  obtain ⟨player, is, stands⟩ := Option.map_eq_some_iff.mp stance
  have shown := held.perm.mem_iff.mpr (Stage.mem_sprites_of_player is)
  have scene : t.stage.scene = game.graph.scene game.graph.start := placed.opened
  exact ⟨player.sprite, (congrArg Scene.map scene).trans alone.onMap, empty.actors, empty.handlers,
    empty.asked, ⟨player, is, congrArg Prod.fst stands, rfl⟩, shown, listens⟩

/-! ### The law of distance -/

theorem Session.Faces.later {h : SpriteHandle} {d : Direction} {s : Session} (faces : s.Faces h d)
    (n : Nat) : (s.later n).Faces h d := by
  induction n generalizing s with
  | zero => exact faces
  | succ n ih => exact ih (s := { s with host := s.host.afterFrame }) faces

namespace Play

variable {game : Game} {map : TileMap} {input : InputScript} {limit : Nat} {d : Direction}

/-- A run whose first scene the host stops is over. -/
theorem run_of_stopped {s t u : Session} {stop : HostStop} (first : s.entered = 0)
    (entered : enterScene game game.graph.start s = .ok () t)
    (stopped : framesUntilRequest game patience t = .error (.host stop) u) :
    ∃ summary, Play.run game s = .ok summary ((Deed.note (.runStopped summary)).apply u) ∧
      summary.stop = stop := by
  have visited : visit game game.graph.start s = .error (.host stop) u := by
    rw [visit, bind_apply, entered]
    simp only [playScene, bind_apply, stopped]
  have played : playScenes game (sceneCeiling - s.entered) game.graph.start s = .ok stop u := by
    rw [first]
    exact (playScenes_succ game _ _ s).trans (by rw [visited])
  rw [run_eq, played]
  exact ⟨_, rfl, rfl⟩

/-- A step on the spot takes a frame in which nothing on the stage changes and nothing moves. -/
theorem steps_of_blocked (sized : 0 < map.grid) {tile : Tile} {s : Session} {player : Player}
    (is : s.stage.player = some player) (on : player.position = map.pixelOf tile)
    (barred : map.blocked (tile.step d) = true) (holding : s.host.states.held.has d.button)
    (stays : s.stage.request = none) (left : s.host.stop? = none) (h : SpriteHandle) (rounds : Nat)
    (walk : WalkCycle) :
    ∃ t, steps game map d h (rounds + 1) walk s = steps game map d h rounds walk.next t ∧
      t.host.frame = s.host.frame + 1 ∧ t.stage = s.stage ∧
      ∀ k, (t.host.look? k).map Look.position = (s.host.look? k).map Look.position := by
  have ticks : ∃ host : Host, Play.tick walk h s = .ok walk.next { s with host := host } ∧
      host.frame = s.host.frame ∧ host.stop? = s.host.stop? ∧
      ∀ k, (host.look? k).map Look.position = (s.host.look? k).map Look.position := by
    rw [tick_eq]
    cases walk.picture? with
    | none => exact ⟨s.host, rfl, rfl, rfl, fun _ => rfl⟩
    | some picture =>
      refine ⟨s.host.setFrame h picture, rfl, rfl, rfl, fun k => ?_⟩
      rw [s.host.repaints_setFrame h picture k]
      split
      · rw [Option.map_map]
        rfl
      · rfl
  obtain ⟨host, ticked, frame, stop, places⟩ := ticks
  refine ⟨{ s with host := host.afterFrame }, ?_, congrArg (· + 1) frame, rfl, places⟩
  · rw [steps_succ, holding, Stage.changing, stays]
    simp only [Option.isSome_none, Bool.not_false, Bool.and_true, if_true]
    rw [bind_apply, step_of_blocked sized is on barred h walk, bind_apply, ticked]
    simp only [bind_apply, advance_eq, stop, left]
    rfl

/-- While the button of a direction is held in the first frames of a scene, the player walks, and
then nothing is done until the budget is used up. -/
theorem framesUntilRequest_of_holds {h : SpriteHandle} {tile : Tile} {k : Nat} {s : Session}
    (fits : game.config.Fits map) (bare : map.sensors = []) (holds : input.HoldsOnly d.button k)
    (short : limit ≤ Host.frameCeiling) (enough : k + stridesPerTile game.config map ≤ limit)
    (timed : s.Timed input limit) (strolls : s.Strolls map h input (map.pixelOf tile))
    (begins : s.host.frame = 0) :
    ∃ t, framesUntilRequest game patience s = .error (.host (.budgetExhausted limit)) t ∧
      t.Strolls map h input (map.pixelOf
        (tile.ahead d (min (k ⌈/⌉ stridesPerTile game.config map) (map.clearance tile d)))) ∧
      (1 ≤ k → t.Faces h d) := by
  rcases Nat.eq_zero_or_pos k with rfl | more
  · refine ⟨s.later limit, ?_, ?_, nofun⟩
    · exact framesUntilRequest_of_quiet timed strolls (fun f _ => holds.quiet f.zero_le)
        (by unfold patience; omega) (by omega)
    · rw [zero_ceilDiv, Nat.zero_min, Tile.ahead_zero]
      exact strolls.later limit
  · have pos := fits.stridesPerTile_pos
    have bounds := walkFrames_bounds pos (k - s.host.frame) (map.clearance tile d)
    have early : s.host.frame < k := by omega
    obtain ⟨_, t, played, timed', frame, walked⟩ :=
      (Spends.playFrame fits bare holds (by omega) timed strolls early).ends (by omega)
    have quiet (f : Nat) (_ : t.host.frame ≤ f) : ∀ b, b ∉ input.heldAt f :=
      holds.quiet (by omega)
    have within := timed'.within
    have rest : framesUntilRequest game Host.frameCeiling t =
        .error (.host (.budgetExhausted limit)) (t.later (limit - t.host.frame)) :=
      framesUntilRequest_of_quiet timed' walked.strolls quiet (by omega) (by omega)
    have held : k - s.host.frame = k := by omega
    rw [held] at walked
    refine ⟨t.later (limit - t.host.frame), ?_, walked.strolls.later _,
      fun _ => walked.faces.later _⟩
    rw [patience, framesUntilRequest_succ, strolls.asked]
    simp only [bind_apply, played]
    exact rest

end Play

theorem Config.Fits.stridesPerTile_eq {config : Config} {map : TileMap} (fits : config.Fits map) :
    (map.grid / config.stride).toNat = Play.stridesPerTile config map := by
  rw [← fits.stride_mul, Int.mul_ediv_cancel_left _ config.stride_pos.ne', Int.toNat_natCast]

/-- Over free tiles the player comes to none on which it does not measure. -/
theorem Config.Measures.ahead {config : Config} {map : TileMap} {sheet : SpriteSheet} {d : Direction}
    (valid : map.Valid) (fits : config.Fits map) {n : Nat} {tile : Tile}
    (measures : config.Measures map sheet (map.pixelOf tile)) (free : n ≤ map.clearance tile d) :
    config.Measures map sheet (map.pixelOf (tile.ahead d n)) := by
  induction n generalizing tile with
  | zero => rwa [Tile.ahead_zero]
  | succ n ih =>
    have clear : map.blocked (tile.step d) = false := by
      by_contra barred
      rw [TileMap.clearance_eq_zero (Bool.eq_true_of_not_eq_false barred)] at free
      omega
    rw [TileMap.clearance_eq_succ clear] at free
    rw [← Tile.ahead_step]
    exact ih (measures.step valid fits clear) (by omega)

/-- How far a player that is alone on a map walks from where it comes when the button of a direction
is held in the first frames of a run that lasts up to a limit. -/
structure Session.WalksAhead (game : Game) (map : TileMap) (spawn : PlayerSpawn) (d : Direction)
    (held limit : Nat) (s : Session) : Prop where
  /-- Each tile that is begun in these frames is crossed, up to the first that is not free. -/
  ends : ∃ summary t player, Play.run game s = .ok summary t ∧
    summary.stop = .budgetExhausted limit ∧ t.stage.player = some player ∧
    player.position = map.pixelOf ((spawn.tile s.vars).ahead d
      (min (held ⌈/⌉ (map.grid / game.config.stride).toNat)
        (map.clearance (spawn.tile s.vars) d))) ∧
    (1 ≤ held → t.Faces player.sprite d)
  /-- The player comes to the scene on words as on numbers. -/
  enters {u : Session} (vars : u.vars = s.vars) (first : u.pending = none) :
    Play.enterPlayerOnWords game.config (game.graph.scene game.graph.start) spawn u =
      lift (Play.enterPlayer game.config (game.graph.scene game.graph.start) spawn) u
  /-- On each tile to which it may come it measures, -/
  measures {n : Nat} (free : n ≤ map.clearance (spawn.tile s.vars) d) :
    game.config.Measures map spawn.sheet (map.pixelOf ((spawn.tile s.vars).ahead d n))
  /-- and from where it measures each step goes on words as on numbers. -/
  fits {u : Session} {player : Player} (is : u.stage.player = some player)
    (measures : game.config.Measures map player.sheet player.position) (toward : Direction)
    (walk : WalkCycle) :
    Play.stepOnWords game map toward player.sprite walk u =
      lift (Play.step game map toward player.sprite walk) u
  /-- Before a tile that is not free a walk takes a frame for each look at the button, and nothing
  moves. -/
  pauses {u : Session} {player : Player} {place : Tile} (is : u.stage.player = some player)
    (on : player.position = map.pixelOf place) (reaches : map.Reaches place)
    (barred : map.blocked (place.step d) = true)
    (holding : u.host.states.held.has d.button) (stays : u.stage.request = none)
    (left : u.host.stop? = none) (rounds : Nat) (walk : WalkCycle) :
    ∃ v, Play.steps game map d player.sprite (rounds + 1) walk u =
        Play.steps game map d player.sprite rounds walk.next v ∧
      v.host.frame = u.host.frame + 1 ∧ v.stage = u.stage ∧
      ∀ k, (v.host.look? k).map Look.position = (u.host.look? k).map Look.position

/-- **A held button takes the player as far as it is held.** In a game whose starting scene has a
map and a player and nothing else that could do anything, a run in whose first frames the button of
one direction is held, and which lasts long enough to cross another tile, leaves the player on the
tile that it set out for last, or on the last free one, facing that direction. The map must have room
for the player where it comes. -/
theorem walksAhead_of_solitary {game : Game} {map : TileMap} {spawn : PlayerSpawn}
    (alone : game.Solitary map spawn) {input : InputScript} {d : Direction} {held limit : Nat}
    (holds : input.HoldsOnly d.button held)
    (enough : held + (map.grid / game.config.stride).toNat ≤ limit)
    (short : limit ≤ Host.frameCeiling) {s : Session}
    (start : game.session (.fresh input (some limit) false) = .ok s)
    (room : game.config.Measures map spawn.sheet (map.pixelOf (spawn.tile s.vars))) :
    s.WalksAhead game map spawn d held limit := by
  have fits := alone.fits
  have valid := TileMap.fault?_eq_none_iff.mp alone.sound
  constructor
  case ends =>
    have timed : s.Timed input limit ∧ s.host.frame = 0 ∧ s.entered = 0 := by
      obtain ⟨vars, -, rfl⟩ := Game.session_eq_ok_iff.mp start
      exact ⟨⟨rfl, rfl, rfl, Nat.zero_le _, rfl⟩, rfl, rfl⟩
    obtain ⟨timed, begins, first⟩ := timed
    rw [fits.stridesPerTile_eq] at enough ⊢
    obtain ⟨_, t, entered, timed', frame, empty⟩ :=
      (Play.Spends.enterScene alone timed).ends (by omega)
    obtain ⟨h, strolls⟩ := Session.Strolls.of_enterScene alone start entered empty
    obtain ⟨u, stopped, strolls', faces⟩ := Play.framesUntilRequest_of_holds fits alone.bare holds
      short enough timed' strolls (by omega)
    obtain ⟨player, is, position, rfl⟩ := strolls'.player
    obtain ⟨summary, ran, stop⟩ := Play.run_of_stopped first entered stopped
    exact ⟨summary, _, player, ran, stop, is, position, faces⟩
  case enters =>
    intro u vars first
    have others (request : SceneRequest) (kept : u.pending = some request) :
        ¬(game.graph.scene game.graph.start).Takes request u.vars := nomatch first.symm.trans kept
    refine enterPlayerOnWords_eq alone.player alone.onMap (room.room.measured valid)
      valid.pixel_nonneg room.room.screen ?_
    rw [(u.placement_of_others others spawn).1, vars]
    exact room.draws
  case measures => exact room.ahead valid fits
  case fits =>
    intro u player is measures toward walk
    exact measures.stepOnWords_eq is valid
  case pauses =>
    intro u player place is on _ barred holding stays left rounds walk
    exact Play.steps_of_blocked fits.1 is on barred holding stays left player.sprite rounds walk

/-- A corridor that is barred after two tiles. -/
def Game.corridor : Game where
  graph :=
    { SceneGraph.empty with
      scenes := [{ Scene.called "corridor" with
        map := some ⟨4, 1, 4, [0, 0, 1, 0], []⟩
        player := some (.at 0 0) }] }
  config := .standard

/-- In five frames the player walks to the end of the corridor and on the spot for one; in one frame
it sets out for a tile. -/
theorem walksAhead_of_solitary_corridor :
    let map : TileMap := ⟨4, 1, 4, [0, 0, 1, 0], []⟩
    ∃ s t, Game.corridor.Solitary map (.at 0 0) ∧
      Game.corridor.session (.fresh (InputScript.empty.hold [.right] 5) (some 7) false) = .ok s ∧
      s.WalksAhead Game.corridor map (.at 0 0) .right 5 7 ∧
      (Play.final (Play.run Game.corridor s)).stage.player.map (·.position) = some ⟨4, 0⟩ ∧
      Game.corridor.session (.fresh (InputScript.empty.hold [.down] 1) (some 3) false) = .ok t ∧
      t.WalksAhead Game.corridor map (.at 0 0) .down 1 3 := by
  intro map
  have alone : Game.corridor.Solitary map (.at 0 0) :=
    ⟨rfl, rfl, rfl, rfl, rfl, rfl, by decide⟩
  have room : Game.corridor.config.Measures map SpriteSheet.standard (map.pixelOf ⟨0, 0⟩) := by
    decide
  exact ⟨_, _, alone, rfl,
    walksAhead_of_solitary alone (.hold .right 5) (by decide) (by decide) rfl room,
    by decide +kernel, rfl,
    walksAhead_of_solitary alone (.hold .down 1) (by decide) (by decide) rfl room⟩

end Overworld
