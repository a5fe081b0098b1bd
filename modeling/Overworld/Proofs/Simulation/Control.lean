import Overworld.Proofs.Simulation.Events

/-!
The player under control tracks itself in every simulation that its turns and steps keep.

A walk moves the player only while no scene is asked for, and goes on for as long as its button is
held; each of its steps takes a frame at least, so it ends with the host at the latest. What a
simulation has to know of a walk is what becomes of one step (`Simulation.Walks`), and where it knows
what becomes of every stride, it knows that.
-/

namespace Overworld.Simulation

variable {game : Game} {limit : Nat} {sim : Simulation game limit}

/-! ### Turning and walking pictures -/

theorem facePlayer_eq (d : Direction) (s : Session) :
    Play.facePlayer d s = .ok () ((Deed.turn d).apply s) := by
  rcases s with ⟨host, vars, ⟨_, _, _, _, _ | player, _, _, _⟩, _⟩ <;> rfl

theorem placePlayer_eq (map : TileMap) (position : Pixel) (s : Session) :
    Play.onPlayer (fun player host => player.place host map position) s =
      .ok () ((Deed.place map position).apply s) := by
  rcases s with ⟨host, vars, ⟨_, _, _, _, _ | player, _, _, _⟩, _⟩ <;> rfl

theorem faceActor_eq (index : Nat) (d : Direction) (s : Session) :
    Play.faceActor index d s = .ok () ((Deed.turnActor index d).apply s) := by
  rw [Play.faceActor, Play.modify_apply]
  simp only [Deed.apply, Session.withActor]
  cases s.stage.actors[index]? <;> rfl

/-- A tick of the walk shows the picture that is due, if there is one. -/
theorem tick_eq (walk : WalkCycle) (sprite : SpriteHandle) :
    Play.tick walk sprite =
      match walk.picture? with
      | some picture => do
        Play.onHost fun host => host.setFrame sprite picture
        return walk.next
      | none => return walk.next := by
  funext s
  change EStateM.Result.ok (walk.tick s.host sprite).1
    { s with host := (walk.tick s.host sprite).2 } = _
  unfold WalkCycle.tick
  cases walk.picture? <;> rfl

namespace Tracks

theorem facePlayer {d : Direction} (turns : sim.Does (.turn d)) :
    sim.Tracks (Play.facePlayer d) (Play.facePlayer d) :=
  .does (fun _ => .turn d) (fun _ => turns) (fun _ => trivial) (facePlayer_eq d)

theorem faceActor {index : Nat} {d : Direction} (turns : sim.Does (.turnActor index d)) :
    sim.Tracks (Play.faceActor index d) (Play.faceActor index d) :=
  .does (fun _ => .turnActor index d) (fun _ => turns) (fun _ => trivial) (faceActor_eq index d)

theorem setCamera (camera : Pixel) : sim.Tracks (Play.setCamera camera) (Play.setCamera camera) :=
  .bind (.deed (fun _ => .camera camera) (fun _ => trivial) (fun _ => trivial) fun _ => rfl)
    fun _ => present (.camera camera)

theorem tick (walk : WalkCycle) (sprite : SpriteHandle) :
    sim.Tracks (Play.tick walk sprite) (Play.tick walk sprite) := by
  rw [tick_eq]
  split
  · exact (present (.picture sprite _)).bind fun _ => .pure _
  · exact .pure _

theorem held (button : Button) : sim.Tracks (Play.held button) (Play.held button) :=
  .reads (fun related => by rw [sim.states related]) fun _ => .pure _

theorem pressed (button : Button) : sim.Tracks (Play.pressed button) (Play.pressed button) :=
  .reads (fun related => by rw [sim.states related]) fun _ => .pure _

end Tracks

/-! ### Strides -/

/-- A tick takes no time and leaves the stage alone. -/
theorem after_tick {walk walk' : WalkCycle} {sprite : SpriteHandle} {s t : Session}
    (h : Play.tick walk sprite s = .ok walk' t) :
    t.stage = s.stage ∧ t.host.frame = s.host.frame := by
  cases h
  refine ⟨rfl, ?_⟩
  simp only
  split <;> rfl

/-- A stride takes one frame and asks for no scene. -/
theorem after_stride {map : TileMap} {position camera : Pixel} {walk walk' : WalkCycle}
    {sprite : SpriteHandle} {s w x y z : Session}
    (placed : Play.onPlayer (fun player host => player.place host map position) s = .ok () w)
    (shown : Play.setCamera camera w = .ok () x) (ticked : Play.tick walk sprite x = .ok walk' y)
    (played : Play.advance y = .ok () z) :
    z.stage.request = s.stage.request ∧ z.host.frame = s.host.frame + 1 := by
  obtain ⟨-, rfl⟩ := Play.advance_eq_ok_iff.mp played
  obtain ⟨stage, frame⟩ := after_tick ticked
  rw [placePlayer_eq] at placed
  cases shown
  cases placed
  constructor
  · change y.stage.request = _
    rw [stage]
    rfl
  · exact congrArg (· + 1) frame

/-- A simulation that keeps every move of the player. -/
def Strides (sim : Simulation game limit) : Prop := ∀ map position, sim.Does (.place map position)

/-- The player moves on only while no scene is asked for. -/
theorem TracksFrom.stride (strides : sim.Strides) (map : TileMap) (d : Direction)
    (sprite : SpriteHandle) (count : Nat) (position : Pixel) (walk : WalkCycle) :
    sim.TracksFrom (fun s => s.stage.request = none)
      (Play.stride game.config map d sprite count position walk)
      (Play.stride (game.withLimit limit).config map d sprite count position walk) := by
  induction count generalizing position walk with
  | zero => exact (Tracks.pure walk).from
  | succ count ih =>
    refine .bind (.does (strides map _) (placePlayer_eq map _)) fun _ => ?_
    refine (Tracks.setCamera _).from.bind fun _ => (Tracks.tick walk sprite).from.bind fun walk =>
      .bind (Tracks.from .advance) fun _ => (ih _ walk).weaken ?_
    rintro z ⟨y, ⟨x, ⟨w, ⟨s, free, placed⟩, shown⟩, ticked⟩, played⟩
    exact (after_stride placed shown ticked played).1.trans free

/-- Each stride takes a frame. -/
theorem frame_of_stride {config : Config} {map : TileMap} {d : Direction} {sprite : SpriteHandle}
    {count : Nat} {position : Pixel} {walk walk' : WalkCycle} {s t : Session}
    (h : Play.stride config map d sprite count position walk s = .ok walk' t) :
    t.host.frame = s.host.frame + count := by
  induction count generalizing position walk s with
  | zero =>
    cases h
    rfl
  | succ count ih =>
    obtain ⟨_, w, placed, h⟩ := Play.bind_eq_ok_iff.mp h
    obtain ⟨_, x, shown, h⟩ := Play.bind_eq_ok_iff.mp h
    obtain ⟨walk, y, ticked, h⟩ := Play.bind_eq_ok_iff.mp h
    obtain ⟨_, z, played, h⟩ := Play.bind_eq_ok_iff.mp h
    have first := (after_stride placed shown ticked played).2
    have rest := ih h
    omega

theorem stridesPerTile_pos {config : Config} {map : TileMap} (sized : 0 < map.grid) :
    0 < Play.stridesPerTile config map := by
  have stride : 0 < config.stride := by
    unfold Config.stride
    omega
  unfold Play.stridesPerTile
  apply Nat.div_pos <;> omega

/-! ### Steps -/

/-- The tile of a point on the map of the scene is found, if its tiles have a size. -/
theorem TracksFrom.tileOf (map : TileMap) (p : Pixel) :
    sim.TracksFrom (fun s => s.stage.map = some map) (Play.tileOf map p) (Play.tileOf map p) where
  joined {s t} related onMap := by
    unfold Play.tileOf
    cases found : map.tileOf? p with
    | some tile => exact .ok tile related
    | none =>
      rcases sim.sound with lenient | sound
      · exact .error related lenient.1
      · have sized := (sound related).grid map onMap
        have size : map.grid ≠ 0 := by omega
        simp [TileMap.tileOf?, size] at found
  grows := by
    unfold Play.tileOf
    split
    · exact .pure _
    · exact .throw _

/-- Looking for a tile changes nothing. -/
theorem eq_of_tileOf {map : TileMap} {p : Pixel} {tile : Tile} {s t : Session}
    (h : Play.tileOf map p s = .ok tile t) : t = s := by
  unfold Play.tileOf at h
  cases found : map.tileOf? p with
  | some tile =>
    rw [found] at h
    cases h
    rfl
  | none =>
    rw [found] at h
    exact nomatch h

theorem Tracks.trigger (map : TileMap) (tile : Tile) (sprite : SpriteHandle) (walk : WalkCycle) :
    sim.Tracks (Play.trigger game map tile sprite walk)
      (Play.trigger (game.withLimit limit) map tile sprite walk) := by
  unfold Play.trigger
  split
  · refine .ite (.pure walk) ?_
    exact (runList _ true).bind fun _ => (tick walk sprite).bind fun walk =>
      .bind advance fun _ => .pure walk
  · exact .pure walk

theorem TracksFrom.step (strides : sim.Strides) (map : TileMap) (d : Direction)
    (sprite : SpriteHandle) (walk : WalkCycle) :
    sim.TracksFrom (fun s => s.stage.map = some map ∧ s.stage.request = none)
      (Play.step game map d sprite walk) (Play.step (game.withLimit limit) map d sprite walk) := by
  refine .reads (fun related => by rw [sim.stage related]) fun s => ?_
  split
  · exact (Tracks.pure walk).from
  · rename_i player _
    refine ((TracksFrom.tileOf map player.position).weaken ?_).bind fun tile => ?_
    · rintro _ ⟨rfl, onMap, -⟩
      exact onMap
    refine .reads (fun related => by rw [sim.stage related]) fun u => .ite (fun _ => ?_) fun _ => ?_
    · exact ((Tracks.tick walk sprite).bind fun walk => .bind .advance fun _ => .pure walk).from
    · refine ((TracksFrom.stride strides ..).weaken ?_).bind fun walk => (Tracks.trigger ..).from
      rintro _ ⟨rfl, _, ⟨rfl, -, free⟩, found⟩
      rw [eq_of_tileOf found]
      exact free

/-- A step of the player takes a frame at least. -/
theorem frame_lt_of_step {map : TileMap} {d : Direction} {sprite : SpriteHandle}
    {walk walk' : WalkCycle} {s t : Session} (sized : 0 < map.grid)
    (present : s.stage.player.isSome) (h : Play.step game map d sprite walk s = .ok walk' t) :
    s.host.frame < t.host.frame := by
  obtain ⟨player, is⟩ := Option.isSome_iff_exists.mp present
  rw [Play.step, Play.get_bind_apply] at h
  simp only [is] at h
  obtain ⟨tile, u, found, h⟩ := Play.bind_eq_ok_iff.mp h
  cases eq_of_tileOf found
  change (if _ then _ else _ : Play WalkCycle) s = _ at h
  split at h
  · obtain ⟨walk, v, ticked, h⟩ := Play.bind_eq_ok_iff.mp h
    obtain ⟨_, w, played, h⟩ := Play.bind_eq_ok_iff.mp h
    obtain ⟨-, rfl⟩ := Play.advance_eq_ok_iff.mp played
    cases h
    exact Nat.lt_succ_of_le (Nat.le_of_eq (after_tick ticked).2.symm)
  · obtain ⟨walk, v, strode, h⟩ := Play.bind_eq_ok_iff.mp h
    have far := frame_of_stride strode
    have strides : 0 < Play.stridesPerTile game.config map := stridesPerTile_pos sized
    have rest : Stretch v t := Tracks.stretch_ok (.trigger ..) h
    have later : v.host.frame ≤ t.host.frame := rest.clock_le.1
    omega

/-! ### Walks -/

/-- A simulation that keeps what the player does under control, turn by turn and step by step. -/
structure Walks (sim : Simulation game limit) : Prop where
  turn (d : Direction) : sim.Does (.turn d)
  turnActor (index : Nat) (d : Direction) : sim.Does (.turnActor index d)
  step (map : TileMap) (d : Direction) (sprite : SpriteHandle) (walk : WalkCycle) :
    sim.TracksFrom (fun s => s.stage.map = some map ∧ s.stage.request = none)
      (Play.step game map d sprite walk) (Play.step (game.withLimit limit) map d sprite walk)

/-- Where every deed of the player is kept, so is every step. -/
theorem Walks.of_does (does : ∀ d : Deed, (∀ r, d ≠ .remember r) → sim.Does d) : sim.Walks where
  turn _ := does _ nofun
  turnActor _ _ := does _ nofun
  step := .step fun _ _ => does _ nofun

theorem walks_within (game : Game) (s : Session) : (within game s).Walks :=
  .of_does fun d _ => does_within game s d

/-- A walk can go on for as long as the host does, if some frames are left for it. -/
theorem TracksFrom.steps (walks : sim.Walks) (map : TileMap) (d : Direction) (sprite : SpriteHandle)
    (n : Nat) (walk : WalkCycle) :
    sim.TracksFrom
      (fun s => s.stage.map = some map ∧ s.stage.player.isSome ∧
        (Lenient sim.mayEnd ∨ s.Sound ∧ s.host.framesLeft < n))
      (Play.steps game map d sprite n walk) (Play.steps (game.withLimit limit) map d sprite n walk) := by
  induction n generalizing walk with
  | zero =>
    refine ⟨fun {s t} related ⟨_, _, enough⟩ => ?_, .throw _⟩
    rcases enough with lenient | ⟨-, enough⟩
    · exact .error related lenient.2
    · exact absurd enough (Nat.not_lt_zero _)
  | succ n ih =>
    refine (Tracks.held d.button).from.bind fun holds => ?_
    refine .reads (fun related => by rw [sim.stage related]) fun u => .ite (fun goes => ?_) fun _ =>
      (Tracks.pure ()).from
    have free : u.stage.request = none := by
      cases asked : u.stage.request with
      | none => rfl
      | some request => simp [Stage.changing, asked] at goes
    refine ((walks.step map d sprite walk).weaken ?_).bind fun next => (ih next).weaken ?_
    · rintro _ ⟨rfl, s, ⟨onMap, -⟩, looked⟩
      cases looked
      exact ⟨onMap, free⟩
    · rintro v ⟨_, ⟨rfl, s, ⟨onMap, present, enough⟩, looked⟩, stepped⟩
      cases looked
      have course := TracksFrom.stretch_ok ((walks_within game _).step ..) ⟨onMap, free⟩ stepped
      refine ⟨course.map_eq.trans onMap, course.player_isSome.trans present, ?_⟩
      refine enough.imp_right fun ⟨sound, left⟩ => ?_
      have later := course.later sound
      have fewer := later.framesLeft_lt (frame_lt_of_step (sound.grid map onMap) present stepped)
      exact ⟨later.sound, by omega⟩

theorem TracksFrom.walk (walks : sim.Walks) (map : TileMap) (d : Direction) :
    sim.TracksFrom (fun s => s.stage.map = some map) (Play.walk game map d)
      (Play.walk (game.withLimit limit) map d) := by
  refine .reads (fun related => by rw [sim.stage related]) fun s => ?_
  split
  · exact (Tracks.pure ()).from
  · rename_i player is
    have turns : sim.Tracks (Play.facePlayer d) (Play.facePlayer d) := .facePlayer (walks.turn d)
    refine turns.from.bind fun _ => (Tracks.held d.button).from.bind fun holds =>
      .ite (fun _ => ?_) fun _ => (Tracks.pure ()).from
    refine .ofSound (((TracksFrom.steps walks ..).weaken ?_).bind fun _ => turns.from)
    rintro u ⟨⟨v, ⟨s, ⟨rfl, onMap⟩, turned⟩, looked⟩, enough⟩
    cases looked
    have course : Stretch s u := by
      rw [facePlayer_eq] at turned
      cases turned
      exact .single (.deed (.turn d) trivial)
    have present : u.stage.player.isSome := by
      rw [course.player_isSome, is]
      rfl
    exact ⟨course.map_eq.trans onMap, present,
      enough.imp_right fun sound => ⟨sound, sound.framesLeft_lt_patience⟩⟩

theorem TracksFrom.walkEither (walks : sim.Walks) (map : TileMap) (first second : Direction) :
    sim.TracksFrom (fun s => s.stage.map = some map) (Play.walkEither game map first second)
      (Play.walkEither (game.withLimit limit) map first second) := by
  have wants (d : Direction) : sim.Tracks (Play.wants d) (Play.wants d) :=
    (Tracks.pressed d.button).bind fun _ => (Tracks.held d.button).bind fun _ => .pure _
  refine (wants first).from.bind fun _ => .ite (fun _ => ?_) fun _ => (wants second).from.bind fun _ =>
    .ite (fun _ => ?_) fun _ => (Tracks.pure ()).from
  · refine (TracksFrom.walk walks map first).weaken ?_
    rintro u ⟨s, onMap, looked⟩
    cases looked
    exact onMap
  · refine (TracksFrom.walk walks map second).weaken ?_
    rintro u ⟨v, ⟨s, onMap, looked⟩, again⟩
    cases looked
    cases again
    exact onMap

/-- The actor in front of the player is looked for on a map whose tiles have a size. -/
theorem TracksFrom.actorInFront (map : TileMap) (player : Player) :
    sim.TracksFrom (fun s => s.stage.map = some map) (Play.actorInFront game map player)
      (Play.actorInFront (game.withLimit limit) map player) := by
  refine (TracksFrom.tileOf map player.position).bind fun tile => ?_
  refine .reads (fun related => by simp only [sim.stage related]) fun s => ?_
  dsimp only
  split
  · exact (Tracks.pure _).from
  · split
    · exact (Tracks.pure _).from
    · exact .ite (fun _ => (Tracks.pure _).from) fun _ => (Tracks.pure _).from

/-! ### Control -/

theorem Tracks.control (walks : sim.Walks) :
    sim.Tracks (Play.control game) (Play.control (game.withLimit limit)) := by
  refine TracksFrom.tracks (.reads (fun related => by simp only [sim.stage related]) fun s => ?_)
  dsimp only
  split
  · rename_i map player onMap is
    have walking : sim.TracksFrom (fun s => s.stage.map = some map) _ _ :=
      (TracksFrom.walkEither walks map .left .right).bind fun _ =>
        (TracksFrom.walkEither walks map .up .down).weaken fun u ⟨s, onMap, walked⟩ =>
          (TracksFrom.stretch_ok (.walkEither (walks_within game _) ..) onMap walked).map_eq.trans
            onMap
    refine (pressed .activate).from.bind fun activates => .ite (fun _ => ?_) fun _ => ?_
    · refine ((TracksFrom.actorInFront map player).weaken ?_).bind fun found => ?_
      · rintro u ⟨s, ⟨rfl, -⟩, looked⟩
        cases looked
        exact onMap
      · split
        · exact ((faceActor (walks.turnActor _ _)).bind fun _ => (runList ..).bind fun _ =>
            .bind advance fun _ => .pure ()).from
        · refine walking.weaken ?_
          rintro v ⟨u, ⟨s, ⟨rfl, -⟩, looked⟩, looked'⟩
          cases looked
          exact (TracksFrom.stretch_ok (.actorInFront map player) onMap looked').map_eq.trans onMap
    · refine walking.weaken ?_
      rintro u ⟨s, ⟨rfl, -⟩, looked⟩
      cases looked
      exact onMap
  · exact (Tracks.pure ()).from

end Overworld.Simulation
