import Overworld.Proofs.Acts.Events

/-!
The player under control, act by act.

A walk begins and ends with a turn, and only between them does the player show pictures of its walk.
What the player steps on is triggered in the middle of the walk and brought to an end before it goes
on, so a stride finds nothing else going on.
-/

namespace Overworld

open Simulation

/-- What neither turns nor steps change of the player stays its own within a scene. -/
theorem Stretch.player_map_eq {α : Type} (f : Player → α)
    (turned : ∀ (p : Player) host d, f (p.face host d).1 = f p)
    (placed : ∀ (p : Player) host map position, f (p.place host map position).1 = f p)
    {s t : Session} (h : Stretch s t) : t.stage.player.map f = s.stage.player.map f := by
  refine h.keeps (P := fun u => u.stage.player.map f = s.stage.player.map f) ?_ rfl
  intro u v step same
  refine Eq.trans ?_ same
  cases step with
  | frame goes => rfl
  | deed d allowed =>
    cases d with
    | turn d =>
      simp only [Deed.apply, Session.withPlayer, Option.map_map]
      exact congrArg (Option.map · _) (funext fun p => turned p _ d)
    | place map position =>
      simp only [Deed.apply, Session.withPlayer, Option.map_map]
      exact congrArg (Option.map · _) (funext fun p => placed p _ map position)
    | _ => rfl

/-- The sprite of the player stays its own within a scene. -/
theorem Stretch.sprite_eq {s t : Session} (h : Stretch s t) :
    t.stage.player.map (·.sprite) = s.stage.player.map (·.sprite) :=
  h.player_map_eq _ (fun _ _ _ => rfl) fun _ _ _ _ => rfl

/-- A stage on whose map a player walks. -/
structure Stage.OnFoot (map : TileMap) (sprite : SpriteHandle) (stage : Stage) : Prop where
  onMap : stage.map = some map
  sprite : stage.player.map (·.sprite) = some sprite

theorem Stage.OnFoot.later {map : TileMap} {sprite : SpriteHandle} {s t : Session}
    (h : s.stage.OnFoot map sprite) (stretch : Stretch s t) : t.stage.OnFoot map sprite :=
  ⟨stretch.map_eq.trans h.onMap, stretch.sprite_eq.trans h.sprite⟩

namespace Play

variable {game : Game} {m : Mode} {x : Doing} {w : Bool} {map : TileMap} {sprite : SpriteHandle}

/-! ### Turning and walking pictures -/

namespace Passes

theorem facePlayer (d : Direction) : Passes game ⟨x, w⟩ ⟨x, false⟩ (Play.facePlayer d) :=
  .act (fun _ => .turn d) (facePlayer_eq d)

theorem faceActor (index : Nat) (d : Direction) : Passes game m m (Play.faceActor index d) :=
  .deed (fun _ => .turnActor index d) (fun _ => trivial) (fun _ => trivial) (faceActor_eq index d)

theorem held (button : Button) : Passes game m m (Play.held button) := .reads fun _ => .pure _

theorem pressed (button : Button) : Passes game m m (Play.pressed button) := .reads fun _ => .pure _

end Passes

/-- A tick of the walk shows a picture of the player. -/
theorem PassesFrom.tick (map : TileMap) (walk : WalkCycle) :
    PassesFrom game (fun s => s.stage.OnFoot map sprite) ⟨x, true⟩ ⟨x, true⟩
      (Play.tick walk sprite) := by
  rw [tick_eq]
  split
  · rename_i picture _
    refine PassesFrom.bind (.act (f := (Deed.present (.picture sprite picture)).apply) ?_ ?_)
      fun _ => (Passes.pure _).from
    · rintro s ⟨-, is⟩
      obtain ⟨player, present, rfl⟩ := Option.map_eq_some_iff.mp is
      exact .picture present picture
    · exact fun _ => rfl
  · exact (Passes.pure _).from

/-! ### Strides and steps -/

theorem Passes.tileOf (map : TileMap) (p : Pixel) :
    Passes game ⟨.nothing, w⟩ ⟨.nothing, w⟩ (Play.tileOf map p) := by
  unfold Play.tileOf
  split
  · exact .pure _
  · exact .throw rfl

/-- The player moves on only while no scene is asked for. -/
theorem PassesFrom.stride (d : Direction) (count : Nat) (position : Pixel) (walk : WalkCycle) :
    PassesFrom game (fun s => s.stage.OnFoot map sprite ∧ s.stage.request = none) ⟨.nothing, true⟩
      ⟨.nothing, true⟩ (Play.stride game.config map d sprite count position walk) := by
  induction count generalizing position walk with
  | zero => exact (Passes.pure walk).from
  | succ count ih =>
    -- Neither the tick of the walk nor the frame changes the stage, so the next stride is as free.
    have rest (position : Pixel) : PassesFrom game
        (fun s => s.stage.OnFoot map sprite ∧ s.stage.request = none) ⟨.nothing, true⟩
        ⟨.nothing, true⟩ (do
          let walk ← Play.tick walk sprite
          Play.advance
          Play.stride game.config map d sprite count position walk) := by
      refine ((PassesFrom.tick map walk).weaken fun _ => And.left).bind fun walk =>
        (Passes.advance (by simp)).from.bind fun _ => (ih position walk).weaken ?_
      rintro u ⟨t, ⟨s, onFoot, ticked⟩, played⟩
      obtain ⟨-, rfl⟩ := advance_eq_ok_iff.mp played
      rw [← (after_tick ticked).1] at onFoot
      exact onFoot
    constructor
    rintro s ⟨onFoot, free⟩
    let next : Pixel := ⟨position.x + d.offset.1 * game.config.stride,
      position.y + d.offset.2 * game.config.stride⟩
    let camera := (ScrollBounds.ofMap map game.config).following map next
    have strides : Act game (⟨.nothing, true⟩, s)
        (⟨.nothing, true⟩, ((Deed.place map next).apply s).pointed camera) :=
      .stride onFoot.onMap free next
    have placed := onFoot.later (.single (.deed (.place map next) free))
    have goes := (rest next).comes (s := ((Deed.place map next).apply s).pointed camera)
      ⟨⟨placed.onMap, placed.sprite⟩, free⟩
    rw [Play.stride, bind_apply, placePlayer_eq]
    exact goes.after (.single strides)

theorem PassesFrom.trigger (tile : Tile) (walk : WalkCycle) :
    PassesFrom game (fun s => s.stage.OnFoot map sprite) ⟨.nothing, true⟩ ⟨.nothing, true⟩
      (Play.trigger game map tile sprite walk) := by
  unfold Play.trigger
  split
  · rename_i sensor _
    refine .ite (fun _ => (Passes.pure walk).from) fun _ => ?_
    refine (Passes.runList sensor.events true).from.bind fun _ =>
      ((PassesFrom.tick map walk).weaken ?_).bind fun walk =>
        ((Passes.advance (by simp)).bind fun _ => .pure walk).from
    rintro u ⟨s, onFoot, ran⟩
    exact onFoot.later (Tracks.stretch_ok (.runList ..) ran)
  · exact (Passes.pure walk).from

theorem PassesFrom.step (d : Direction) (walk : WalkCycle) :
    PassesFrom game (fun s => s.stage.OnFoot map sprite ∧ s.stage.request = none) ⟨.nothing, true⟩
      ⟨.nothing, true⟩ (Play.step game map d sprite walk) := by
  refine .reads fun s => ?_
  split
  · exact (Passes.pure walk).from
  · rename_i player _
    refine (Passes.tileOf map player.position).from.bind fun tile => .reads fun u => ?_
    refine .ite (fun _ => ?_) fun _ => ?_
    · refine ((PassesFrom.tick map walk).weaken ?_).bind fun walk =>
        ((Passes.advance (by simp)).bind fun _ => .pure walk).from
      rintro _ ⟨rfl, _, ⟨rfl, onFoot, -⟩, found⟩
      rw [eq_of_tileOf found]
      exact onFoot
    · refine ((PassesFrom.stride d _ _ walk).weaken ?_).bind fun next =>
        (PassesFrom.trigger _ next).weaken ?_
      · rintro _ ⟨rfl, _, ⟨rfl, onFoot⟩, found⟩
        rw [eq_of_tileOf found]
        exact onFoot
      · rintro v ⟨u, ⟨rfl, s, ⟨rfl, onFoot, free⟩, found⟩, strode⟩
        cases eq_of_tileOf found
        have does : (within game u).Strides := fun _ _ => does_within game u _
        have strides := TracksFrom.stride does map d sprite (stridesPerTile game.config map)
          player.position walk
        exact onFoot.later (strides.stretch_ok free strode)

/-! ### Walks -/

theorem PassesFrom.steps (d : Direction) (n : Nat) (walk : WalkCycle) :
    PassesFrom game (fun s => s.stage.OnFoot map sprite) ⟨.nothing, true⟩ ⟨.nothing, true⟩
      (Play.steps game map d sprite n walk) := by
  induction n generalizing walk with
  | zero => exact (Passes.throw (by simp [Halt.Leaves])).from
  | succ n ih =>
    refine (Passes.held d.button).from.bind fun holds => .reads fun u => ?_
    refine .ite (fun goes => ?_) fun _ => (Passes.pure ()).from
    -- A step is made only where no scene is asked for, and what it triggers may ask for one.
    have free : u.stage.request = none := by
      cases asked : u.stage.request with
      | none => rfl
      | some request => simp [Stage.changing, asked] at goes
    refine ((PassesFrom.step d walk).weaken ?_).bind fun next => (ih next).weaken ?_
    · rintro _ ⟨rfl, s, onFoot, looked⟩
      cases looked
      exact ⟨onFoot, free⟩
    · rintro v ⟨_, ⟨rfl, s, onFoot, looked⟩, stepped⟩
      cases looked
      exact onFoot.later
        (TracksFrom.stretch_ok ((walks_within game _).step ..) ⟨onFoot.onMap, free⟩ stepped)

/-- A walk ends with a turn, after which the player stands still. -/
theorem PassesFrom.walk (d : Direction) :
    PassesFrom game (fun s => s.stage.map = some map) .still .still (Play.walk game map d) := by
  refine .reads fun s => ?_
  split
  · exact (Passes.pure ()).from
  · rename_i player is
    refine (Passes.facePlayer d).from.bind fun _ => (Passes.held d.button).from.bind fun holds =>
      .ite (fun _ => ?_) fun _ => (Passes.pure ()).from
    constructor
    rintro u ⟨v, ⟨s, ⟨rfl, onMap⟩, turned⟩, looked⟩
    cases looked
    rw [facePlayer_eq] at turned
    cases turned
    have turned : Stretch s ((Deed.turn d).apply s) := .single (.deed (.turn d) trivial)
    have onFoot : s.stage.OnFoot map player.sprite :=
      ⟨onMap, congrArg (Option.map Player.sprite) is⟩
    have walks : PassesFrom game (fun s => s.stage.OnFoot map player.sprite) ⟨.nothing, true⟩
        .still (do
          Play.steps game map d player.sprite patience (.start d game.config.walkWait)
          Play.facePlayer d) :=
      (PassesFrom.steps d _ _).bind fun _ => (Passes.facePlayer d).from
    exact (walks.comes (onFoot.later turned)).after (.single .walk)

theorem PassesFrom.walkEither (first second : Direction) :
    PassesFrom game (fun s => s.stage.map = some map) .still .still
      (Play.walkEither game map first second) := by
  have wants (d : Direction) : Passes game .still .still (Play.wants d) :=
    (Passes.pressed d.button).bind fun _ => (Passes.held d.button).bind fun _ => .pure _
  refine (wants first).from.bind fun _ => .ite (fun _ => ?_) fun _ =>
    (wants second).from.bind fun _ => .ite (fun _ => ?_) fun _ => (Passes.pure ()).from
  · refine (PassesFrom.walk first).weaken ?_
    rintro u ⟨s, onMap, looked⟩
    cases looked
    exact onMap
  · refine (PassesFrom.walk second).weaken ?_
    rintro u ⟨v, ⟨s, onMap, looked⟩, again⟩
    cases looked
    cases again
    exact onMap

theorem Passes.actorInFront (map : TileMap) (player : Player) :
    Passes game .still .still (Play.actorInFront game map player) := by
  refine (tileOf map player.position).bind fun tile => .reads fun s => ?_
  dsimp only
  split
  · exact .pure _
  · split
    · exact .pure _
    · exact .ite (.pure _) (.pure _)

/-! ### Control -/

theorem Passes.control : Passes game .still .still (Play.control game) := by
  refine PassesFrom.passes (.reads fun s => ?_)
  dsimp only
  split
  · rename_i map player onMap is
    have walking : PassesFrom game (fun s => s.stage.map = some map) .still .still
        (do
          Play.walkEither game map .left .right
          Play.walkEither game map .up .down) := by
      refine (PassesFrom.walkEither .left .right).bind fun _ =>
        (PassesFrom.walkEither .up .down).weaken ?_
      rintro u ⟨s, onMap, walked⟩
      exact (TracksFrom.stretch_ok (.walkEither (walks_within game s) ..) onMap walked).map_eq.trans
        onMap
    refine (Passes.pressed .activate).from.bind fun activates => .ite (fun _ => ?_) fun _ => ?_
    · refine (Passes.actorInFront map player).from.bind fun found => ?_
      split
      · exact ((Passes.faceActor _ _).bind fun _ => (Passes.runList ..).bind fun _ =>
          (Passes.advance (by simp)).bind fun _ => .pure ()).from
      · refine walking.weaken ?_
        rintro v ⟨u, ⟨s, ⟨rfl, -⟩, looked⟩, looked'⟩
        cases looked
        exact (TracksFrom.stretch_ok (.actorInFront map player) onMap looked').map_eq.trans onMap
    · refine walking.weaken ?_
      rintro u ⟨s, ⟨rfl, -⟩, looked⟩
      cases looked
      exact onMap
  · exact (Passes.pure ()).from

end Play

end Overworld
