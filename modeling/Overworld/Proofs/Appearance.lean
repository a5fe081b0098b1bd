import Overworld.Proofs.Acts.Scenes
import Overworld.Proofs.Sprites
import Overworld.Proofs.Walking

/-!
The host shows everything on the stage as it is.

An actor or the player is on the stage, and its sprite in the host; what the sprite looks like
(`Look`) follows from the entity. Every change of an entity repaints its sprite, and since no other
entity holds it (`Session.Held`) no other entity is repainted. So the looks agree after every act,
whatever comes of it (`Presented`); only the picture of a player whose walk was broken off may be
one of the walk.
-/

namespace Overworld

/-! ### Looks -/

/-- What a sprite looks like: whether it is seen, its picture and whether that is flipped, and
where it is. -/
structure Look where
  visible : Bool
  picture : Nat × Bool
  position : Pixel
deriving DecidableEq, Repr

def Sprite.look (s : Sprite) : Look := ⟨s.visible, (s.frame, s.flip), s.position⟩

/-- What the sprite of a handle looks like, if it was not destroyed. -/
def Host.look? (host : Host) (h : SpriteHandle) : Option Look := (host.sprite? h).map Sprite.look

/-- What an actor on a map has to look like. -/
def Actor.look (a : Actor) (map : Option TileMap) : Look :=
  ⟨a.visible, a.direction.idlePicture, worldPosition map (tileCorner map a.tile) a.definition.sheet⟩

/-- What the player on a map has to look like in a picture of its direction. -/
def Player.look (p : Player) (map : Option TileMap) (frame : Nat) : Look :=
  ⟨true, (frame, p.direction.idlePicture.2), worldPosition map p.position p.sheet⟩

/-! ### Repainting -/

/-- One sprite is repainted and the others are not. -/
def Host.Repaints (host : Host) (h : SpriteHandle) (repaint : Look → Look) (after : Host) : Prop :=
  ∀ k, after.look? k = if k = h then (host.look? k).map repaint else host.look? k

namespace Host

variable {host after : Host} {h k : SpriteHandle} {repaint : Look → Look}

theorem sprite?_updateSprite (host : Host) (h k : SpriteHandle) (change : Sprite → Sprite) :
    (host.updateSprite h change).sprite? k =
      if k = h then (host.sprite? k).map change else host.sprite? k := by
  unfold sprite? updateSprite
  dsimp only
  induction host.sprites with
  | nil => split <;> rfl
  | cons entry sprites ih =>
    obtain ⟨other, sprite⟩ := entry
    by_cases first : k = other
    · subst first
      by_cases same : k = h <;> simp [same]
    · have passes (x : Sprite) (rest : List (SpriteHandle × Sprite)) :
          List.lookup k ((other, x) :: rest) = List.lookup k rest := by
        rw [List.lookup_cons, show (k == other) = false by simpa using first]
      rw [List.map_cons, passes]
      by_cases same : other = h
      · rw [if_pos same, passes, ih]
      · rw [if_neg same, passes, ih]

theorem repaints_updateSprite {change : Sprite → Sprite}
    (same : ∀ sprite, (change sprite).look = repaint sprite.look) (host : Host) (h : SpriteHandle) :
    host.Repaints h repaint (host.updateSprite h change) := by
  intro k
  have looks : Sprite.look ∘ change = repaint ∘ Sprite.look := funext same
  unfold look?
  rw [sprite?_updateSprite]
  split
  · rw [Option.map_map, Option.map_map, looks]
  · rfl

theorem repaints_moveSprite (host : Host) (h : SpriteHandle) (position : Pixel) :
    host.Repaints h ({ · with position }) (host.moveSprite h position) :=
  repaints_updateSprite (fun _ => rfl) host h

theorem repaints_showSprite (host : Host) (h : SpriteHandle) (visible : Bool) :
    host.Repaints h ({ · with visible }) (host.showSprite h visible) :=
  repaints_updateSprite (fun _ => rfl) host h

theorem repaints_setFrame (host : Host) (h : SpriteHandle) (frame : Nat) :
    host.Repaints h (fun look => { look with picture := (frame, look.picture.2) })
      (host.setFrame h frame) :=
  repaints_updateSprite (fun _ => rfl) host h

theorem repaints_faceSprite (host : Host) (h : SpriteHandle) (d : Direction) :
    host.Repaints h ({ · with picture := d.idlePicture }) (host.faceSprite h d) := by
  intro k
  have flips : (host.setFrame h d.idlePicture.1).Repaints h
      (fun look => { look with picture := (look.picture.1, d.idlePicture.2) })
      (host.faceSprite h d) := repaints_updateSprite (fun _ => rfl) _ h
  rw [flips k, host.repaints_setFrame h d.idlePicture.1 k]
  split
  · rw [Option.map_map]
    rfl
  · rfl

theorem look?_setBlending (host : Host) (h k : SpriteHandle) (blending : Bool) :
    (host.setBlending h blending).look? k = host.look? k := by
  have repaints : host.Repaints h id (host.setBlending h blending) :=
    repaints_updateSprite (fun _ => rfl) host h
  rw [repaints k, Option.map_id, id_eq, ite_self]

theorem Repaints.self (h : host.Repaints k repaint after) {look : Look}
    (is : host.look? k = some look) : after.look? k = some (repaint look) := by
  rw [h k, if_pos rfl, is, Option.map_some]

theorem Repaints.other {k' : SpriteHandle} (h : host.Repaints k repaint after) (ne : k' ≠ k) :
    after.look? k' = host.look? k' := by
  rw [h k', if_neg ne]

end Host

/-- Letting entities take part in fades repaints none of them. -/
theorem Stage.look?_setBlending (stage : Stage) (host : Host) (blending : Bool) (k : SpriteHandle) :
    (stage.setBlending host blending).look? k = host.look? k := by
  unfold setBlending
  generalize (stage.player.map (·.sprite)).toList ++ stage.actors.map (·.sprite) = entities
  induction entities generalizing host with
  | nil => rfl
  | cons h entities ih => exact (ih _).trans (host.look?_setBlending h k blending)

/-! ### Whose sprite is repainted -/

theorem Stage.mem_sprites_of_actor {stage : Stage} {actor : Actor} (mem : actor ∈ stage.actors) :
    actor.sprite ∈ stage.sprites :=
  List.mem_append_left _ (List.mem_append_left _ (List.mem_map_of_mem mem))

theorem Stage.mem_sprites_of_player {stage : Stage} {player : Player}
    (is : stage.player = some player) : player.sprite ∈ stage.sprites := by
  refine List.mem_append_right _ ?_
  rw [is]
  exact List.mem_singleton_self _

namespace Session.Held

variable {s : Session}

/-- No actor holds the sprite of the player. -/
theorem actor_ne_player (h : s.Held) {actor : Actor} (mem : actor ∈ s.stage.actors)
    {player : Player} (is : s.stage.player = some player) : actor.sprite ≠ player.sprite := by
  have apart := (List.nodup_append.mp h.nodup).2.2
  refine apart _ (List.mem_append_left _ (List.mem_map_of_mem mem)) _ ?_
  rw [is]
  exact List.mem_singleton_self _

/-- No actor holds the sprite of another one. -/
theorem index_eq (h : s.Held) {i j : Nat} {a b : Actor} (first : s.stage.actors[i]? = some a)
    (second : s.stage.actors[j]? = some b) (same : a.sprite = b.sprite) : i = j := by
  have nodup : (s.stage.actors.map (·.sprite)).Nodup :=
    (List.nodup_append.mp (List.nodup_append.mp h.nodup).1).1
  obtain ⟨inside, -⟩ := List.getElem?_eq_some_iff.mp first
  have sprites : (s.stage.actors.map (·.sprite))[i]? = (s.stage.actors.map (·.sprite))[j]? := by
    rw [List.getElem?_map, List.getElem?_map, first, second, Option.map_some, Option.map_some, same]
  exact (List.getElem?_inj (by simpa using inside) nodup).mp sprites

/-- Whatever is made on the host leaves the entities on the stage their looks. -/
theorem look?_createSprite_of_mem (h : s.Held) (sprite : Sprite) {k : SpriteHandle}
    (mem : k ∈ s.stage.sprites) : (s.host.createSprite sprite).2.look? k = s.host.look? k := by
  have old : k ≠ ⟨s.host.nextSprite⟩ := by
    rintro rfl
    exact Nat.lt_irrefl _ (h.below _ mem)
  have none : List.lookup k [((⟨s.host.nextSprite⟩ : SpriteHandle), sprite)] = none :=
    List.lookup_eq_none_iff.mpr (by simpa using old)
  unfold Host.look? Host.sprite? Host.createSprite
  dsimp only
  rw [List.lookup_append, none, Option.or_none]

/-- A new sprite looks as it was made. -/
theorem look?_createSprite (h : s.Held) (sprite : Sprite) :
    (s.host.createSprite sprite).2.look? (s.host.createSprite sprite).1 = some sprite.look := by
  have free : List.lookup (⟨s.host.nextSprite⟩ : SpriteHandle) s.host.sprites = none := by
    refine List.lookup_eq_none_iff.mpr fun entry mem => ?_
    have known := h.below entry.1 (h.perm.mem_iff.mp (List.mem_map_of_mem mem))
    rw [bne_iff_ne]
    rintro same
    rw [← same] at known
    exact Nat.lt_irrefl _ known
  unfold Host.look? Host.sprite? Host.createSprite
  dsimp only
  rw [List.lookup_append, free, Option.none_or, List.lookup_cons_self, Option.map_some]

end Session.Held

/-! ### What every act keeps presented -/

/-- A session in which the host shows the actors and the player as they are. A player that does not
walk stands still in its picture, if it was `poised` whenever it was stopped. -/
structure Presented (poised : Prop) (m : Mode) (s : Session) : Prop where
  held : s.Held
  actors : ∀ actor ∈ s.stage.actors, s.host.look? actor.sprite = some (actor.look s.stage.map)
  player : ∀ player, s.stage.player = some player →
    ∃ frame, s.host.look? player.sprite = some (player.look s.stage.map frame) ∧
      (poised → m.walking = false → frame = player.direction.idlePicture.1)

/-- Who is on the stage, and on which map. -/
def Stage.cast (stage : Stage) : Option TileMap × List Actor × Option Player :=
  (stage.map, stage.actors, stage.player)

namespace Presented

variable {game : Game} {poised : Prop} {m m' : Mode} {s t : Session}

/-- Where nothing is repainted, nobody changes. -/
theorem of_looks (h : Presented poised m s) (held : t.Held)
    (looks : ∀ k, t.host.look? k = s.host.look? k) (cast : t.stage.cast = s.stage.cast)
    (stands : m'.walking = false → m.walking = false) : Presented poised m' t := by
  simp only [Stage.cast, Prod.mk.injEq] at cast
  obtain ⟨map, actors, player⟩ := cast
  refine ⟨held, ?_, ?_⟩
  · rw [actors, map]
    intro actor mem
    rw [looks]
    exact h.actors actor mem
  · rw [player, map]
    intro player is
    obtain ⟨frame, look, idle⟩ := h.player player is
    exact ⟨frame, (looks _).trans look, fun poise still => idle poise (stands still)⟩

/-- An actor changes, and its sprite is repainted. -/
theorem withActor (h : Presented poised m s) {index : Nat} (change : Actor → Host → Actor × Host)
    (held : (s.withActor index change).Held) (repaint : Look → Look)
    (sprite : ∀ actor host, (change actor host).1.sprite = actor.sprite)
    (repaints : ∀ actor (host : Host), host.Repaints actor.sprite repaint (change actor host).2)
    (look : ∀ actor host map, (change actor host).1.look map = repaint (actor.look map)) :
    Presented poised m (s.withActor index change) := by
  cases found : s.stage.actors[index]? with
  | none =>
    have looks (k : SpriteHandle) : (s.withActor index change).host.look? k = s.host.look? k := by
      simp [Session.withActor, Host.look?, Host.sprite?, found]
    exact h.of_looks held looks (by simp [Session.withActor, Stage.cast, Stage.map, found]) id
  | some actor =>
    have paints : s.host.Repaints actor.sprite repaint (s.withActor index change).host := by
      intro k
      rw [← repaints actor s.host k]
      simp only [Session.withActor, found, Option.elim_some]
      rfl
    have actors : (s.withActor index change).stage.actors =
        s.stage.actors.set index (change actor s.host).1 := by
      simp only [Session.withActor, found, Option.elim_some]
    have mem : actor ∈ s.stage.actors := List.mem_of_getElem? found
    refine ⟨held, fun other there => ?_, fun player is => ?_⟩
    · -- At the index is the actor that changed; each other one has a sprite of its own.
      rw [actors] at there
      obtain ⟨i, there⟩ := List.mem_iff_getElem?.mp there
      rw [List.getElem?_set] at there
      split at there
      · have new : other = (change actor s.host).1 := by
          split at there
          · exact (Option.some.inj there).symm
          · cases there
        rw [new, sprite, look]
        exact paints.self (h.actors actor mem)
      · rename_i apart
        have differs : other.sprite ≠ actor.sprite :=
          fun same => apart (h.held.index_eq found there same.symm)
        rw [paints.other differs]
        exact h.actors other (List.mem_of_getElem? there)
    · obtain ⟨frame, look, idle⟩ := h.player player is
      exact ⟨frame, (paints.other (h.held.actor_ne_player mem is).symm).trans look, idle⟩

/-- The player changes, and its sprite is repainted. -/
theorem repaintPlayer (h : Presented poised m s) (held : t.Held) {player player' : Player}
    (is : s.stage.player = some player)
    (becomes : t.stage.cast = (s.stage.map, s.stage.actors, some player'))
    (sprite : player'.sprite = player.sprite) {repaint : Look → Look}
    (repaints : s.host.Repaints player.sprite repaint t.host)
    (look : ∀ frame, ∃ frame', repaint (player.look s.stage.map frame) =
      player'.look s.stage.map frame' ∧
        (m'.walking = false → frame' = player'.direction.idlePicture.1)) :
    Presented poised m' t := by
  simp only [Stage.cast, Prod.mk.injEq] at becomes
  obtain ⟨map, actors, same⟩ := becomes
  refine ⟨held, ?_, ?_⟩
  · rw [actors, map]
    intro actor mem
    rw [repaints.other (h.held.actor_ne_player mem is)]
    exact h.actors actor mem
  · rw [same, map]
    rintro _ ⟨⟩
    obtain ⟨frame, before, -⟩ := h.player player is
    obtain ⟨frame', after, idle⟩ := look frame
    refine ⟨frame', ?_, fun _ => idle⟩
    rw [sprite, repaints.self before, after]

/-- The player changes, and its sprite is repainted as it. -/
theorem withPlayer (h : Presented poised m s) (change : Player → Host → Player × Host)
    (held : (s.withPlayer change).Held) (repaint : Player → Look → Look)
    (sprite : ∀ player host, (change player host).1.sprite = player.sprite)
    (repaints : ∀ player (host : Host),
      host.Repaints player.sprite (repaint player) (change player host).2)
    (look : ∀ player host frame, ∃ frame', repaint player (player.look s.stage.map frame) =
      (change player host).1.look s.stage.map frame' ∧
        (m'.walking = false → frame' = (change player host).1.direction.idlePicture.1)) :
    Presented poised m' (s.withPlayer change) := by
  cases is : s.stage.player with
  | none =>
    refine ⟨held, ?_, ?_⟩
    · simpa [Session.withPlayer, Host.look?, Host.sprite?, Stage.map, is] using h.actors
    · simp [Session.withPlayer, is]
  | some player =>
    have paints : s.host.Repaints player.sprite (repaint player) (s.withPlayer change).host := by
      intro k
      rw [← repaints player s.host k]
      simp only [Session.withPlayer, is, Option.elim_some]
      rfl
    refine h.repaintPlayer held is ?_ (sprite player s.host) paints (look player s.host)
    simp [Session.withPlayer, Stage.cast, Stage.map, is]

theorem deed (h : Presented poised m s) {d : Deed} (plain : d.Plain) :
    Presented poised m (d.apply s) := by
  have held : (d.apply s).Held := h.held.of_roster_eq (d.roster_apply s)
  cases d with
  | present change =>
    cases change with
    | alpha strength => exact h.of_looks held (fun _ => rfl) rfl id
    | playSound sound => exact h.of_looks held (fun _ => rfl) rfl id
    | _ => exact plain.elim
  | blend blending =>
    exact h.of_looks held (s.stage.look?_setBlending s.host blending) rfl id
  | showActor index visible =>
    exact h.withActor (fun actor host => actor.setVisible host visible) held _
      (fun _ _ => rfl) (fun actor host => host.repaints_showSprite actor.sprite visible)
      fun _ _ _ => rfl
  | turnActor index d =>
    exact h.withActor (fun actor host => actor.face host d) held _
      (fun _ _ => rfl) (fun actor host => host.repaints_faceSprite actor.sprite d)
      fun _ _ _ => rfl
  | background b => exact plain.elim
  | showBackground => exact plain.elim
  | camera p => exact plain.elim
  | turn d => exact plain.elim
  | place map p => exact plain.elim
  | _ => exact h.of_looks held (fun _ => rfl) rfl id

/-- Whoever comes onto the stage is shown as they come, and the others as they are. -/
theorem arrive (h : Presented poised m s) {a : Arrival} (allowed : a.Allowed s) (fits : a.Fits s) :
    Presented poised m (a.apply game s) := by
  have held : (a.apply game s).Held := h.held.arrival a allowed
  have actors (sprite : Sprite) : ∀ actor ∈ s.stage.actors,
      (s.host.createSprite sprite).2.look? actor.sprite = some (actor.look s.stage.map) := by
    intro actor mem
    rw [h.held.look?_createSprite_of_mem sprite (Stage.mem_sprites_of_actor mem)]
    exact h.actors actor mem
  have player (sprite : Sprite) : ∀ player, s.stage.player = some player → ∃ frame,
      (s.host.createSprite sprite).2.look? player.sprite =
        some (player.look s.stage.map frame) ∧
      (poised → m.walking = false → frame = player.direction.idlePicture.1) := by
    intro player is
    rw [h.held.look?_createSprite_of_mem sprite (Stage.mem_sprites_of_player is)]
    exact h.player player is
  cases a with
  | player map sheet tile d z =>
    refine ⟨held, actors _, ?_⟩
    rintro _ ⟨⟩
    refine ⟨d.idlePicture.1, (h.held.look?_createSprite _).trans ?_, fun _ _ => rfl⟩
    change some _ = some (Player.look _ s.stage.map _)
    rw [show s.stage.map = some map from fits]
    rfl
  | prop map definition tile z => exact ⟨held, actors _, player _⟩
  | actor map definition tile z =>
    refine ⟨held, fun actor mem => ?_, player _⟩
    rcases List.mem_append.mp mem with old | new
    · exact actors _ actor old
    · rw [List.mem_singleton.mp new]
      refine (h.held.look?_createSprite _).trans ?_
      rw [show map = s.stage.map from fits]
      rfl
  | ready => exact h.of_looks held (fun _ => rfl) rfl id
  | forget => exact h.of_looks held (fun _ => rfl) rfl id

/-- Every act repaints what it changes. -/
theorem act (act : Act game (m, s) (m', t)) (h : Presented poised m s) : Presented poised m' t := by
  have held : t.Held := act.course.keeps (fun _ _ m held => held.move m) h.held
  cases act with
  | deed d plain allowed => exact h.deed plain
  | arrive a opens allowed fits => exact h.arrive allowed fits
  | turn d =>
    exact h.withPlayer (fun player host => player.face host d) held _
      (fun _ _ => rfl) (fun player host => host.repaints_faceSprite player.sprite d)
      fun _ _ _ => ⟨d.idlePicture.1, rfl, fun _ => rfl⟩
  | walk => exact h.of_looks held (fun _ => rfl) rfl nofun
  | @picture x _ player is frame =>
    -- The picture is one of the walk, and the turn that ends the walk puts the idle one back.
    refine h.repaintPlayer held is ?_ rfl (s.host.repaints_setFrame player.sprite frame)
      fun _ => ⟨frame, rfl, nofun⟩
    exact congrArg (fun p => (s.stage.map, s.stage.actors, p)) is
  | @stride _ map onMap free position =>
    have placed : Presented poised ⟨.nothing, true⟩ ((Deed.place map position).apply s) := by
      refine h.withPlayer (fun player host => player.place host map position)
        (h.held.of_roster_eq ((Deed.place map position).roster_apply s)) _ (fun _ _ => rfl)
        (fun player host => host.repaints_moveSprite player.sprite _) fun player _ frame => ?_
      refine ⟨frame, ?_, nofun⟩
      rw [onMap]
      rfl
    exact placed.of_looks held (fun _ => rfl) rfl id
  | _ => exact h.of_looks held (fun _ => rfl) rfl id

/-- Nobody is on the stage of a scene that is opened. -/
theorem opened (h : Presented poised .still s) (game : Game) (name : String) :
    Presented poised .opening (s.opened game name) := by
  have bare : (s.opened game name).stage = .bare (game.graph.scene name) := rfl
  refine ⟨(h.held.entering game name).of_roster_eq (Deed.showBackground.roster_apply _), ?_, ?_⟩
  · rw [bare]
    exact fun actor mem => absurd mem List.not_mem_nil
  · rw [bare]
    exact fun player is => nomatch is

end Presented

/-- Whatever happens, everybody is shown as they are, but for the picture of a player whose walk was
broken off. -/
theorem upheld_presented (game : Game) : Upheld game (Presented False) where
  act := Presented.act
  resume _ h := by
    refine ⟨h.held, h.actors, fun player is => ?_⟩
    obtain ⟨frame, look, -⟩ := h.player player is
    exact ⟨frame, look, False.elim⟩

/-- What comes to its end leaves the player standing still in its picture. -/
theorem presented_of_comes {game : Game} {α : Type} {m : Mode} {s : Session}
    {r : EStateM.Result Halt Session α} (h : Play.Comes game (m, s) .still r)
    (presented : Presented True m s) (done : Play.Done r) : Presented True .still (Play.final r) := by
  cases h with
  | ok x acts => exact acts.keeps Presented.act presented
  | error acts leaves => exact done.elim

/-! ### The background -/

/-- A session in which a scene was entered. -/
def Session.Entered (s : Session) : Prop := ∃ name, Entry.sceneName? s.journal = some name

/-- A session in which the host shows the background of the stage, if a scene was entered. -/
def Session.Clad (s : Session) : Prop := s.Entered → s.host.background = some s.stage.background

/-- Wherever the background changes, it is shown as well. -/
theorem upheld_clad (game : Game) : Upheld game fun _ s => s.Clad where
  resume _ clad := clad
  act {m m' s t} act clad := by
    cases act with
    | deed d plain allowed =>
      have kept := d.undisturbed plain s
      unfold Session.Clad Session.Entered
      rw [kept.scene, kept.backdrop, kept.background]
      exact clad
    | arrive a opens allowed fits => cases a <;> exact clad
    | veil visible => exact fun _ => rfl
    | unveil fades visible => exact fun _ => rfl
    | hide => exact fun _ => rfl
    | _ => exact clad

/-- What was entered remains so. -/
theorem Course.entered {game : Game} {s t : Session} (course : Course game s t) (h : s.Entered) :
    t.Entered := by
  refine course.keeps ?_ h
  intro u v move entered
  cases move with
  | stay step =>
    cases step with
    | deed d allowed => cases d <;> exact entered
    | frame goes => exact entered
  | arrive a allowed => cases a <;> exact entered
  | enter name => exact ⟨name, rfl⟩

theorem upheld_entered (game : Game) : Upheld game fun _ s => s.Entered where
  act act := act.course.entered
  resume _ entered := entered

/-- A scene was entered if one was asked for. -/
theorem entered_after {game : Game} {s : Session} {calls : List Call} {name : String}
    (mem : .enter name ∈ calls) : (s.after game calls).Entered := by
  obtain ⟨before, later, rfl⟩ := List.append_of_mem mem
  have asked : (Play.final (Play.enterScene game name (s.after game before))).Entered :=
    (upheld_entered game).final (Play.comes_of_enterScene game name _) ⟨name, rfl⟩
  rw [Session.after_append]
  exact (Session.course_after game _ later).entered asked

/-! ### The law of appearance -/

/-- How the host shows what is on the stage after calls. -/
structure Session.Presents (game : Game) (s : Session) (calls : List Call) : Prop where
  /-- An actor is seen unless it is hidden, in the picture of its direction, on its tile. -/
  actors : ∀ actor ∈ (s.after game calls).stage.actors,
    (s.after game calls).host.look? actor.sprite =
      some (actor.look (s.after game calls).stage.map)
  /-- The player is seen, flipped as in its direction, at its position. -/
  player {player : Player} (is : (s.after game calls).stage.player = some player) :
    ∃ frame, (s.after game calls).host.look? player.sprite =
      some (player.look (s.after game calls).stage.map frame)
  /-- Unless a call was stopped, it stands still in its picture. -/
  idle {player : Player} (is : (s.after game calls).stage.player = some player)
    (single : ∀ call ∈ calls, call ≠ .run) (succeeds : s.Succeeds game calls) :
    (s.after game calls).host.look? player.sprite =
      some (player.look (s.after game calls).stage.map player.direction.idlePicture.1)
  /-- When a scene was entered, the background is that of the stage. -/
  background (entered : (s.after game calls).Entered) :
    (s.after game calls).host.background = some (s.after game calls).stage.background
  /-- This holds in particular if one was asked for. -/
  entered {name : String} (mem : .enter name ∈ calls) : (s.after game calls).Entered

/-- **The host shows what is there.** Whatever is asked of a game from its start on, and whatever
comes of it, the sprites of the actors and of the player look as those are, and the background is
that of the stage; and as long as all calls come to their end, the player stands still. -/
theorem presents_session {game : Game} {input : InputScript} {budget : Option Nat} {stops : Bool}
    {s : Session} (start : game.session (.fresh input budget stops) = .ok s) (calls : List Call) :
    s.Presents game calls := by
  have fresh (poised : Prop) : Presented poised .still s := by
    have held := held_session start rfl
    obtain ⟨vars, -, rfl⟩ := Game.session_eq_ok_iff.mp start
    exact ⟨held, fun _ mem => absurd mem List.not_mem_nil, fun _ is => nomatch is⟩
  have clad : s.Clad := by
    obtain ⟨vars, -, rfl⟩ := Game.session_eq_ok_iff.mp start
    rintro ⟨name, entered⟩
    exact nomatch entered
  have presented := (upheld_presented game).after (fun _ name h => h.opened game name) (fresh False)
    calls
  constructor
  case actors => exact presented.actors
  case player =>
    intro player is
    obtain ⟨frame, look, -⟩ := presented.player player is
    exact ⟨frame, look⟩
  case idle =>
    intro player is single succeeds
    have poised := s.holds_after presented_of_comes (fun _ name h => h.opened game name) (fresh True)
      single succeeds
    obtain ⟨frame, look, idle⟩ := poised.player player is
    rw [← idle trivial rfl]
    exact look
  case background => exact (upheld_clad game).after (fun _ _ _ _ => rfl) clad calls
  case entered => exact entered_after

/-- In the yard of the sample the player makes a step and stands still, or is stopped on its way in a
picture of the walk. -/
theorem presents_session_sample :
    ∃ s t, Game.sample.session (.fresh (InputScript.empty.hold [.right] 9) (some 9) false) = .ok s ∧
      Game.sample.session (.fresh (InputScript.empty.hold [.right] 9) (some 1) false) = .ok t ∧
      (s.Presents Game.sample [.enter "yard", .frame] ∧
        s.Succeeds Game.sample [.enter "yard", .frame] ∧
        (s.after Game.sample [.enter "yard", .frame]).host.look? ⟨0⟩ =
          some ⟨true, (2, false), ⟨9, 7⟩⟩) ∧
      t.Presents Game.sample [.enter "yard", .frame] ∧
        (t.after Game.sample [.enter "yard", .frame]).host.look? ⟨0⟩ =
          some ⟨true, (8, false), ⟨9, 7⟩⟩ :=
  ⟨_, _, rfl, rfl, ⟨presents_session rfl _, by decide +kernel, by decide +kernel⟩,
    presents_session rfl _, by decide +kernel⟩

end Overworld
