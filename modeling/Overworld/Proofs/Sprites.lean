import Overworld.Proofs.Calls

/-!
Every sprite that the host shows belongs to exactly one entity on the stage.

Deeds and frames change neither the sprites of the host nor who holds them; an arrival makes a sprite
together with its holder, and entering a scene takes away all of both. So no sprite is left over by a
change of scene or an entry that failed, and no entity holds one that is gone or that is another's.
-/

namespace Overworld

/-! ### The handles of the host -/

namespace Host

theorem handles_updateSprite (host : Host) (h : SpriteHandle) (change : Sprite → Sprite) :
    (host.updateSprite h change).handles = host.handles := by
  unfold handles updateSprite
  rw [List.map_map]
  apply List.map_congr_left
  intro entry _
  simp only [Function.comp_apply]
  split <;> rfl

theorem handles_destroySprite (host : Host) (h : SpriteHandle) :
    (host.destroySprite h).handles = host.handles.filter (· != h) := by
  unfold handles destroySprite
  rw [List.filter_map]
  rfl

/-- Of the sprites that are taken away none is left, and of the others all are. -/
theorem handles_foldl_destroySprite (host : Host) (gone : List SpriteHandle) :
    (gone.foldl destroySprite host).handles = host.handles.filter fun h => decide (h ∉ gone) := by
  induction gone generalizing host with
  | nil => exact (List.filter_eq_self.mpr fun h _ => by simp).symm
  | cons h gone ih =>
    rw [List.foldl_cons, ih, handles_destroySprite, List.filter_filter]
    apply List.filter_congr
    intro x _
    by_cases same : x = h <;> simp [same]

end Host

theorem Stage.handles_setBlending (stage : Stage) (host : Host) (blending : Bool) :
    (stage.setBlending host blending).handles = host.handles := by
  unfold setBlending
  generalize (stage.player.map (·.sprite)).toList ++ stage.actors.map (·.sprite) = entities
  induction entities generalizing host with
  | nil => rfl
  | cons h entities ih => exact (ih _).trans (host.handles_updateSprite h _)

/-! ### What deeds leave to whom -/

/-- The sprites of the host, those of the stage, and the next one to be made. -/
def Session.roster (s : Session) : List SpriteHandle × List SpriteHandle × Nat :=
  (s.host.handles, s.stage.sprites, s.host.nextSprite)

/-- A player that keeps its sprite keeps the roster. -/
theorem Session.roster_withPlayer (s : Session) {change : Player → Host → Player × Host}
    (sprite : ∀ player host, (change player host).1.sprite = player.sprite)
    (handles : ∀ player host, (change player host).2.handles = host.handles) :
    (s.withPlayer change).roster = s.roster := by
  unfold Host.handles at handles
  cases is : s.stage.player with
  | none => simp [withPlayer, roster, Stage.sprites, Host.handles, is]
  | some player => simp [withPlayer, roster, Stage.sprites, Host.handles, is, sprite, handles]

/-- An actor that keeps its sprite keeps the roster. -/
theorem Session.roster_withActor (s : Session) (index : Nat) {change : Actor → Host → Actor × Host}
    (sprite : ∀ actor host, (change actor host).1.sprite = actor.sprite)
    (handles : ∀ actor host, (change actor host).2.handles = host.handles) :
    (s.withActor index change).roster = s.roster := by
  unfold Host.handles at handles
  cases found : s.stage.actors[index]? with
  | none => simp [withActor, roster, Stage.sprites, Host.handles, found]
  | some actor =>
    obtain ⟨inside, is⟩ := List.getElem?_eq_some_iff.mp found
    have same : (s.stage.actors.map (·.sprite)).set index actor.sprite =
        s.stage.actors.map (·.sprite) := by
      rw [← List.map_set, ← is, List.set_getElem_self]
    simp [withActor, roster, Stage.sprites, Host.handles, found, List.map_set, sprite, handles, same]

theorem Host.handles_faceSprite (host : Host) (h : SpriteHandle) (d : Direction) :
    (host.faceSprite h d).handles = host.handles :=
  ((host.setFrame h d.idlePicture.1).handles_updateSprite h _).trans (host.handles_updateSprite h _)

/-- No deed makes a sprite, takes one away or gives it to another. -/
theorem Deed.roster_apply (s : Session) (d : Deed) : (d.apply s).roster = s.roster := by
  cases d with
  | present change =>
    cases change with
    | picture sprite frame =>
      have handles := s.host.handles_updateSprite sprite fun s => { s with frame := frame }
      exact congrArg (·, s.stage.sprites, s.host.nextSprite) handles
    | _ => rfl
  | blend blending =>
    have handles := s.stage.handles_setBlending s.host blending
    exact congrArg (·, s.stage.sprites, s.host.nextSprite) handles
  | showActor index visible =>
    exact s.roster_withActor index (fun _ _ => rfl) fun _ host => host.handles_updateSprite _ _
  | turnActor index d =>
    exact s.roster_withActor index (fun _ _ => rfl) fun _ host => host.handles_faceSprite _ _
  | turn d => exact s.roster_withPlayer (fun _ _ => rfl) fun _ host => host.handles_faceSprite _ _
  | place map position =>
    exact s.roster_withPlayer (fun _ _ => rfl) fun _ host => host.handles_updateSprite _ _
  | _ => rfl

/-! ### Who holds which sprite -/

/-- Each sprite of the host is held by one entity on the stage, and there are no others. -/
structure Session.Held (s : Session) : Prop where
  perm : s.host.handles.Perm s.stage.sprites
  nodup : s.stage.sprites.Nodup
  /-- The next sprite to be made is a new one. -/
  below : ∀ h ∈ s.stage.sprites, h.number < s.host.nextSprite

namespace Session.Held

variable {s t : Session}

theorem of_roster_eq (h : s.Held) (same : t.roster = s.roster) : t.Held := by
  simp only [roster, Prod.mk.injEq] at same
  obtain ⟨handles, sprites, next⟩ := same
  constructor
  · rw [handles, sprites]
    exact h.perm
  · rw [sprites]
    exact h.nodup
  · rw [sprites, next]
    exact h.below

/-- Entering a scene takes all sprites away. -/
theorem entering (h : s.Held) (game : Game) (name : String) : (s.entering game name).Held := by
  have none : (s.stage.sprites.foldl Host.destroySprite s.host).handles = [] := by
    rw [Host.handles_foldl_destroySprite, List.filter_eq_nil_iff]
    intro handle live
    simp [h.perm.mem_iff.mp live]
  exact ⟨List.Perm.of_eq none, List.nodup_nil, nofun⟩

/-- A new sprite and a holder that takes it keep everything held. -/
theorem create (h : s.Held) (sprite : Sprite)
    (host : t.host = (s.host.createSprite sprite).2)
    (holder : t.stage.sprites.Perm (s.stage.sprites ++ [⟨s.host.nextSprite⟩])) : t.Held := by
  have handles : t.host.handles = s.host.handles ++ [⟨s.host.nextSprite⟩] := by
    simp [host, Host.createSprite, Host.handles]
  have next : t.host.nextSprite = s.host.nextSprite + 1 := by rw [host]; rfl
  have new : ∀ h ∈ s.stage.sprites, h ≠ ⟨s.host.nextSprite⟩ := by
    rintro _ mem rfl
    exact Nat.lt_irrefl _ (h.below _ mem)
  constructor
  · rw [handles]
    exact (h.perm.append_right _).trans holder.symm
  · rw [holder.nodup_iff, List.nodup_append]
    exact ⟨h.nodup, by simp, by simpa using new⟩
  · intro handle mem
    rw [next]
    rcases List.mem_append.mp (holder.mem_iff.mp mem) with old | last
    · exact Nat.lt_succ_of_lt (h.below handle old)
    · rw [List.mem_singleton.mp last]
      exact Nat.lt_succ_self _

theorem arrival {game : Game} (h : s.Held) (a : Arrival) (allowed : a.Allowed s) :
    (a.apply game s).Held := by
  cases a with
  | player map sheet tile d z =>
    refine h.create _ rfl ?_
    simp only [Arrival.apply, Stage.sprites, allowed.1, Option.map_none, Option.toList_none,
      List.append_nil, Option.map_some, Option.toList_some]
    exact .refl _
  | prop map definition tile z =>
    refine h.create _ rfl ?_
    simp only [Arrival.apply, Stage.sprites, List.append_assoc]
    exact (List.perm_append_comm.append_left _).append_left _
  | actor map definition tile z =>
    refine h.create _ rfl ?_
    simp only [Arrival.apply, Stage.sprites, List.map_append, List.append_assoc]
    refine List.Perm.append_left _ ?_
    rw [← List.append_assoc s.stage.props]
    exact List.perm_append_comm
  | ready => exact ⟨h.perm, h.nodup, h.below⟩
  | forget => exact ⟨h.perm, h.nodup, h.below⟩

/-- Whatever changes, each sprite is held by one entity. -/
theorem move {game : Game} (h : s.Held) (m : Move game s t) : t.Held := by
  cases m with
  | stay m =>
    cases m with
    | deed d allowed => exact h.of_roster_eq (d.roster_apply s)
    | frame goes => exact h.of_roster_eq rfl
  | arrive a allowed => exact h.arrival a allowed
  | enter name => exact h.entering game name

end Session.Held

/-- Before the first scene is entered there are no sprites at all. -/
theorem held_session {game : Game} {host : Host} {s : Session} (start : game.session host = .ok s)
    (none : host.sprites = []) : s.Held := by
  obtain ⟨vars, -, rfl⟩ := Game.session_eq_ok_iff.mp start
  refine ⟨?_, List.nodup_nil, nofun⟩
  simp [Session.start, Host.handles, none, Stage.sprites, Stage.bare]

/-- Whatever is asked of a game, each sprite is held by one entity. -/
theorem held_after {game : Game} {host : Host} {s : Session} (start : game.session host = .ok s)
    (none : host.sprites = []) (calls : List Call) : (s.after game calls).Held :=
  (s.course_after game calls).keeps (fun _ _ m h => h.move m) (held_session start none)

/-- **Sprites are neither lost nor shared.** Whatever is asked of a game from its start on, and
whatever comes of it, the sprites of the host are those of the player, the actors and the props on
the stage, each of which has one of its own. -/
theorem live_sprites_perm {game : Game} {input : InputScript} {budget : Option Nat} {stops : Bool}
    {s : Session} (start : game.session (.fresh input budget stops) = .ok s) (calls : List Call) :
    (s.after game calls).host.handles.Perm (s.after game calls).stage.sprites ∧
      (s.after game calls).stage.sprites.Nodup := by
  have held : (s.after game calls).Held :=
    (s.course_after game calls).keeps (fun _ _ m h => h.move m) (held_session start rfl)
  exact ⟨held.perm, held.nodup⟩

/-- In the sample the yard is entered twice, with a visit to the hall that the host cuts short. -/
theorem live_sprites_perm_sample :
    ∃ s, Game.sample.session (.fresh (InputScript.empty.hold [.right] 9) (some 3) false) = .ok s ∧
      let t := s.after Game.sample [.enter "yard", .scene, .enter "hall", .frame, .enter "yard"]
      t.host.handles.Perm t.stage.sprites ∧ t.stage.sprites.Nodup :=
  ⟨_, rfl, live_sprites_perm rfl _⟩

end Overworld
