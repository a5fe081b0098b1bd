import Overworld.Proofs.Handlers
import Overworld.Proofs.Sprites
import Overworld.Proofs.Starts

/-!
Entering a scene forgets the last one.

What was shown, played, run and reported is only ever added to, and sprites are only known by their
handles. So a session can be put upon another past, by which its logs are preceded and its sprites
are counted on from (`Session.upon`), and whatever comes onto the stage or is run by events goes
there as it did before (`Play.Commutes`). A scene is entered on a bare stage and aims the camera
before anything is run; so to enter it is to enter it in a session without a past, and to put that
upon the past of this one.
-/

namespace Overworld

open Simulation

/-! ### Sprites by other names -/

/-- The handle that is given out where some sprites were made before. -/
def SpriteHandle.shift (made : Nat) (h : SpriteHandle) : SpriteHandle := ⟨made + h.number⟩

@[simp] theorem SpriteHandle.shift_inj {made : Nat} {h k : SpriteHandle} :
    h.shift made = k.shift made ↔ h = k := by
  cases h
  cases k
  simp [shift]

section Renaming

variable (rename : SpriteHandle → SpriteHandle)

def Actor.renamed (a : Actor) : Actor := { a with sprite := rename a.sprite }

def Player.renamed (p : Player) : Player := { p with sprite := rename p.sprite }

/-- The stage with its sprites by other names. -/
def Stage.renamed (stage : Stage) : Stage :=
  { stage with
    actors := stage.actors.map (·.renamed rename)
    props := stage.props.map rename
    player := stage.player.map (·.renamed rename) }

def Entry.renamed : Entry → Entry
  | scene name => scene name
  | event d => event { d with stage := d.stage.renamed rename }

@[simp] theorem Stage.sprites_renamed (stage : Stage) :
    (stage.renamed rename).sprites = stage.sprites.map rename := by
  cases is : stage.player <;>
    simp [sprites, renamed, is, Function.comp_def, Actor.renamed, Player.renamed]

theorem Stage.renamed_renamed (rename' : SpriteHandle → SpriteHandle) (stage : Stage) :
    (stage.renamed rename).renamed rename' = stage.renamed (rename' ∘ rename) := by
  simp [renamed, Function.comp_def, Actor.renamed, Player.renamed]

end Renaming

/-! ### Sessions upon another past -/

/-- What a session only adds to: the sprites that were made, what was shown, played, run and
reported. -/
structure Past where
  made : Nat
  frames : List FrameRecord
  dialogs : Array String
  musicStarted : Array String
  sounds : Array Sound
  entered : Nat
  notices : Array Notice
  journal : List Entry

/-- The host where all that was before its first sprite, frame and sound. -/
def Host.upon (host : Host) (past : Past) : Host :=
  { host with
    nextSprite := past.made + host.nextSprite
    sprites := host.sprites.map (Prod.map (.shift past.made) id)
    past := host.past ++ past.frames
    dialogs := past.dialogs ++ host.dialogs
    musicStarted := past.musicStarted ++ host.musicStarted
    sounds := past.sounds ++ host.sounds }

/-- The session where all that was before it. -/
def Session.upon (past : Past) (s : Session) : Session :=
  { s with
    host := s.host.upon past
    stage := s.stage.renamed (.shift past.made)
    entered := past.entered + s.entered
    notices := past.notices ++ s.notices
    journal := s.journal.map (.renamed (.shift past.made)) ++ past.journal }

namespace Host

variable (past : Past) (host : Host)

theorem createSprite_upon (sprite : Sprite) :
    (host.upon past).createSprite sprite =
      ((host.createSprite sprite).1.shift past.made, (host.createSprite sprite).2.upon past) := by
  simp [createSprite, upon, SpriteHandle.shift, Nat.add_assoc]

theorem updateSprite_upon (h : SpriteHandle) (change : Sprite → Sprite) :
    (host.upon past).updateSprite (h.shift past.made) change =
      (host.updateSprite h change).upon past := by
  have entries : (fun entry : SpriteHandle × Sprite =>
        if entry.1 = h.shift past.made then (entry.1, change entry.2) else entry) ∘
          Prod.map (.shift past.made) id =
      Prod.map (.shift past.made) id ∘ fun entry =>
        if entry.1 = h then (entry.1, change entry.2) else entry := by
    funext entry
    simp only [Function.comp_apply, Prod.map_fst, SpriteHandle.shift_inj]
    split <;> rfl
  simp only [updateSprite, upon, List.map_map, entries]

end Host

theorem Stage.setBlending_upon (past : Past) (stage : Stage) (host : Host) (blending : Bool) :
    (stage.renamed (.shift past.made)).setBlending (host.upon past) blending =
      (stage.setBlending host blending).upon past := by
  have handles : ((stage.renamed (.shift past.made)).player.map (·.sprite)).toList ++
        (stage.renamed (.shift past.made)).actors.map (·.sprite) =
      ((stage.player.map (·.sprite)).toList ++ stage.actors.map (·.sprite)).map
        (.shift past.made) := by
    cases is : stage.player <;>
      simp [renamed, is, Function.comp_def, Actor.renamed, Player.renamed]
  unfold setBlending
  rw [handles]
  generalize (stage.player.map (·.sprite)).toList ++ stage.actors.map (·.sprite) = sprites
  induction sprites generalizing host with
  | nil => rfl
  | cons h sprites ih =>
    have first : (host.upon past).setBlending (h.shift past.made) blending =
        (host.setBlending h blending).upon past := host.updateSprite_upon past h _
    rw [List.map_cons, List.foldl_cons, List.foldl_cons, first, ih]

namespace Session

variable (past : Past) (s : Session)

/-- What events can see is the same upon every past. -/
theorem sight_upon : (s.upon past).sight = s.sight := by
  simp [sight, upon, Host.upon, Stage.renamed, Function.comp_def, Actor.renamed]

theorem withActor_upon (index : Nat) (change : Actor → Host → Actor × Host)
    (goes : ∀ actor host, change (actor.renamed (.shift past.made)) (host.upon past) =
      ((change actor host).1.renamed (.shift past.made), (change actor host).2.upon past)) :
    (s.upon past).withActor index change = (s.withActor index change).upon past := by
  cases found : s.stage.actors[index]? with
  | none => simp [withActor, upon, Host.upon, Stage.renamed, found]
  | some actor =>
    have there := goes actor s.host
    simp [withActor, upon, Stage.renamed, found, there, List.map_set]
    rfl

end Session

/-- The deeds of events go upon every past as they are. -/
theorem Deed.apply_upon {d : Deed} (ordinary : d.Ordinary) (past : Past) (s : Session) :
    d.apply (s.upon past) = (d.apply s).upon past := by
  cases d with
  | note notice => simp [apply, Session.upon, Array.push_append]
  | present change =>
    cases change with
    | picture sprite frame => exact ordinary.elim
    | openDialog text =>
      simp [apply, Presentation.apply, Host.openDialog, Session.upon, Host.upon, Array.push_append]
    | playMusic music =>
      simp [apply, Presentation.apply, Host.playMusic, Session.upon, Host.upon, Array.push_append]
    | playSound sound =>
      simp [apply, Presentation.apply, Host.playSound, Session.upon, Host.upon, Array.push_append]
    | _ => rfl
  | background b => rfl
  | showBackground => rfl
  | blend blending =>
    have blends := s.stage.setBlending_upon past s.host blending
    simp only [apply, Session.upon, blends]
    rfl
  | camera position => rfl
  | showActor index visible =>
    have goes (actor : Actor) (host : Host) :
        (actor.renamed (.shift past.made)).setVisible (host.upon past) visible =
          ((actor.setVisible host visible).1.renamed (.shift past.made),
            (actor.setVisible host visible).2.upon past) :=
      congrArg (Prod.mk _) (host.updateSprite_upon past actor.sprite _)
    exact s.withActor_upon past index (fun actor host => actor.setVisible host visible) goes
  | _ => exact ordinary.elim

/-- Arrivals go upon every past as they are. -/
theorem Arrival.apply_upon (game : Game) (past : Past) (s : Session) (a : Arrival) :
    a.apply game (s.upon past) = (a.apply game s).upon past := by
  cases a with
  | player map sheet tile d z =>
    simp only [apply, Player.enter, Session.upon, Host.createSprite_upon]
    rfl
  | prop map definition tile z =>
    simp only [apply, PropDef.enter, Session.upon, Host.createSprite_upon]
    simp [Stage.renamed]
  | actor map definition tile z =>
    simp only [apply, Actor.enter, Session.upon, Host.createSprite_upon]
    simp [Stage.renamed]
    rfl
  | ready => rfl
  | forget => rfl

/-! ### Actions that commute with a change of the session -/

/-- What an action returns, with its session changed. -/
def Play.moved {α : Type} (change : Session → Session) :
    EStateM.Result Halt Session α → EStateM.Result Halt Session α
  | .ok a s => .ok a (change s)
  | .error e s => .error e (change s)

/-- An action that does the same in a session that is changed before as in one that is changed
afterwards. -/
structure Play.Commutes (change : Session → Session) {α : Type} (act : Play α) : Prop where
  moves (s : Session) : act (change s) = Play.moved change (act s)

namespace Play.Commutes

variable {change : Session → Session} {α β : Type}

theorem pure (a : α) : Commutes change (Pure.pure a : Play α) := ⟨fun _ => rfl⟩

theorem throw (e : Halt) : Commutes change (MonadExcept.throw e : Play α) := ⟨fun _ => rfl⟩

theorem bind {x : Play α} {f : α → Play β} (first : Commutes change x)
    (next : ∀ a, Commutes change (f a)) : Commutes change (x >>= f) := by
  refine ⟨fun s => ?_⟩
  rw [bind_apply, bind_apply, first.moves]
  cases x s with
  | ok a t => exact (next a).moves t
  | error e t => rfl

theorem reads {f : Session → Play α} (same : ∀ s, f (change s) = f s)
    (next : ∀ s, Commutes change (f s)) : Commutes change (get >>= f) := by
  refine ⟨fun s => ?_⟩
  rw [get_bind_apply, get_bind_apply, same]
  exact (next s).moves s

theorem ite {c : Prop} [Decidable c] {x y : Play α} (yes : Commutes change x)
    (no : Commutes change y) : Commutes change (if c then x else y) := by
  split
  · exact yes
  · exact no

theorem forM {f : β → Play Unit} (h : ∀ x, Commutes change (f x)) (xs : List β) :
    Commutes change (xs.forM f) := by
  induction xs with
  | nil => exact .pure ()
  | cons x xs ih => exact (h x).bind fun _ => ih

end Play.Commutes

/-! ### Events upon another past -/

/-- A routine does the same upon every past. -/
theorem Play.Routine.commutes {α : Type} {x : Play α} (h : Play.Routine x) (past : Past) :
    Play.Commutes (.upon past) x := by
  have frame : Commutes (.upon past) Play.advance := by
    refine ⟨fun s => ?_⟩
    rw [Play.advance_eq, Play.advance_eq]
    have same : (s.upon past).host.stop? = s.host.stop? := rfl
    rw [same]
    cases s.host.stop? <;> rfl
  induction h with
  | pure a => exact .pure a
  | bind first next ih ih' => exact ih.bind ih'
  | look f is next ih =>
    refine ⟨fun s => ?_⟩
    rw [is, is, s.sight_upon]
    exact (ih s.sight).moves s
  | deed d ordinary is =>
    refine ⟨fun s => ?_⟩
    rw [is, is, d.apply_upon ordinary]
    rfl
  | frame => exact frame
  | setVariable name value =>
    refine ⟨fun s => ?_⟩
    have same : (s.upon past).vars = s.vars := rfl
    rw [Play.setVariable, Play.setVariable, same]
    cases s.vars.set name value <;> rfl
  | @await test p looks =>
    have waits (n : Nat) : Commutes (.upon past) (Play.advanceUntil test n) := by
      induction n with
      | zero => exact .throw _
      | succ n ih =>
        refine ⟨fun s => ?_⟩
        have same : (s.upon past).host.states = s.host.states := rfl
        rw [looks.advanceUntil_succ, looks.advanceUntil_succ, same]
        split
        · rfl
        · exact (frame.bind fun _ => ih).moves s
    exact waits _

namespace Play.Commutes

variable {game : Game} {past : Past}

theorem enact (inFrame : Bool) (event : Event) :
    Commutes (.upon past) (Play.enact game inFrame event) := by
  by_cases lasting : event.Lasting inFrame
  · cases event with
    | goToScene target start =>
      exact .bind (((Routine.note _).commutes past).bind fun _ => ⟨fun _ => rfl⟩) fun _ => .pure _
    | onButtonPress buttons body =>
      cases lasting
      exact .bind ⟨fun _ => rfl⟩ fun _ => .pure _
    | _ => exact lasting.elim
  · exact (Routine.enact game lasting).commutes past

/-- However deep it is nested, an event does the same upon every past. -/
theorem runEvent (room : Nat) (inFrame : Bool) (event : Event) :
    Commutes (.upon past) (Play.runEvent game room inFrame event) := by
  induction room generalizing inFrame event with
  | zero => exact .throw _
  | succ room ih =>
    refine .bind ⟨fun _ => rfl⟩ fun _ => (enact inFrame event).bind fun next => ?_
    cases next with
    | none => exact .pure ()
    | some next => exact .forM (ih next.2) _

theorem runList (list : Handle) (inFrame : Bool) :
    Commutes (.upon past) (Play.runList game list inFrame) := .forM (runEvent _ inFrame) _

end Play.Commutes

/-! ### Coming onto the stage -/

/-- A change of sessions that makes no difference to what comes onto the stage. -/
structure Session.Aside (game : Game) (change : Session → Session) : Prop where
  vars (s : Session) : (change s).vars = s.vars
  pending (s : Session) : (change s).pending = s.pending
  note (s : Session) (notice : Notice) :
    (Deed.note notice).apply (change s) = change ((Deed.note notice).apply s)
  arrive (s : Session) (a : Arrival) : a.apply game (change s) = change (a.apply game s)

namespace Session.Aside

variable {game : Game} {change : Session → Session} (h : Session.Aside game change)

include h

theorem valueOf (e : Expression) : Play.Commutes change (Play.valueOf e) := by
  refine .reads (fun s => by rw [h.vars]) fun s => ?_
  split
  · exact .bind ⟨fun s => congrArg (EStateM.Result.ok ()) (h.note s _)⟩ fun _ => .pure _
  · exact .pure _

theorem intOf (e : Expression) : Play.Commutes change (Play.intOf e) :=
  (h.valueOf e).bind fun _ => .pure _

theorem tileAt (x y : Expression) : Play.Commutes change (Play.tileAt x y) :=
  (h.intOf x).bind fun _ => (h.intOf y).bind fun _ => .pure _

theorem arrival {x : Play Unit} (a : Arrival) (is : ∀ s, x s = .ok () (a.apply game s)) :
    Play.Commutes change x := by
  refine ⟨fun s => ?_⟩
  rw [is, is, h.arrive]
  rfl

theorem startPosition (scene : Scene) (spawn : PlayerSpawn) :
    Play.Commutes change (Play.startPosition scene spawn) := by
  have own : Play.Commutes change
      (do let tile ← Play.tileAt spawn.x spawn.y; return (tile, spawn.direction)) :=
    (h.tileAt _ _).bind fun _ => .pure _
  refine .reads (fun s => by rw [h.pending]) fun s => ?_
  dsimp only
  split
  · refine .ite ((h.tileAt _ _).bind fun tile => .ite ?_ own) own
    exact (h.arrival .forget fun _ => rfl).bind fun _ => .pure _
  · exact own

theorem enterPlayer (scene : Scene) (spawn : PlayerSpawn) :
    Play.Commutes change (Play.enterPlayer game.config scene spawn) := by
  unfold Play.enterPlayer
  split
  · exact .pure ()
  · exact (h.startPosition scene spawn).bind fun start => (h.intOf _).bind fun z =>
      h.arrival (.player _ spawn.sheet start.1 start.2 z) fun _ => rfl

theorem enterProp (map : Option TileMap) (definition : PropDef) :
    Play.Commutes change (Play.enterProp map definition) :=
  (h.tileAt _ _).bind fun tile => (h.intOf _).bind fun z =>
    h.arrival (.prop map definition tile z) fun _ => rfl

theorem enterActor (map : Option TileMap) (definition : ActorDef) :
    Play.Commutes change (Play.enterActor map definition) :=
  (h.tileAt _ _).bind fun tile => (h.intOf _).bind fun z =>
    h.arrival (.actor map definition tile z) fun _ => rfl

end Session.Aside

theorem Session.aside_upon (game : Game) (past : Past) : Session.Aside game (.upon past) where
  vars _ := rfl
  pending _ := rfl
  note s notice := (Deed.note notice).apply_upon trivial past s
  arrive s a := a.apply_upon game past s

/-- Everything comes onto the stage upon every past, and has its first events run. -/
theorem Play.Commutes.furnish (game : Game) (past : Past) (scene : Scene) :
    Play.Commutes (.upon past) (Play.furnish game scene) := by
  have aside := Session.aside_upon game past
  refine .bind ⟨fun _ => rfl⟩ fun _ => (forM (aside.enterProp scene.map) _).bind fun _ =>
    .bind (forM (fun definition => (aside.enterActor scene.map definition).bind fun _ =>
      runList definition.init false) _) fun _ => .bind ⟨fun _ => rfl⟩ fun _ => ?_
  refine .reads (fun s => ?_) fun s => ((Routine.note _).commutes past).bind fun _ =>
    runList scene.events false
  have present : (s.upon past).stage.player.isSome = s.stage.player.isSome := Option.isSome_map ..
  rw [present]

/-- The same goes for the player. -/
theorem Play.Commutes.build (game : Game) (past : Past) (scene : Scene) :
    Play.Commutes (.upon past) (Play.build game scene) := by
  refine (Routine.showBackground.commutes past).bind fun _ => ?_
  dsimp only
  split
  · exact ((Session.aside_upon game past).enterPlayer scene _).bind fun _ => furnish game past scene
  · exact furnish game past scene

/-- The session with the camera of its host elsewhere. -/
def Session.aimed (camera : Pixel) (s : Session) : Session :=
  { s with host := s.host.setCamera camera }

theorem Session.aside_aimed (game : Game) (camera : Pixel) : Session.Aside game (.aimed camera) where
  vars _ := rfl
  pending _ := rfl
  note _ _ := rfl
  arrive s a := by cases a <;> rfl

/-- The camera is aimed before the stage is furnished. -/
theorem Play.furnish_aimed (game : Game) (scene : Scene) (camera : Pixel) (s : Session) :
    Play.furnish game scene (s.aimed camera) = Play.furnish game scene s := rfl

/-- The session with another picture on its host. -/
def Session.showing (camera : Pixel) (background : Option Background) (s : Session) : Session :=
  { s with host := { s.host with camera := camera, background := background } }

/-- Whatever the picture was, a bare stage is built as without it. -/
theorem Play.build_showing (game : Game) {scene : Scene} (camera : Pixel)
    (background : Option Background) {s : Session} (bare : s.stage = .bare scene) :
    Play.build game scene (s.showing camera background) = Play.build game scene s := by
  obtain ⟨t, shown, shown', stage⟩ : ∃ t, Play.showBackground s = .ok () t ∧
      Play.showBackground (s.showing camera background) = .ok () (t.aimed camera) ∧
      t.stage = s.stage := ⟨_, rfl, rfl, rfl⟩
  rw [Play.build, Play.bind_apply, Play.bind_apply, shown, shown']
  dsimp only
  cases hasPlayer : scene.player with
  | none => exact Play.furnish_aimed game scene camera t
  | some spawn =>
    have same := ((Session.aside_aimed game camera).enterPlayer scene spawn).moves t
    obtain ⟨u, entered, -⟩ :=
      placed_of_enterPlayer game.config hasPlayer (stage.trans bare)
    rw [entered] at same
    dsimp only
    rw [Play.bind_apply, Play.bind_apply, same, entered]
    exact Play.furnish_aimed game scene camera u

/-! ### Entering a scene without a past -/

/-- What a session has only added to. -/
def Session.past (s : Session) : Past :=
  ⟨s.host.nextSprite, s.host.past, s.host.dialogs, s.host.musicStarted, s.host.sounds, s.entered,
    s.notices, s.journal⟩

/-- What a session keeps when it forgets its past and everything on its stage. -/
def Session.anew (s : Session) : Session :=
  { s with
    host :=
      { s.host with
        nextSprite := 0, sprites := [], camera := .origin, background := none, dialogs := #[]
        musicStarted := #[], sounds := #[], past := [] }
    stage := .bare .fallback
    entered := 0
    notices := #[]
    journal := [] }

/-- A stage that is cleared leaves no sprite. -/
theorem Session.Held.sprites_eq_nil {s : Session} (held : s.Held) (game : Game) (name : String) :
    (s.entering game name).host.sprites = [] :=
  List.map_eq_nil_iff.mp (List.perm_nil.mp (held.entering game name).perm)

/-- A scene is opened as it would be without a past, but for the picture. -/
theorem Session.Held.openScene_eq {s : Session} (held : s.Held) (game : Game) (name : String) :
    ∃ v background, Play.openScene game.graph name s.anew = .ok (game.graph.scene name) v ∧
      v.stage = .bare (game.graph.scene name) ∧
      Play.openScene game.graph name s =
        .ok (game.graph.scene name) ((v.upon s.past).showing s.host.camera background) := by
  have opened : s.entering game name =
      ((s.anew.entering game name).upon s.past).showing s.host.camera
        (s.entering game name).host.background := by
    have cleared := held.sprites_eq_nil game name
    simp only [Session.entering] at cleared
    simp only [Session.entering, cleared]
    simp [Session.upon, Session.showing, Host.upon, Session.anew, Session.past, Stage.renamed,
      Stage.bare, Entry.renamed, Stage.sprites]
  rw [Simulation.openScene_eq, Simulation.openScene_eq, opened]
  cases game.graph.scene? name with
  | some scene => exact ⟨_, _, rfl, rfl, rfl⟩
  | none =>
    have reported := Deed.apply_upon (d := .note (.sceneMissing name)) trivial s.past
      (s.anew.entering game name)
    refine ⟨_, (s.entering game name).host.background, rfl, rfl, ?_⟩
    rw [← reported]
    rfl

/-- **To enter a scene is to enter it without a past**, and to put what comes of it upon the past. -/
theorem Play.enterScene_anew (game : Game) (name : String) {s : Session} (held : s.Held) :
    Play.enterScene game name s =
      Play.moved (.upon s.past) (Play.enterScene game name s.anew) := by
  obtain ⟨v, background, fresh, bare, opened⟩ := held.openScene_eq game name
  have bare' : (v.upon s.past).stage = .bare (game.graph.scene name) := by
    change v.stage.renamed _ = _
    rw [bare]
    rfl
  rw [Play.enterScene, Play.bind_apply, Play.bind_apply, fresh, opened]
  exact (Play.build_showing game s.host.camera background bare').trans
    ((Play.Commutes.build game s.past _).moves v)

/-! ### What two entries have in common -/

/-- How an action has ended. -/
def Play.outcome {α : Type} : EStateM.Result Halt Session α → Except Halt α
  | .ok a _ => .ok a
  | .error e _ => .error e

@[simp] theorem Play.outcome_moved {α : Type} (change : Session → Session)
    (r : EStateM.Result Halt Session α) : Play.outcome (Play.moved change r) = Play.outcome r := by
  cases r <;> rfl

@[simp] theorem Play.final_moved {α : Type} (change : Session → Session)
    (r : EStateM.Result Halt Session α) : Play.final (Play.moved change r) = change (Play.final r) := by
  cases r <;> rfl

/-- Sessions that agree in all but their stages, their pictures and their pasts. -/
structure Session.Agrees (s t : Session) : Prop where
  vars : t.vars = s.vars
  pending : t.pending = s.pending
  /-- The script, with whether the host stops at its end. -/
  input : t.host.input = s.host.input
  stopsWithInput : t.host.stopsWithInput = s.host.stopsWithInput
  states : t.host.states = s.host.states
  frame : t.host.frame = s.host.frame
  budget : t.host.budget = s.host.budget
  alpha : t.host.alpha = s.host.alpha
  dialog : t.host.dialog = s.host.dialog
  music : t.host.music = s.host.music

/-- They are one session without a past. -/
theorem Session.Agrees.anew_eq {s t : Session} (h : s.Agrees t) : t.anew = s.anew := by
  obtain ⟨vars, pending, input, stopsWithInput, states, frame, budget, alpha, dialog, music⟩ := h
  simp only [anew, vars, pending, input, stopsWithInput, states, frame, budget, alpha, dialog, music]

theorem Session.agrees_upon (past past' : Past) (s : Session) :
    (s.upon past).Agrees (s.upon past') := by
  constructor <;> rfl

/-- From two sessions on, two others have added the same to a log. -/
def Session.AddsAlike {β : Type} [Append β] (log : Session → β) (s s' t t' : Session) : Prop :=
  ∃ new, log s' = log s ++ new ∧ log t' = log t ++ new

/-- From two sessions on, two others have come about in the same way, whatever was there before. -/
structure Session.ChangeAlike (s s' t t' : Session) : Prop where
  agree : s'.Agrees t'
  frames : AddsAlike (·.host.frames) s s' t t'
  sounds : AddsAlike (·.host.sounds) s s' t t'
  dialogs : AddsAlike (·.host.dialogs) s s' t t'
  musicStarted : AddsAlike (·.host.musicStarted) s s' t t'
  notices : AddsAlike (·.notices) s s' t t'
  /-- The stages are the same but for the names of the sprites, and so is what is shown of them. -/
  renamed : ∃ rename, (∀ h ∈ s'.stage.sprites, ∀ k ∈ s'.stage.sprites, rename h = rename k → h = k) ∧
    t'.stage = s'.stage.renamed rename ∧
    t'.host.sprites = s'.host.sprites.map (Prod.map rename id)
  camera : t'.host.camera = s'.host.camera
  background : t'.host.background = s'.host.background

/-- The handle that is given out where other sprites were made before. -/
def SpriteHandle.move (made made' : Nat) (h : SpriteHandle) : SpriteHandle :=
  ⟨h.number - made + made'⟩

theorem SpriteHandle.move_comp_shift (made made' : Nat) :
    move made made' ∘ shift made = shift made' := by
  funext h
  simp [move, shift, Nat.add_comm]

/-- What is put upon two pasts has come about in the same way upon both. -/
theorem Session.changeAlike_upon (s t u : Session) :
    s.ChangeAlike (u.upon s.past) t (u.upon t.past) where
  agree := u.agrees_upon s.past t.past
  frames := ⟨u.host.frames, List.reverse_append, List.reverse_append⟩
  sounds := ⟨u.host.sounds, rfl, rfl⟩
  dialogs := ⟨u.host.dialogs, rfl, rfl⟩
  musicStarted := ⟨u.host.musicStarted, rfl, rfl⟩
  notices := ⟨u.notices, rfl, rfl⟩
  renamed := by
    have moved := SpriteHandle.move_comp_shift s.past.made t.past.made
    refine ⟨.move s.past.made t.past.made, ?_, ?_, ?_⟩
    · intro h mem k mem' same
      rw [Session.upon, Stage.sprites_renamed] at mem mem'
      obtain ⟨h, -, rfl⟩ := List.mem_map.mp mem
      obtain ⟨k, -, rfl⟩ := List.mem_map.mp mem'
      have same : (SpriteHandle.move s.past.made t.past.made ∘ .shift s.past.made) h =
          (SpriteHandle.move s.past.made t.past.made ∘ .shift s.past.made) k := same
      rw [moved, SpriteHandle.shift_inj] at same
      rw [same]
    · simp only [Session.upon, Stage.renamed_renamed, moved]
    · simp only [Session.upon, Host.upon, List.map_map, Prod.map_comp_map, moved, Function.comp_id]
  camera := rfl
  background := rfl

/-- **Scenes forget the last one.** Take two sessions of a game, each with its own script and host and
after calls of its own, that agree in their variables, the request in mind, the input, the time, the
overlay, the dialog and the music. When a scene is entered in both, it ends the same way in both;
the same frames, sounds, dialogs and pieces of music are added to what there was; the sessions agree
again; and their stages are the same up to the names of the sprites. -/
theorem changeAlike_enterScene {game : Game} {input input' : InputScript}
    {budget budget' : Option Nat} {stops stops' : Bool} {s t : Session}
    (start : game.session (.fresh input budget stops) = .ok s)
    (start' : game.session (.fresh input' budget' stops') = .ok t) (calls calls' : List Call)
    (agree : (s.after game calls).Agrees (t.after game calls')) (name : String) :
    let entered := Play.enterScene game name (s.after game calls)
    let entered' := Play.enterScene game name (t.after game calls')
    Play.outcome entered' = Play.outcome entered ∧
      (s.after game calls).ChangeAlike (Play.final entered) (t.after game calls')
        (Play.final entered') := by
  intro entered entered'
  have first : entered = _ := Play.enterScene_anew game name (held_after start rfl calls)
  have second : entered' = _ := Play.enterScene_anew game name (held_after start' rfl calls')
  rw [agree.anew_eq] at second
  rw [first, second, Play.outcome_moved, Play.outcome_moved, Play.final_moved, Play.final_moved]
  exact ⟨rfl, Session.changeAlike_upon _ _ _⟩

/-- In the sample the yard is entered after two frames of the yard and after two frames of the hall, in
which no sprite was made. -/
theorem changeAlike_enterScene_sample :
    ∃ s, Game.sample.session (.fresh .empty (some 9) false) = .ok s ∧
      let first := s.after Game.sample [.enter "yard", .frame, .frame]
      let second := s.after Game.sample [.enter "hall"]
      first.Agrees second ∧ first.stage ≠ second.stage ∧
      first.ChangeAlike (Play.final (Play.enterScene Game.sample "yard" first)) second
        (Play.final (Play.enterScene Game.sample "yard" second)) := by
  let s := Session.sample .empty 9
  have agree : (s.after Game.sample [.enter "yard", .frame, .frame]).Agrees
      (s.after Game.sample [.enter "hall"]) := by
    constructor <;> decide +kernel
  exact ⟨s, rfl, agree, by decide +kernel, (changeAlike_enterScene rfl rfl _ _ agree "yard").2⟩

end Overworld
