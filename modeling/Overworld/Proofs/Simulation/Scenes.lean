import Overworld.Proofs.Simulation.Control

/-!
Scenes track themselves in every simulation that arrivals keep, too.

Entering a scene is one arrival after the other with the events of the actors and the scene between
them. A scene is then played frame by frame, and every frame that ends takes time.
-/

namespace Overworld

/-! ### What looking at expressions leaves alone -/

/-- An action that reads a value off the variables, and reports at most. -/
def Play.Reads {α : Type} (act : Play α) (value : Variables → α) : Prop :=
  ∀ s : Session, ∃ notices, act s = .ok (value s.vars) { s with notices := notices }

namespace Play.Reads

variable {α β : Type}

theorem pure (a : α) : Reads (Pure.pure a : Play α) fun _ => a := fun s => ⟨s.notices, rfl⟩

theorem bind {x : Play α} {f : α → Play β} {value : Variables → α} {next : α → Variables → β}
    (hx : Reads x value) (hf : ∀ a, Reads (f a) (next a)) :
    Reads (x >>= f) fun vars => next (value vars) vars := by
  intro s
  obtain ⟨notices, first⟩ := hx s
  obtain ⟨more, second⟩ := hf (value s.vars) { s with notices := notices }
  exact ⟨more, by rw [bind_apply, first]; exact second⟩

theorem valueOf (e : Expression) : Reads (Play.valueOf e) fun vars => e.value? vars := by
  intro s
  unfold Play.valueOf
  rw [get_bind_apply]
  cases e with
  | literal value => exact ⟨s.notices, rfl⟩
  | «variable» name =>
    simp only [Expression.value?]
    cases s.vars.get? name with
    | none => exact ⟨s.notices.push (.variableMissing name), rfl⟩
    | some value => exact ⟨s.notices, rfl⟩

theorem intOf (e : Expression) : Reads (Play.intOf e) fun vars => e.int vars :=
  (valueOf e).bind fun _ => .pure _

theorem tileAt (x y : Expression) : Reads (Play.tileAt x y) fun vars => ⟨x.int vars, y.int vars⟩ :=
  (intOf x).bind fun _ => (intOf y).bind fun _ => .pure _

end Play.Reads

/-- An action that runs no event and leaves the stage alone. -/
def Play.Silent {α : Type} (act : Play α) : Prop :=
  ∀ (s t : Session) (a : α), act s = .ok a t → t.stage = s.stage ∧ t.journal = s.journal

theorem Play.Reads.silent {α : Type} {act : Play α} {value : Variables → α}
    (h : Play.Reads act value) : Play.Silent act := by
  intro s t a is
  obtain ⟨notices, reads⟩ := h s
  cases is.symm.trans reads
  exact ⟨rfl, rfl⟩

namespace Play.Silent

variable {α β : Type}

theorem pure (a : α) : Silent (Pure.pure a : Play α) := (Reads.pure a).silent

theorem bind {x : Play α} {f : α → Play β} (hx : Silent x) (hf : ∀ a, Silent (f a)) :
    Silent (x >>= f) := by
  intro s t b h
  obtain ⟨a, u, first, next⟩ := bind_eq_ok_iff.mp h
  have before := hx s u a first
  have after := hf a u t b next
  exact ⟨after.1.trans before.1, after.2.trans before.2⟩

theorem get_bind {f : Session → Play α} (hf : ∀ s, Silent (f s)) : Silent (get >>= f) :=
  fun s => hf s s

theorem startPosition (scene : Scene) (spawn : PlayerSpawn) :
    Silent (Play.startPosition scene spawn) := by
  have own : Silent (do
      let tile ← Play.tileAt spawn.x spawn.y
      return (tile, spawn.direction)) := (Reads.tileAt _ _).silent.bind fun _ => .pure _
  refine .get_bind fun s => ?_
  dsimp only
  split
  · split
    · refine (Reads.tileAt _ _).silent.bind fun tile => ?_
      split
      · refine .bind ?_ fun _ => .pure _
        intro s t a h
        cases h
        exact ⟨rfl, rfl⟩
      · exact own
    · exact own
  · exact own

end Play.Silent

/-- Run what happens in a frame from some handlers on. -/
def Play.enactFrom (game : Game) (handlers : List Event) : Play Unit := do
  Play.runEvents game game.config.maxDepth true handlers
  if (← get).stage.player.isSome then Play.control game
  (← get).stage.actors.forM fun actor => Play.runList game actor.definition.update true

namespace Simulation

variable {game : Game} {limit : Nat} {sim : Simulation game limit}

/-- A simulation that the change to a scene keeps. -/
def Enters (sim : Simulation game limit) (name : String) : Prop :=
  ∀ s t : Session, sim.related s t → sim.related (s.entering game name) (t.entering game name)

/-- A simulation that arrivals keep. -/
def Arrives (sim : Simulation game limit) : Prop :=
  ∀ (s t : Session) (a : Arrival), sim.related s t → a.Allowed s →
    sim.related (a.apply game s) (a.apply game t)

/-- A simulation that the arrivals keep with which a scene is furnished. -/
def Furnishes (sim : Simulation game limit) : Prop :=
  ∀ (s t : Session) (a : Arrival), a.Furnishes → sim.related s t →
    sim.related (a.apply game s) (a.apply game t)

theorem Arrives.furnishes (arrives : sim.Arrives) : sim.Furnishes := by
  intro s t a furnishes related
  refine arrives s t a related ?_
  cases a with
  | player => exact furnishes.elim
  | _ => exact trivial

/-- An action that is an arrival tracks itself where the arrival takes place. -/
theorem TracksFrom.arrival {x : Play Unit} (a : Arrival)
    (keeps : ∀ s t : Session, sim.related s t → a.Allowed s →
      sim.related (a.apply game s) (a.apply game t))
    (is : ∀ s, x s = .ok () (a.apply game s)) : sim.TracksFrom a.Allowed x x where
  joined {s t} related allowed := by
    rw [is, is]
    exact .ok () (keeps s t related allowed)
  grows s := by
    rw [is]
    exact .arrival game s a

/-- An arrival that may always take place tracks itself. -/
theorem Tracks.arrival {x : Play Unit} (a : Arrival)
    (keeps : ∀ s t : Session, sim.related s t → sim.related (a.apply game s) (a.apply game t))
    (is : ∀ s, x s = .ok () (a.apply game s)) : sim.Tracks x x where
  joined {s t} related := by
    rw [is, is]
    exact .ok () (keeps s t related)
  grows s := by
    rw [is]
    exact .arrival game s a

/-! ### Entering a scene -/

namespace Tracks

theorem startPosition (arrives : sim.Arrives) (scene : Scene) (spawn : PlayerSpawn) :
    sim.Tracks (Play.startPosition scene spawn) (Play.startPosition scene spawn) := by
  have own : sim.Tracks
      (do let tile ← Play.tileAt spawn.x spawn.y; return (tile, spawn.direction))
      (do let tile ← Play.tileAt spawn.x spawn.y; return (tile, spawn.direction)) :=
    (tileAt _ _).bind fun _ => .pure _
  refine .reads (fun related => by rw [sim.pending related]) fun s => ?_
  dsimp only
  split
  · refine .ite ((tileAt _ _).bind fun tile => .ite ?_ own) own
    exact (arrival .forget (fun s t related => arrives s t .forget related trivial) fun _ =>
      rfl).bind fun _ => .pure _
  · exact own

theorem enterProp (furnishes : sim.Furnishes) (map : Option TileMap) (definition : PropDef) :
    sim.Tracks (Play.enterProp map definition) (Play.enterProp map definition) :=
  (tileAt _ _).bind fun tile => (intOf _).bind fun z =>
    .arrival (.prop map definition tile z) (fun s t => furnishes s t _ trivial) fun _ => rfl

theorem enterActor (furnishes : sim.Furnishes) (map : Option TileMap) (definition : ActorDef) :
    sim.Tracks (Play.enterActor map definition) (Play.enterActor map definition) :=
  (tileAt _ _).bind fun tile => (intOf _).bind fun z =>
    .arrival (.actor map definition tile z) (fun s t => furnishes s t _ trivial) fun _ => rfl

end Tracks

/-- The player comes before anything is run in the scene. -/
theorem TracksFrom.enterPlayer (arrives : sim.Arrives) (scene : Scene) (spawn : PlayerSpawn) :
    sim.TracksFrom (fun s => s.stage.player = none ∧ s.current = [])
      (Play.enterPlayer game.config scene spawn)
      (Play.enterPlayer (game.withLimit limit).config scene spawn) := by
  unfold Play.enterPlayer
  split
  · exact (Tracks.pure ()).from
  · rename_i map _
    refine (Tracks.startPosition arrives scene spawn).from.bind fun start => ?_
    refine (Tracks.intOf spawn.z).from.bind fun z => ?_
    refine (TracksFrom.arrival (.player map spawn.sheet start.1 start.2 z)
      (fun s t => arrives s t _) fun _ => rfl).weaken ?_
    rintro u ⟨v, ⟨s, ⟨alone, early⟩, started⟩, looked⟩
    have first := Play.Silent.startPosition scene spawn _ _ _ started
    have second := (Play.Reads.intOf spawn.z).silent _ _ _ looked
    refine ⟨?_, ?_⟩
    · rw [second.1, first.1]
      exact alone
    · rw [Session.current, second.2, first.2]
      exact early

/-- The stage is bare when a scene is opened; only a missing scene is reported. -/
theorem openScene_eq (game : Game) (name : String) (s : Session) :
    Play.openScene game.graph name s =
      match game.graph.scene? name with
      | some _ => .ok (game.graph.scene name) (s.entering game name)
      | none => .ok (game.graph.scene name)
          ((Deed.note (.sceneMissing name)).apply (s.entering game name)) := by
  unfold Play.openScene Play.findScene
  cases found : game.graph.scene? name with
  | some scene =>
    have is : game.graph.scene name = scene := by simp [SceneGraph.scene, found]
    simp only [Session.entering, is]
    change EStateM.Result.ok scene
      { s with host := (s.stage.clear s.host).2, stage := _, journal := _ } = _
    rw [Stage.clear_eq]
    rfl
  | none =>
    have is : game.graph.scene name = .fallback := by simp [SceneGraph.scene, found]
    simp only [Session.entering, Deed.apply, is]
    change EStateM.Result.ok Scene.fallback
      { s with host := (s.stage.clear s.host).2, stage := _, journal := _, notices := _ } = _
    rw [Stage.clear_eq]
    rfl

theorem Tracks.openScene {name : String} (enters : sim.Enters name) :
    sim.Tracks (Play.openScene game.graph name) (Play.openScene (game.withLimit limit).graph name) where
  joined {s t} related := by
    have entered := enters s t related
    change sim.Joined _ (Play.openScene game.graph name t)
    rw [openScene_eq, openScene_eq]
    cases game.graph.scene? name with
    | some scene => exact .ok _ entered
    | none => exact .ok _ (sim.deed (d := .note _) trivial entered trivial)
  grows s := by
    change s.Grown (Play.final (Play.openScene game.graph name s))
    rw [openScene_eq]
    have entered := Session.Grown.entering game s name
    cases game.graph.scene? name with
    | some scene => exact entered
    | none => exact entered.trans (.deed _ (.note _))

/-- Nothing is on the stage yet when a scene was opened, and nothing was run. -/
theorem bare_of_openScene {name : String} {scene : Scene} {s t : Session}
    (h : Play.openScene game.graph name s = .ok scene t) :
    scene = game.graph.scene name ∧ t.stage = .bare scene ∧ t.journal = .scene name :: s.journal := by
  rw [openScene_eq] at h
  cases found : game.graph.scene? name with
  | some _ =>
    rw [found] at h
    cases h
    exact ⟨rfl, rfl, rfl⟩
  | none =>
    rw [found] at h
    cases h
    exact ⟨rfl, rfl, rfl⟩

theorem Tracks.furnish (furnishes : sim.Furnishes) (scene : Scene) :
    sim.Tracks (Play.furnish game scene) (Play.furnish (game.withLimit limit) scene) := by
  refine .bind (.deed (fun stage => .present (.camera stage.camera)) (fun _ => trivial)
    (fun _ => trivial) fun _ => rfl) fun _ => ?_
  refine .bind (.forM fun definition _ => enterProp furnishes scene.map definition) fun _ => ?_
  refine .bind (.forM fun definition _ => (enterActor furnishes scene.map definition).bind fun _ =>
    runList definition.init false) fun _ => ?_
  refine .bind (.arrival .ready (fun s t => furnishes s t .ready trivial) fun _ => rfl) fun _ => ?_
  refine .reads (fun related => by rw [sim.stage related]) fun s => ?_
  exact (note _).bind fun _ => runList scene.events false

theorem TracksFrom.build (arrives : sim.Arrives) (scene : Scene) :
    sim.TracksFrom (fun s => s.stage.player = none ∧ s.current = [])
      (Play.build game scene) (Play.build (game.withLimit limit) scene) := by
  refine .bind (Tracks.from .showBackground) fun _ => ?_
  dsimp only
  split
  · rename_i spawn _
    refine ((TracksFrom.enterPlayer arrives scene spawn).weaken ?_).bind fun _ =>
      (Tracks.furnish arrives.furnishes scene).from
    rintro u ⟨s, bare, shown⟩
    cases shown
    exact bare
  · exact (Tracks.furnish arrives.furnishes scene).from

theorem Tracks.enterScene {name : String} (enters : sim.Enters name) (arrives : sim.Arrives) :
    sim.Tracks (Play.enterScene game name) (Play.enterScene (game.withLimit limit) name) := by
  refine TracksFrom.tracks ((Tracks.openScene enters).from.bind fun scene => ?_)
  refine (TracksFrom.build arrives scene).weaken ?_
  rintro t ⟨s, -, opened⟩
  obtain ⟨-, bare, early⟩ := bare_of_openScene opened
  exact ⟨congrArg Stage.player bare, congrArg Entry.current early⟩

/-! ### Playing a scene -/

theorem Tracks.enactFrom (walks : sim.Walks) (handlers : List Event) :
    sim.Tracks (Play.enactFrom game handlers) (Play.enactFrom (game.withLimit limit) handlers) := by
  have updates : sim.Tracks
      (get >>= fun s => s.stage.actors.forM fun actor =>
        Play.runList game actor.definition.update true)
      (get >>= fun s => s.stage.actors.forM fun actor =>
        Play.runList (game.withLimit limit) actor.definition.update true) :=
    .reads (fun related => by rw [sim.stage related]) fun s =>
      .forM fun actor _ => runList actor.definition.update true
  refine (outermost true).bind fun _ => .reads (fun related => by rw [sim.stage related]) fun u => ?_
  exact .ite ((control walks).bind fun _ => updates) updates

theorem Tracks.enactFrame (walks : sim.Walks) :
    sim.Tracks (Play.enactFrame game) (Play.enactFrame (game.withLimit limit)) :=
  .reads (fun related => by rw [sim.stage related]) fun s => enactFrom walks s.stage.handlers

theorem Tracks.playFrame (walks : sim.Walks) :
    sim.Tracks (Play.playFrame game) (Play.playFrame (game.withLimit limit)) :=
  (enactFrame walks).bind fun _ => advance

/-- A frame that ends takes time. -/
theorem frame_lt_of_playFrame {s t : Session} (h : Play.playFrame game s = .ok () t) :
    s.host.frame < t.host.frame := by
  obtain ⟨_, u, enacted, played⟩ := Play.bind_eq_ok_iff.mp h
  obtain ⟨-, rfl⟩ := Play.advance_eq_ok_iff.mp played
  have course : Stretch s u := Tracks.stretch_ok (.enactFrame (walks_within game s)) enacted
  exact Nat.lt_succ_of_le course.clock_le.1

/-- Without a request a frame is played. -/
theorem framesUntilRequest_succ (game : Game) (n : Nat) (s : Session) :
    Play.framesUntilRequest game (n + 1) s =
      match s.stage.request with
      | some request => .ok request s
      | none => (Play.playFrame game >>= fun _ => Play.framesUntilRequest game n) s := by
  rw [Play.framesUntilRequest, Play.get_bind_apply]
  cases s.stage.request <;> rfl

/-- A scene can be played for as long as the host goes on, if some frames are left for it. -/
theorem TracksFrom.framesUntilRequest (walks : sim.Walks) (n : Nat) :
    sim.TracksFrom (fun s => Lenient sim.mayEnd ∨ s.Sound ∧ s.host.framesLeft < n)
      (Play.framesUntilRequest game n) (Play.framesUntilRequest (game.withLimit limit) n) := by
  induction n with
  | zero =>
    refine ⟨fun {s t} related enough => ?_, .throw _⟩
    rcases enough with lenient | ⟨-, enough⟩
    · exact .error related lenient.2
    · exact absurd enough (Nat.not_lt_zero _)
  | succ n ih =>
    refine .reads (fun related => by rw [sim.stage related]) fun s => ?_
    split
    · exact (Tracks.pure _).from
    · refine .bind (Tracks.from (.playFrame walks)) fun _ => ih.weaken ?_
      rintro u ⟨s, ⟨rfl, enough⟩, played⟩
      refine enough.imp_right fun ⟨sound, left⟩ => ?_
      have course : Stretch s u := Tracks.stretch_ok (.playFrame (walks_within game s)) played
      have later := course.later sound
      have fewer := later.framesLeft_lt (frame_lt_of_playFrame played)
      exact ⟨later.sound, by omega⟩

theorem Tracks.playScene (walks : sim.Walks) (remembers : ∀ request, sim.Does (.remember request)) :
    sim.Tracks (Play.playScene game) (Play.playScene (game.withLimit limit)) := by
  refine TracksFrom.tracks (.ofSound ?_)
  refine ((TracksFrom.framesUntilRequest walks Play.patience).weaken ?_).bind fun request =>
    Tracks.from ?_
  · rintro s ⟨-, enough⟩
    exact enough.imp_right fun sound => ⟨sound, sound.framesLeft_lt_patience⟩
  · exact (changeBackground _).bind fun _ => .bind showBackground fun _ =>
      .bind (.does (fun _ => .remember request) (fun _ => remembers request) (fun _ => trivial)
        fun _ => rfl) fun _ => .pure request

theorem Tracks.visit {name : String} (enters : sim.Enters name) (arrives : sim.Arrives)
    (does : ∀ d, sim.Does d) :
    sim.Tracks (Play.visit game name) (Play.visit (game.withLimit limit) name) :=
  (enterScene enters arrives).bind fun _ =>
    playScene (.of_does fun d _ => does d) fun request => does (.remember request)

end Simulation

end Overworld
