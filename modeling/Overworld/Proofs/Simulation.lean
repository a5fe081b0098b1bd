import Overworld.Proofs.Clock

/-!
Two runs of a game side by side.

A simulation relates the sessions of two runs of a game, of which the second may nest its events
deeper. What it has to know is what a deed, a frame and an arrival do to related sessions; from that
every action tracks itself (`Simulation.Tracks`), in this module for the ways in which actions are
put together and in the ones after it for all that is played. A run may also be cut short while the
other goes on, as far as the simulation admits it.
-/

namespace Overworld

/-! ### What is never taken back -/

/-- A session after another one: what was shown, played, entered and run so far stays. -/
structure Session.Grown (s t : Session) : Prop where
  past : s.host.past <:+ t.host.past
  dialogs : s.host.dialogs.toList <+: t.host.dialogs.toList
  musicStarted : s.host.musicStarted.toList <+: t.host.musicStarted.toList
  sounds : s.host.sounds.toList <+: t.host.sounds.toList
  entered : s.entered ≤ t.entered
  journal : s.journal <:+ t.journal

namespace Session.Grown

variable {s t u : Session}

/-- A session whose records are those of another one has grown from it. -/
theorem of_eq (past : t.host.past = s.host.past) (dialogs : t.host.dialogs = s.host.dialogs)
    (musicStarted : t.host.musicStarted = s.host.musicStarted)
    (sounds : t.host.sounds = s.host.sounds) (entered : t.entered = s.entered)
    (journal : t.journal = s.journal) : s.Grown t where
  past := past ▸ List.suffix_refl _
  dialogs := dialogs ▸ List.prefix_refl _
  musicStarted := musicStarted ▸ List.prefix_refl _
  sounds := sounds ▸ List.prefix_refl _
  entered := Nat.le_of_eq entered.symm
  journal := journal ▸ List.suffix_refl _

theorem refl (s : Session) : s.Grown s := of_eq rfl rfl rfl rfl rfl rfl

theorem trans (h : s.Grown t) (h' : t.Grown u) : s.Grown u where
  past := h.past.trans h'.past
  dialogs := h.dialogs.trans h'.dialogs
  musicStarted := h.musicStarted.trans h'.musicStarted
  sounds := h.sounds.trans h'.sounds
  entered := Nat.le_trans h.entered h'.entered
  journal := h.journal.trans h'.journal

theorem recorded (s : Session) (event : Event) (inFrame : Bool) (depth : Nat) :
    s.Grown (s.recorded event inFrame depth) :=
  { refl s with journal := List.suffix_cons .. }

theorem present (s : Session) (change : Presentation) :
    s.Grown { s with host := change.apply s.host } := by
  cases change with
  | openDialog text =>
    exact { refl s with dialogs := by simp [Presentation.apply, Host.openDialog] }
  | playMusic music =>
    exact { refl s with musicStarted := by simp [Presentation.apply, Host.playMusic] }
  | playSound sound =>
    exact { refl s with sounds := by simp [Presentation.apply, Host.playSound] }
  | _ => exact of_eq rfl rfl rfl rfl rfl rfl

/-- Whatever a deed does to a session, it takes nothing back. -/
theorem deed (s : Session) (d : Deed) : s.Grown (d.apply s) := by
  cases d with
  | record event inFrame depth => exact recorded s event inFrame depth
  | request r inFrame depth =>
    exact (recorded s (.goToScene r.target r.start) inFrame depth).trans
      (of_eq rfl rfl rfl rfl rfl rfl)
  | present change => exact present s change
  | _ => exact of_eq rfl rfl rfl rfl rfl rfl

theorem frame (s : Session) : s.Grown { s with host := s.host.afterFrame } :=
  { refl s with past := List.suffix_cons .. }

theorem entering (game : Game) (s : Session) (name : String) : s.Grown (s.entering game name) :=
  { refl s with journal := List.suffix_cons .. }

theorem arrival (game : Game) (s : Session) (a : Arrival) : s.Grown (a.apply game s) := by
  cases a with
  | ready => exact { refl s with entered := Nat.le_succ _ }
  | _ => exact of_eq rfl rfl rfl rfl rfl rfl

end Session.Grown

/-! ### How an action ends -/

/-- A halt that playing a checked graph can come to. -/
def Halt.Regular : Halt → Prop
  | .noTileSize | .endless => False
  | _ => True

/-- What a call returns: it neither goes on for ever nor asks for a tile of no size. -/
inductive Play.Returns {α : Type} : EStateM.Result Halt Session α → Prop
  | ok (a : α) (s : Session) : Returns (.ok a s)
  | error {e : Halt} (s : Session) (regular : e.Regular) : Returns (.error e s)

theorem Play.returns_error_iff {α : Type} {e : Halt} {s : Session} :
    Returns (α := α) (.error e s) ↔ e.Regular :=
  ⟨fun h => by cases h; assumption, .error s⟩

instance : DecidablePred Halt.Regular
  | .noTileSize | .endless => .isFalse id
  | .variable _ | .host _ | .nestingTooDeep _ => .isTrue trivial

instance {α : Type} : DecidablePred (Play.Returns (α := α))
  | .ok a s => .isTrue (.ok a s)
  | .error _ _ => decidable_of_iff' _ Play.returns_error_iff

/-- Halts among which are those that only unsound sessions come to. -/
def Lenient (ends : Halt → Prop) : Prop := ends .noTileSize ∧ ends .endless

/-- The session in which an action ends, however it ends. -/
def Play.final {α : Type} : EStateM.Result Halt Session α → Session
  | .ok _ s => s
  | .error _ s => s

@[simp] theorem Play.final_ok {α : Type} (a : α) (s : Session) :
    Play.final (.ok a s : EStateM.Result Halt Session α) = s := rfl

/-! ### Simulations -/

/-- The game with another limit to the nesting of events. -/
def Game.withLimit (game : Game) (limit : Nat) : Game :=
  { game with config := { game.config with maxDepth := limit } }

/-- A relation between the sessions of two runs of a game, the second with a limit to nesting of its
own, that frames and the deeds of events keep. -/
structure Simulation (game : Game) (limit : Nat) where
  related : Session → Session → Prop
  /-- The halts to which both runs may come. -/
  mayEnd : Halt → Prop
  /-- The halts to which the first run may come alone, and how the second one then goes on. -/
  mayCut : Halt → Session → Session → Prop
  stage : ∀ {s t}, related s t → t.stage = s.stage
  vars : ∀ {s t}, related s t → t.vars = s.vars
  pending : ∀ {s t}, related s t → t.pending = s.pending
  states : ∀ {s t}, related s t → t.host.states = s.host.states
  music : ∀ {s t}, related s t → t.host.music = s.host.music
  deed : ∀ {s t} {d : Deed}, d.Scripted → related s t → d.Allowed s →
    related (d.apply s) (d.apply t)
  frame : ∀ {s t}, related s t → s.host.stop? = none → t.host.stop? = none ∧
    related { s with host := s.host.afterFrame } { t with host := t.host.afterFrame }
  stop : ∀ {s t stop}, related s t → s.host.stop? = some stop →
    (t.host.stop? = some stop ∧ mayEnd (.host stop)) ∨ mayCut (.host stop) s t
  undeclared : ∀ e, mayEnd (.variable e)
  tooDeep : mayEnd (.nestingTooDeep game.config.maxDepth)
  sound : Lenient mayEnd ∨ ∀ {s t}, related s t → s.Sound
  /-- The limits are the same, or the first run may come to its own alone. -/
  levels : limit = game.config.maxDepth ∨ game.config.maxDepth < limit ∧
    ∀ {s t}, related s t → mayCut (.nestingTooDeep game.config.maxDepth) s t
  grown : ∀ {e s t u}, mayCut e s t → t.Grown u → mayCut e s u

namespace Simulation

variable {game : Game} {limit : Nat} {α β : Type} (sim : Simulation game limit)

theorem deeper (sim : Simulation game limit) : game.config.maxDepth ≤ limit := by
  rcases sim.levels with same | ⟨more, -⟩
  · exact Nat.le_of_eq same.symm
  · exact Nat.le_of_lt more

/-- A simulation that keeps a deed. -/
def Does (sim : Simulation game limit) (d : Deed) : Prop :=
  ∀ s t : Session, sim.related s t → d.Allowed s → sim.related (d.apply s) (d.apply t)

/-- The same simulation, of which the first run may be cut short by any halt. -/
def cutting (sim : Simulation game limit) : Simulation game limit :=
  { sim with
    mayCut := fun _ _ _ => True
    stop := fun _ _ => .inr trivial
    levels := sim.levels.imp_right fun more => ⟨more.1, fun _ => trivial⟩
    grown := fun _ _ => trivial }

/-- How two results match: both runs end alike, or the first was cut short. -/
inductive Joined : EStateM.Result Halt Session α → EStateM.Result Halt Session α → Prop
  | ok {s t : Session} (a : α) (h : sim.related s t) : Joined (.ok a s) (.ok a t)
  | error {s t : Session} {e : Halt} (h : sim.related s t) (may : sim.mayEnd e) :
    Joined (.error e s) (.error e t)
  | cut {s : Session} {e : Halt} {r : EStateM.Result Halt Session α}
    (h : sim.mayCut e s (Play.final r)) : Joined (.error e s) r

/-- A game beside itself, with a property that all changes keep which events make, and the halts to
which it may come. -/
def beside (game : Game) (R : Session → Prop) (ends : Halt → Prop)
    (beat : ∀ s t, Beat s t → R s → R t) (regular : ∀ e, e.Regular → ends e)
    (sound : Lenient ends ∨ ∀ s, R s → s.Sound) : Simulation game game.config.maxDepth where
  related s t := t = s ∧ R s
  mayEnd := ends
  mayCut _ _ _ := False
  stage h := by rw [h.1]
  vars h := by rw [h.1]
  pending h := by rw [h.1]
  states h := by rw [h.1]
  music h := by rw [h.1]
  deed scripted h allowed := ⟨by rw [h.1], beat _ _ (.deed _ scripted allowed) h.2⟩
  frame h goes := ⟨by rw [h.1, goes], by rw [h.1], beat _ _ (.frame goes) h.2⟩
  stop h stops := .inl ⟨by rw [h.1, stops], regular _ trivial⟩
  undeclared e := regular _ trivial
  tooDeep := regular _ trivial
  sound := sound.imp_right fun sound _ _ h => sound _ h.2
  levels := .inl rfl
  grown h _ := h

/-- A game beside itself keeps a deed that keeps the property. -/
theorem does_beside {R : Session → Prop} {ends : Halt → Prop} {beat : ∀ s t, Beat s t → R s → R t}
    {regular : ∀ e, e.Regular → ends e} {sound : Lenient ends ∨ ∀ s, R s → s.Sound} {d : Deed}
    (keeps : ∀ s, d.Allowed s → R s → R (d.apply s)) :
    (beside game R ends beat regular sound).Does d := by
  rintro s t ⟨same, hR⟩ allowed
  exact ⟨by rw [same], keeps s allowed hR⟩

/-- A game beside itself, in the changes that it undergoes within a scene. -/
def within (game : Game) (start : Session) : Simulation game game.config.maxDepth :=
  beside game (Stretch start) (fun _ => True) (fun _ _ step course => course.tail step.stay)
    (fun _ _ => trivial) (.inl ⟨trivial, trivial⟩)

theorem does_within (game : Game) (start : Session) (d : Deed) : (within game start).Does d :=
  does_beside fun _ allowed course => course.tail (.deed d allowed)

end Simulation

/-- An action that takes nothing back. -/
def Play.Grows {α : Type} (act : Play α) : Prop := ∀ s : Session, s.Grown (Play.final (act s))

/-- A second action that does to related sessions what the first one does. -/
structure Simulation.Tracks {game : Game} {limit : Nat} (sim : Simulation game limit) {α : Type}
    (x y : Play α) : Prop where
  joined : ∀ {s t}, sim.related s t → sim.Joined (x s) (y t)
  grows : Play.Grows y

/-- A second action that does so where the first session has a property. -/
structure Simulation.TracksFrom {game : Game} {limit : Nat} (sim : Simulation game limit)
    (P : Session → Prop) {α : Type} (x y : Play α) : Prop where
  joined : ∀ {s t}, sim.related s t → P s → sim.Joined (x s) (y t)
  grows : Play.Grows y

/-! ### Putting actions together -/

/-- What an action does that goes on after another one. -/
theorem Play.bind_apply {α β : Type} (x : Play α) (f : α → Play β) (s : Session) :
    (x >>= f) s =
      match x s with
      | .ok a t => f a t
      | .error e t => .error e t := by
  change EStateM.bind x f s = _
  unfold EStateM.bind
  cases x s <;> rfl

theorem Play.bind_eq_ok_iff {α β : Type} {x : Play α} {f : α → Play β} {b : β} {s t : Session} :
    (x >>= f) s = .ok b t ↔ ∃ a u, x s = .ok a u ∧ f a u = .ok b t := by
  rw [Play.bind_apply]
  constructor
  · cases hx : x s with
    | ok a u => exact fun h => ⟨a, u, rfl, h⟩
    | error e u => exact nofun
  · rintro ⟨a, u, is, h⟩
    rw [is]
    exact h

theorem Play.get_bind_apply {ε σ α : Type} (f : σ → EStateM ε σ α) (s : σ) :
    (get >>= f) s = f s s := rfl

theorem Play.modify_apply (f : Session → Session) (s : Session) :
    (modify f : Play Unit) s = .ok () (f s) := rfl

/-- A frame is played unless the host stops. -/
theorem Play.advance_eq (s : Session) :
    Play.advance s =
      match s.host.stop? with
      | none => .ok () { s with host := s.host.afterFrame }
      | some stop => .error (.host stop) s := by
  unfold Play.advance runHost HostRun.advance Host.advance
  cases s.host.stop? <;> rfl

/-- What a frame does that is played. -/
theorem Play.advance_eq_ok_iff {a : Unit} {s t : Session} :
    Play.advance s = .ok a t ↔
      s.host.stop? = none ∧ t = { s with host := s.host.afterFrame } := by
  rw [Play.advance_eq]
  cases s.host.stop? with
  | none => simp [eq_comm]
  | some stop => simp

/-- Letting entities take part in fades is a deed. -/
theorem Play.setBlending_eq (blending : Bool) (s : Session) :
    Play.setBlending blending s = .ok () ((Deed.blend blending).apply s) := by
  rw [Deed.apply, ← Stage.setBlending_eq]
  rfl

namespace Play.Grows

open Session (Grown)

variable {α β : Type}

theorem pure (a : α) : Grows (Pure.pure a : Play α) := fun s => .refl s

theorem throw (e : Halt) : Grows (MonadExcept.throw e : Play α) := fun s => .refl s

theorem bind {x : Play α} {f : α → Play β} (hx : Grows x) (hf : ∀ a, Grows (f a)) :
    Grows (x >>= f) := by
  intro s
  have first := hx s
  rw [bind_apply]
  cases h : x s with
  | ok a t =>
    rw [h] at first
    exact first.trans (hf a t)
  | error e t =>
    rw [h] at first
    exact first

theorem advance : Grows Play.advance := by
  intro s
  rw [Play.advance_eq]
  cases s.host.stop? with
  | none => exact .frame s
  | some stop => exact .refl s

end Play.Grows

namespace Simulation

variable {game : Game} {limit : Nat} {sim : Simulation game limit} {α β : Type}

/-- Results match after a further action, where what the first run did is known. -/
theorem Joined.bind {x y : Play α} {f g : α → Play β} {s t : Session}
    (h : sim.Joined (x s) (y t))
    (next : ∀ a u v, x s = .ok a u → sim.related u v → sim.Joined (f a u) (g a v))
    (grows : ∀ a, Play.Grows (g a)) : sim.Joined ((x >>= f) s) ((y >>= g) t) := by
  rw [Play.bind_apply, Play.bind_apply]
  generalize hx : x s = r at h next
  generalize y t = r' at h
  cases h with
  | ok a related => exact next a _ _ rfl related
  | error related may => exact .error related may
  | cut cut =>
    apply Joined.cut
    cases r' with
    | ok a v => exact sim.grown cut (grows a v)
    | error e v => exact cut

namespace Tracks

theorem pure (a : α) : sim.Tracks (Pure.pure a) (Pure.pure a) where
  joined h := .ok a h
  grows := .pure a

theorem throw {e : Halt} (may : sim.mayEnd e) :
    sim.Tracks (MonadExcept.throw e : Play α) (MonadExcept.throw e) where
  joined h := .error h may
  grows := .throw e

theorem bind {x y : Play α} {f g : α → Play β} (h : sim.Tracks x y)
    (next : ∀ a, sim.Tracks (f a) (g a)) : sim.Tracks (x >>= f) (y >>= g) where
  joined related := (h.joined related).bind (fun a _ _ _ => (next a).joined) fun a => (next a).grows
  grows := h.grows.bind fun a => (next a).grows

/-- What related sessions agree on may be read. -/
theorem reads {f g : Session → Play α} (same : ∀ {s t}, sim.related s t → g t = g s)
    (next : ∀ s, sim.Tracks (f s) (g s)) : sim.Tracks (get >>= f) (get >>= g) where
  joined {s t} related := by
    change sim.Joined (f s s) (g t t)
    rw [same related]
    exact (next s).joined related
  grows s := (next s).grows s

/-- An action that is a deed, which the stage may decide on, tracks itself. -/
theorem does {x : Play Unit} (d : Stage → Deed) (keeps : ∀ stage, sim.Does (d stage))
    (free : ∀ s, (d s.stage).Allowed s) (is : ∀ s, x s = .ok () ((d s.stage).apply s)) :
    sim.Tracks x x where
  joined {s t} related := by
    rw [is, is, sim.stage related]
    exact .ok () (keeps s.stage s t related (free s))
  grows s := by
    rw [is]
    exact .deed s (d s.stage)

/-- So does one that is a deed of events, in every simulation. -/
theorem deed {x : Play Unit} (d : Stage → Deed) (scripted : ∀ stage, (d stage).Scripted)
    (free : ∀ s, (d s.stage).Allowed s) (is : ∀ s, x s = .ok () ((d s.stage).apply s)) :
    sim.Tracks x x :=
  .does d (fun stage _ _ => sim.deed (scripted stage)) free is

theorem ite {c : Prop} [Decidable c] {x y x' y' : Play α} (yes : sim.Tracks x y)
    (no : sim.Tracks x' y') : sim.Tracks (if c then x else x') (if c then y else y') := by
  split
  · exact yes
  · exact no

theorem forM {xs : List β} {f g : β → Play Unit} (h : ∀ x ∈ xs, sim.Tracks (f x) (g x)) :
    sim.Tracks (xs.forM f) (xs.forM g) := by
  induction xs with
  | nil => exact .pure ()
  | cons x xs ih =>
    exact (h x List.mem_cons_self).bind fun _ => ih fun y hy => h y (List.mem_cons_of_mem _ hy)

/-- A frame tracks itself. -/
theorem advance : sim.Tracks Play.advance Play.advance where
  joined {s t} related := by
    rw [Play.advance_eq, Play.advance_eq]
    cases hs : s.host.stop? with
    | none =>
      obtain ⟨goes, next⟩ := sim.frame related hs
      rw [goes]
      exact .ok () next
    | some stop =>
      rcases sim.stop related hs with ⟨stops, may⟩ | cut
      · rw [stops]
        exact .error related may
      · exact .cut (sim.grown cut (Play.advance_eq t ▸ Play.Grows.advance t))
  grows := .advance

theorem «from» {x y : Play α} (h : sim.Tracks x y) {P : Session → Prop} : sim.TracksFrom P x y where
  joined related _ := h.joined related
  grows := h.grows

end Tracks

namespace TracksFrom

variable {P Q : Session → Prop}

theorem tracks {x y : Play α} (h : sim.TracksFrom (fun _ => True) x y) : sim.Tracks x y where
  joined related := h.joined related trivial
  grows := h.grows

/-- An action that tracks itself keeps the property that the simulation is about. -/
theorem holds {R : Session → Prop} {ends : Halt → Prop} {beat : ∀ s t, Beat s t → R s → R t}
    {regular : ∀ e, e.Regular → ends e} {sound : Lenient ends ∨ ∀ s, R s → s.Sound}
    {s : Session} {x y : Play α} (h : (beside game R ends beat regular sound).TracksFrom P x y)
    (hR : R s) (hP : P s) : R (Play.final (x s)) ∧ ∀ e t, x s = .error e t → ends e := by
  have joined := h.joined ⟨rfl, hR⟩ hP
  generalize x s = r, y s = r' at joined
  cases joined with
  | ok a related => exact ⟨related.2, fun e t is => nomatch is⟩
  | error related may =>
    refine ⟨related.2, fun e t is => ?_⟩
    cases is
    exact may
  | cut cut => exact cut.elim

/-- What tracks itself within a scene is a stretch of it. -/
theorem stretch {s : Session} {x y : Play α} (h : (within game s).TracksFrom P x y) (hP : P s) :
    Stretch s (Play.final (x s)) :=
  (holds h .refl hP).1

theorem stretch_ok {s t : Session} {x y : Play α} {a : α} (h : (within game s).TracksFrom P x y)
    (hP : P s) (is : x s = .ok a t) : Stretch s t := by
  simpa [is] using h.stretch hP

theorem weaken {x y : Play α} (h : sim.TracksFrom Q x y) (imp : ∀ s, P s → Q s) :
    sim.TracksFrom P x y where
  joined related hP := h.joined related (imp _ hP)
  grows := h.grows

/-- Unless the simulation is lenient, its sessions are sound. -/
theorem ofSound {x y : Play α}
    (h : sim.TracksFrom (fun s => P s ∧ (Lenient sim.mayEnd ∨ s.Sound)) x y) :
    sim.TracksFrom P x y where
  joined related hP := h.joined related ⟨hP, sim.sound.imp_right fun sound => sound related⟩
  grows := h.grows

theorem bind {x y : Play α} {f g : α → Play β} (h : sim.TracksFrom P x y)
    (next : ∀ a, sim.TracksFrom (fun u => ∃ s, P s ∧ x s = .ok a u) (f a) (g a)) :
    sim.TracksFrom P (x >>= f) (y >>= g) where
  joined related hP := (h.joined related hP).bind
    (fun a _ _ is related => (next a).joined related ⟨_, hP, is⟩) fun a => (next a).grows
  grows := h.grows.bind fun a => (next a).grows

theorem reads {f g : Session → Play α} (same : ∀ {s t}, sim.related s t → g t = g s)
    (next : ∀ s, sim.TracksFrom (fun u => u = s ∧ P s) (f s) (g s)) :
    sim.TracksFrom P (get >>= f) (get >>= g) where
  joined {s t} related hP := by
    change sim.Joined (f s s) (g t t)
    rw [same related]
    exact (next s).joined related ⟨rfl, hP⟩
  grows s := (next s).grows s

/-- An action that is a deed tracks itself where the deed is done. -/
theorem does {x : Play Unit} {d : Deed} (keeps : sim.Does d) (is : ∀ s, x s = .ok () (d.apply s)) :
    sim.TracksFrom (fun s => d.Allowed s) x x where
  joined {s t} related allowed := by
    rw [is, is]
    exact .ok () (keeps s t related allowed)
  grows s := by
    rw [is]
    exact .deed s d

theorem ite {c : Prop} [Decidable c] {x y x' y' : Play α}
    (yes : c → sim.TracksFrom P x y) (no : ¬c → sim.TracksFrom P x' y') :
    sim.TracksFrom P (if c then x else x') (if c then y else y') := by
  split
  · exact yes ‹_›
  · exact no ‹_›

end TracksFrom

theorem Tracks.stretch {s : Session} {x y : Play α} (h : (within game s).Tracks x y) :
    Stretch s (Play.final (x s)) :=
  (h.from : (within game s).TracksFrom (fun _ => True) x y).stretch trivial

theorem Tracks.stretch_ok {s t : Session} {x y : Play α} {a : α} (h : (within game s).Tracks x y)
    (is : x s = .ok a t) : Stretch s t := by
  simpa [is] using h.stretch

end Simulation

end Overworld
