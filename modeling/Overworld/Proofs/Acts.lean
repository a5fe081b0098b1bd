import Overworld.Proofs.Calls

/-!
What playing does, act by act, and what is going on meanwhile.

Some of what is played takes time and has to be brought to an end: a scene is opened, the background
fades, a dialog is open, the music fades out, the camera is on its way, the player walks. The `Mode`
of a session says what of this is going on. An `Act` is a change of a session in a mode, small enough
that nothing halts in the middle of one, and every action is a sequence of acts (`Play.Passes`): where
it ends the mode is the one it promises, and where it halts the mode is one in which it may. So what
holds in a mode, and of every frame that passes meanwhile, is proved by one look at each act.
-/

namespace Overworld

open Simulation

/-! ### Modes -/

/-- What is going on that has to be brought to an end. -/
inductive Doing where
  | nothing
  /-- A scene was entered, and the camera is not there yet. -/
  | opening
  | fading
  | talking
  /-- The music fades out. -/
  | hushing
  /-- The camera is on its way from one point to another. -/
  | panning (start goal : Pixel)
deriving DecidableEq

/-- What is going on in a session. -/
structure Mode where
  doing : Doing
  /-- Whether the player walks, so that its picture may be one of the walk. -/
  walking : Bool
deriving DecidableEq

/-- The mode in which events are run while the player stands. -/
def Mode.still : Mode := ⟨.nothing, false⟩

/-- The mode in which a scene is opened. -/
def Mode.opening : Mode := ⟨.opening, false⟩

@[simp] theorem Mode.doing_still : Mode.still.doing = .nothing := rfl

/-- What may be going on when playing halts: only the host and an endless wait stop it in the middle
of something, and never while a scene is opened. -/
def Halt.Leaves (e : Halt) (x : Doing) : Prop :=
  match e with
  | .host _ | .endless => x ≠ .opening
  | _ => x = .nothing

theorem Halt.Leaves.ne_opening {e : Halt} {x : Doing} (h : e.Leaves x) : x ≠ .opening := by
  rintro rfl
  cases e with
  | host stop => exact h rfl
  | endless => exact h rfl
  | «variable» e => cases h
  | nestingTooDeep limit => cases h
  | noTileSize => cases h

/-! ### Acts -/

/-- An event that the music obeys. -/
def Event.Musical : Event → Prop
  | .playMusic .. | .stopMusic => True
  | _ => False

/-- The deeds that leave the camera, the dialog, the music, the background and the player as they
are. -/
def Deed.Plain : Deed → Prop
  | record event _ _ => ¬event.Musical
  | present (.alpha _) | present (.playSound _) => True
  | present _ | background _ | showBackground | camera _ | turn _ | place .. => False
  | _ => True

/-- What plain deeds leave as it is. -/
structure Session.Undisturbed (s t : Session) : Prop where
  map : t.stage.map = s.stage.map
  camera : t.stage.camera = s.stage.camera
  shown : t.host.camera = s.host.camera
  frames : t.host.frames = s.host.frames
  dialog : t.host.dialog = s.host.dialog
  music : t.host.music = s.host.music
  started : t.host.musicStarted = s.host.musicStarted
  background : t.stage.background = s.stage.background
  backdrop : t.host.background = s.host.background
  scene : Entry.sceneName? t.journal = Entry.sceneName? s.journal

theorem Deed.undisturbed {d : Deed} (plain : d.Plain) (s : Session) :
    s.Undisturbed (d.apply s) := by
  cases d with
  | present change =>
    cases change with
    | alpha strength => constructor <;> rfl
    | playSound sound => constructor <;> rfl
    | _ => exact plain.elim
  | background b => exact plain.elim
  | showBackground => exact plain.elim
  | camera p => exact plain.elim
  | turn d => exact plain.elim
  | place map p => exact plain.elim
  | _ => constructor <;> rfl

/-- An arrival on the map of the stage. -/
def Arrival.Fits (s : Session) : Arrival → Prop
  | player map .. => s.stage.map = some map
  | prop map .. | actor map .. => map = s.stage.map
  | _ => True

/-- A point on the way from one point to another, or beside it in the rectangle that they span. -/
def Pixel.Within (start goal p : Pixel) : Prop :=
  (min start.x goal.x ≤ p.x ∧ p.x ≤ max start.x goal.x) ∧
    min start.y goal.y ≤ p.y ∧ p.y ≤ max start.y goal.y

namespace Session

/-- The session with another background, on the stage and in the host. -/
def dressed (s : Session) (b : Background) : Session :=
  Deed.showBackground.apply ((Deed.background b).apply s)

/-- The session with its camera elsewhere, on the stage and in the host. -/
def pointed (s : Session) (p : Pixel) : Session :=
  (Deed.present (.camera p)).apply ((Deed.camera p).apply s)

/-- The session on the bare stage of a scene, with the background of the scene. -/
def opened (game : Game) (s : Session) (name : String) : Session :=
  Deed.showBackground.apply (s.entering game name)

end Session

/-- One change of a session in a mode. -/
inductive Act (game : Game) : Mode × Session → Mode × Session → Prop
  | deed {m : Mode} {s : Session} (d : Deed) (plain : d.Plain) (allowed : d.Allowed s) :
    Act game (m, s) (m, d.apply s)
  | frame {m : Mode} {s : Session} (shown : m.doing ≠ .opening) (goes : s.host.stop? = none) :
    Act game (m, s) (m, { s with host := s.host.afterFrame })
  | arrive {m : Mode} {s : Session} (a : Arrival) (opens : a.Furnishes ∨ m.doing = .opening)
    (allowed : a.Allowed s) (fits : a.Fits s) : Act game (m, s) (m, a.apply game s)
  /-- The camera of the host comes to where that of the stage is. -/
  | reveal {w : Bool} {s : Session} :
    Act game (⟨.opening, w⟩, s) (⟨.nothing, w⟩, (Deed.present (.camera s.stage.camera)).apply s)
  /-- The background is to fade. -/
  | veil {w : Bool} {s : Session} (visible : Bool) :
    Act game (⟨.nothing, w⟩, s) (⟨.fading, w⟩, s.dressed ⟨s.stage.background.name, visible, true⟩)
  /-- The background fades no more. -/
  | unveil {x : Doing} {w : Bool} {s : Session} (fades : x = .nothing ∨ x = .fading)
    (visible : Bool) :
    Act game (⟨x, w⟩, s) (⟨.nothing, w⟩, s.dressed ⟨s.stage.background.name, visible, false⟩)
  /-- The scene is left. -/
  | hide {m : Mode} {s : Session} :
    Act game (m, s) (m, s.dressed { s.stage.background with visible := false })
  | openDialog {w : Bool} {s : Session} (text : String) :
    Act game (⟨.nothing, w⟩, s) (⟨.talking, w⟩, (Deed.present (.openDialog text)).apply s)
  | closeDialog {w : Bool} {s : Session} :
    Act game (⟨.talking, w⟩, s) (⟨.nothing, w⟩, (Deed.present .closeDialog).apply s)
  /-- Music is asked for while none is playing. -/
  | playMusic {w : Bool} {s : Session} (silent : s.host.music = none) (name : String) (volume : Int)
    (loops inFrame : Bool) (depth : Nat) :
    Act game (⟨.nothing, w⟩, s)
      (⟨.nothing, w⟩, (Deed.present (.playMusic ⟨name, Play.hundredth volume, loops⟩)).apply
        (s.recorded (.playMusic name volume loops) inFrame depth))
  /-- Music is asked for while some is playing, which goes on. -/
  | keepMusic {w : Bool} {s : Session} (playing : s.host.music ≠ none) (name : String) (volume : Int)
    (loops inFrame : Bool) (depth : Nat) :
    Act game (⟨.nothing, w⟩, s)
      (⟨.nothing, w⟩, s.recorded (.playMusic name volume loops) inFrame depth)
  /-- The music is to fade out. -/
  | hush {w : Bool} {s : Session} (inFrame : Bool) (depth : Nat) :
    Act game (⟨.nothing, w⟩, s) (⟨.hushing, w⟩, s.recorded .stopMusic inFrame depth)
  | soften {w : Bool} {s : Session} (volume : Float32) :
    Act game (⟨.hushing, w⟩, s) (⟨.hushing, w⟩, (Deed.present (.musicVolume volume)).apply s)
  | stopMusic {w : Bool} {s : Session} :
    Act game (⟨.hushing, w⟩, s) (⟨.nothing, w⟩, (Deed.present .stopMusic).apply s)
  /-- The camera sets out from where it is to a point within its bounds. -/
  | setOut {w : Bool} {s : Session} {map : TileMap} (onMap : s.stage.map = some map)
    (target : Pixel) :
    Act game (⟨.nothing, w⟩, s)
      (⟨.panning s.stage.camera ((ScrollBounds.ofMap map game.config).clamp target), w⟩, s)
  | pan {w : Bool} {s : Session} {start goal p : Pixel} (on : start.Within goal p) :
    Act game (⟨.panning start goal, w⟩, s)
      (⟨.panning start goal, w⟩, (Deed.present (.camera p)).apply s)
  | stop {w : Bool} {s : Session} {start goal : Pixel} :
    Act game (⟨.panning start goal, w⟩, s) (⟨.nothing, w⟩, s.pointed goal)
  /-- The player turns, and stands still as it does. -/
  | turn {x : Doing} {w : Bool} {s : Session} (d : Direction) :
    Act game (⟨x, w⟩, s) (⟨x, false⟩, (Deed.turn d).apply s)
  | walk {x : Doing} {w : Bool} {s : Session} : Act game (⟨x, w⟩, s) (⟨x, true⟩, s)
  | picture {x : Doing} {s : Session} {player : Player} (is : s.stage.player = some player)
    (frame : Nat) :
    Act game (⟨x, true⟩, s) (⟨x, true⟩, (Deed.present (.picture player.sprite frame)).apply s)
  /-- The player makes a stride, with the camera behind it. -/
  | stride {s : Session} {map : TileMap} (onMap : s.stage.map = some map)
    (free : s.stage.request = none) (position : Pixel) :
    Act game (⟨.nothing, true⟩, s)
      (⟨.nothing, true⟩, ((Deed.place map position).apply s).pointed
        ((ScrollBounds.ofMap map game.config).following map position))

/-- What happens in a session, act by act. -/
abbrev Acts (game : Game) : Mode × Session → Mode × Session → Prop := Relation.ReflTransGen (Act game)

/-- What every act keeps is kept by any number of them. -/
theorem Acts.keeps {game : Game} {P : Mode → Session → Prop} {m m' : Mode} {s t : Session}
    (h : Acts game (m, s) (m', t))
    (act : ∀ {m m' : Mode} {s t : Session}, Act game (m, s) (m', t) → P m s → P m' t)
    (hs : P m s) : P m' t := by
  have holds : ∀ b, Acts game (m, s) b → P b.1 b.2 := by
    intro b h
    induction h with
    | refl => exact hs
    | tail _ last ih => exact act last ih
  exact holds (m', t) h

/-- An act is a course of changes. -/
theorem Act.course {game : Game} {m m' : Mode} {s t : Session} (h : Act game (m, s) (m', t)) :
    Course game s t := by
  have deed (s : Session) (d : Deed) (allowed : d.Allowed s) : Course game s (d.apply s) :=
    .single (.stay (.deed d allowed))
  cases h with
  | deed d plain allowed => exact deed _ d allowed
  | frame shown goes => exact .single (.stay (.frame goes))
  | arrive a opens allowed fits => exact .single (.arrive a allowed)
  | playMusic silent name volume loops inFrame depth =>
    have recorded := deed s (.record (.playMusic name volume loops) inFrame depth) fun _ _ => nofun
    exact recorded.trans (deed _ (.present _) trivial)
  | keepMusic playing name volume loops inFrame depth =>
    exact deed s (.record (.playMusic name volume loops) inFrame depth) fun _ _ => nofun
  | hush inFrame depth => exact deed s (.record .stopMusic inFrame depth) fun _ _ => nofun
  | setOut onMap target => exact .refl
  | walk => exact .refl
  | veil visible | unveil fades visible | hide =>
    exact (deed s (.background _) trivial).trans (deed _ .showBackground trivial)
  | stop => exact (deed s (.camera _) trivial).trans (deed _ (.present (.camera _)) trivial)
  | @stride _ map onMap free position =>
    have placed := deed s (.place map position) free
    exact placed.trans ((deed _ (.camera _) trivial).trans (deed _ (.present (.camera _)) trivial))
  | turn d => exact deed s (.turn d) trivial
  | reveal | openDialog | closeDialog | soften | stopMusic | pan | picture =>
    exact deed s (.present _) trivial

/-! ### Actions, act by act -/

/-- How an action that is begun in one mode ends in another: after some acts, or with a halt that may
come in the mode to which they led. -/
inductive Play.Comes {α : Type} (game : Game) (a : Mode × Session) (m : Mode) :
    EStateM.Result Halt Session α → Prop
  | ok (x : α) {t : Session} (acts : Acts game a (m, t)) : Comes game a m (.ok x t)
  | error {e : Halt} {m' : Mode} {t : Session} (acts : Acts game a (m', t))
    (leaves : e.Leaves m'.doing) : Comes game a m (.error e t)

/-- An action that leads from one mode to another in sessions that have a property. -/
structure Play.PassesFrom {α : Type} (game : Game) (P : Session → Prop) (m m' : Mode)
    (act : Play α) : Prop where
  comes : ∀ {s}, P s → Comes game (m, s) m' (act s)

/-- An action that leads from one mode to another. -/
structure Play.Passes {α : Type} (game : Game) (m m' : Mode) (act : Play α) : Prop where
  comes : ∀ s, Comes game (m, s) m' (act s)

namespace Play

variable {game : Game} {α β : Type} {m m' m'' : Mode}

/-- What comes of an action after some acts. -/
theorem Comes.after {a b : Mode × Session} {r : EStateM.Result Halt Session α}
    (acts : Acts game a b) (h : Comes game b m r) : Comes game a m r := by
  cases h with
  | ok x rest => exact .ok x (acts.trans rest)
  | error rest leaves => exact .error (acts.trans rest) leaves

theorem Comes.bind {a : Mode × Session} {x : Play α} {f : α → Play β} {s : Session}
    (h : Comes game a m' (x s))
    (next : ∀ y t, x s = .ok y t → Comes game (m', t) m'' (f y t)) :
    Comes game a m'' ((x >>= f) s) := by
  rw [bind_apply]
  generalize is : x s = r at h next
  cases h with
  | ok y acts => exact (next y _ rfl).after acts
  | error acts leaves => exact .error acts leaves

namespace Passes

theorem «from» {act : Play α} (h : Passes game m m' act) {P : Session → Prop} :
    PassesFrom game P m m' act where
  comes _ := h.comes _

theorem pure (x : α) : Passes game m m (Pure.pure x : Play α) where
  comes _ := .ok x .refl

theorem throw {e : Halt} (leaves : e.Leaves m.doing) :
    Passes game m m' (MonadExcept.throw e : Play α) where
  comes _ := .error .refl leaves

theorem bind {x : Play α} {f : α → Play β} (h : Passes game m m' x)
    (next : ∀ y, Passes game m' m'' (f y)) : Passes game m m'' (x >>= f) where
  comes s := (h.comes s).bind fun y t _ => (next y).comes t

theorem reads {f : Session → Play α} (next : ∀ s, Passes game m m' (f s)) :
    Passes game m m' (get >>= f) where
  comes s := (next s).comes s

/-- An action that is one act. -/
theorem act {x : Play Unit} {f : Session → Session} (does : ∀ s, Act game (m, s) (m', f s))
    (is : ∀ s, x s = .ok () (f s)) : Passes game m m' x where
  comes s := by
    rw [is]
    exact .ok () (.single (does s))

/-- An action that is a plain deed, on which the stage may decide. -/
theorem deed {x : Play Unit} (d : Stage → Deed) (plain : ∀ stage, (d stage).Plain)
    (allowed : ∀ s, (d s.stage).Allowed s) (is : ∀ s, x s = .ok () ((d s.stage).apply s)) :
    Passes game m m x :=
  .act (fun s => .deed (d s.stage) (plain s.stage) (allowed s)) is

/-- An action that is some acts and then another one. -/
theorem acts {x y : Play α} (f : Session → Session) (acts : ∀ s, Acts game (m, s) (m', f s))
    (is : ∀ s, x s = y (f s)) (h : Passes game m' m'' y) : Passes game m m'' x where
  comes s := by
    rw [is]
    exact (h.comes (f s)).after (acts s)

theorem ite {c : Prop} [Decidable c] {x y : Play α} (yes : Passes game m m' x)
    (no : Passes game m m' y) : Passes game m m' (if c then x else y) := by
  split
  · exact yes
  · exact no

theorem forM {xs : List β} {f : β → Play Unit} (h : ∀ x ∈ xs, Passes game m m (f x)) :
    Passes game m m (xs.forM f) := by
  induction xs with
  | nil => exact .pure ()
  | cons x xs ih =>
    exact (h x List.mem_cons_self).bind fun _ => ih fun y hy => h y (List.mem_cons_of_mem _ hy)

/-- Something that is done once for each of some numbers. -/
theorem forSteps {f : Nat → Play Unit} {first count : Nat}
    (h : ∀ step, first ≤ step → step < first + count → Passes game m m (f step)) :
    Passes game m m (Overworld.forSteps f first count) := by
  induction count generalizing first with
  | zero => exact .pure ()
  | succ count ih =>
    refine (h first (Nat.le_refl _) (by omega)).bind fun _ => ih fun step least less => ?_
    exact h step (by omega) (by omega)

/-- A frame passes unless the host stops. -/
theorem advance (shown : m.doing ≠ .opening) : Passes game m m Play.advance where
  comes s := by
    rw [Play.advance_eq]
    cases goes : s.host.stop? with
    | none => exact .ok () (.single (.frame shown goes))
    | some stop => exact .error .refl shown

end Passes

namespace PassesFrom

variable {P Q : Session → Prop}

theorem passes {act : Play α} (h : PassesFrom game (fun _ => True) m m' act) :
    Passes game m m' act where
  comes _ := h.comes trivial

theorem weaken {act : Play α} (h : PassesFrom game Q m m' act) (imp : ∀ s, P s → Q s) :
    PassesFrom game P m m' act where
  comes hP := h.comes (imp _ hP)

/-- The second action knows what the first one has done. -/
theorem bind {x : Play α} {f : α → Play β} (h : PassesFrom game P m m' x)
    (next : ∀ y, PassesFrom game (fun u => ∃ s, P s ∧ x s = .ok y u) m' m'' (f y)) :
    PassesFrom game P m m'' (x >>= f) where
  comes hP := (h.comes hP).bind fun y _ is => (next y).comes ⟨_, hP, is⟩

/-- The second action is begun with the property that the first one keeps. -/
theorem keeping {x : Play α} {f : α → Play β} (h : PassesFrom game P m m' x)
    (keeps : ∀ {s t y}, P s → x s = .ok y t → P t) (next : ∀ y, PassesFrom game P m' m'' (f y)) :
    PassesFrom game P m m'' (x >>= f) where
  comes hP := (h.comes hP).bind fun y _ is => (next y).comes (keeps hP is)

theorem forM {xs : List β} {f : β → Play Unit} (h : ∀ x, PassesFrom game P m m (f x))
    (keeps : ∀ x {s t}, P s → f x s = .ok () t → P t) : PassesFrom game P m m (xs.forM f) := by
  induction xs with
  | nil => exact (Passes.pure ()).from
  | cons x xs ih => exact (h x).keeping (keeps x) fun _ => ih

theorem reads {f : Session → Play α}
    (next : ∀ s, PassesFrom game (fun u => u = s ∧ P s) m m' (f s)) :
    PassesFrom game P m m' (get >>= f) where
  comes {s} hP := (next s).comes ⟨rfl, hP⟩

theorem act {x : Play Unit} {f : Session → Session} (does : ∀ s, P s → Act game (m, s) (m', f s))
    (is : ∀ s, x s = .ok () (f s)) : PassesFrom game P m m' x where
  comes {s} hP := by
    rw [is]
    exact .ok () (.single (does s hP))

theorem ite {c : Prop} [Decidable c] {x y : Play α} (yes : c → PassesFrom game P m m' x)
    (no : ¬c → PassesFrom game P m m' y) : PassesFrom game P m m' (if c then x else y) := by
  split
  · exact yes ‹_›
  · exact no ‹_›

end PassesFrom

end Play

end Overworld
