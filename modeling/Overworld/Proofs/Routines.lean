import Overworld.Proofs.Errands

/-!
What single events do, as routines.

What an event does itself is put together from deeds and frames, and goes by no more than it can
see: the variables, the buttons, the music, and the stage without its sprites (`Session.sight`). A
`Play.Routine` is an action that is put together so: an errand, or one that sets variables and shows
actors as well. What an action of this kind keeps, or does alike in two sessions, is proved by
induction on the routine, once for each property and not again for each event. What the player does
in a frame is taken apart in the same way, into looking on (`Play.Peeks`), an interaction and a
walk.
-/

namespace Overworld

/-! ### What events go by -/

/-- What an event can see of a session: not how the sprites are called, nor what was shown, played
and run before. -/
structure Sight where
  vars : Variables
  states : ButtonStates
  music : Option Music
  scene : Scene
  background : Background
  camera : Pixel
  /-- The actors on the stage, by what they are. -/
  actors : List ActorDef

/-- What an event can see in a session. -/
def Session.sight (s : Session) : Sight :=
  ⟨s.vars, s.host.states, s.host.music, s.stage.scene, s.stage.background, s.stage.camera,
    s.stage.actors.map (·.definition)⟩

/-- The deeds that an event does itself: all but those by which it is written down, registers a
handler or asks for a scene. Variables are set by `Play.setVariable`. -/
def Deed.Ordinary : Deed → Prop
  | note _ | background _ | showBackground | blend _ | camera _ | showActor .. => True
  | present (.picture ..) => False
  | present _ => True
  | _ => False

theorem Deed.Ordinary.scripted {d : Deed} (ordinary : d.Ordinary) : d.Scripted := by
  cases d with
  | turnActor index d => exact ordinary.elim
  | turn d => exact ordinary.elim
  | place map position => exact ordinary.elim
  | remember request => exact ordinary.elim
  | _ => trivial

theorem Deed.Ordinary.allowed {d : Deed} (ordinary : d.Ordinary) (s : Session) : d.Allowed s := by
  cases d with
  | record event inFrame depth => exact ordinary.elim
  | assign name value => exact ordinary.elim
  | place map position => exact ordinary.elim
  | _ => trivial

open Simulation (Looks)

/-- An action that is put together from deeds and frames, and goes by what events can see. -/
inductive Play.Routine : {α : Type} → Play α → Prop
  | pure {α : Type} (a : α) : Routine (Pure.pure a : Play α)
  | bind {α β : Type} {x : Play α} {f : α → Play β} (first : Routine x)
    (next : ∀ a, Routine (f a)) : Routine (x >>= f)
  | look {α : Type} {x : Play α} (f : Sight → Play α) (is : ∀ s, x s = f s.sight s)
    (next : ∀ sight, Routine (f sight)) : Routine x
  | deed {x : Play Unit} (d : Deed) (ordinary : d.Ordinary) (is : ∀ s, x s = .ok () (d.apply s)) :
    Routine x
  | frame : Routine Play.advance
  | setVariable (name : String) (value : Value) : Routine (Play.setVariable name value)
  | await {test : Play Bool} {p : ButtonStates → Bool} (looks : Looks test p) :
    Routine (Play.advanceUntil test Play.patience)

/-- Mere deeds are ordinary ones. -/
theorem Deed.Mere.ordinary {d : Deed} (mere : d.Mere) : d.Ordinary := by
  cases d with
  | present change => cases change <;> exact mere
  | showActor index visible => exact mere.elim
  | _ => exact mere

/-- There is no more to an outlook than events can see. -/
def Sight.outlook (sight : Sight) : Outlook :=
  ⟨sight.vars, sight.states, sight.music, sight.scene.label, sight.scene.map.map (·.bare),
    sight.background, sight.camera⟩

/-- Errands are routines. -/
theorem Play.Errand.routine {α : Type} {x : Play α} (h : Errand x) : Routine x := by
  induction h with
  | pure a => exact .pure a
  | bind first next ih ih' => exact .bind ih ih'
  | look f is next ih => exact .look (fun sight => f sight.outlook) is fun sight => ih sight.outlook
  | deed d mere is => exact .deed d mere.ordinary is
  | frame => exact .frame
  | await looks => exact .await looks

namespace Play.Routine

theorem note (notice : Notice) : Routine (Play.note notice) := (Errand.note notice).routine

theorem changeBackground (change : Background → Background) :
    Routine (Play.changeBackground change) := (Errand.changeBackground change).routine

theorem showBackground : Routine Play.showBackground := Errand.showBackground.routine

theorem intOf (e : Expression) : Routine (Play.intOf e) := (Errand.intOf e).routine

theorem tileAt (x y : Expression) : Routine (Play.tileAt x y) := (Errand.tileAt x y).routine

end Play.Routine

/-! ### Single events -/

/-- The first actor of a name is shown or hidden, and its absence is reported. -/
theorem Simulation.Tracks.setActorVisible_eq (name : String) (visible : Bool) (s : Session) :
    Play.setActorVisible name visible s =
      match s.stage.actors.findIdx? (·.answersTo name) with
      | none => Play.note (.actorMissing name) s
      | some index =>
        Play.note (if visible then .actorEnabled name else .actorDisabled name)
          ((Deed.showActor index visible).apply s) := by
  rw [Play.setActorVisible, Play.get_bind_apply]
  cases found : s.stage.actors.findIdx? (·.answersTo name) with
  | none => rfl
  | some index =>
    obtain ⟨inside, -⟩ := List.findIdx?_eq_some_iff_findIdx_eq.mp found
    have is : s.stage.actors[index]? = some s.stage.actors[index] := List.getElem?_eq_getElem inside
    simp only [Deed.apply, Session.withActor, is]
    rfl

open Simulation.Tracks (setActorVisible_eq)

namespace Play.Routine

theorem setActorVisible (name : String) (visible : Bool) :
    Routine (Play.setActorVisible name visible) := by
  refine .look (fun sight => match sight.actors.findIdx? (·.answersTo name) with
    | none => Play.note (.actorMissing name)
    | some index => do
      (fun s => .ok () ((Deed.showActor index visible).apply s) : Play Unit)
      Play.note (if visible then .actorEnabled name else .actorDisabled name)) (fun s => ?_)
    fun sight => ?_
  · have same : s.sight.actors.findIdx? (·.answersTo name) =
        s.stage.actors.findIdx? (·.answersTo name) := List.findIdx?_map ..
    rw [setActorVisible_eq, same]
    cases s.stage.actors.findIdx? (·.answersTo name) <;> rfl
  · split
    · exact note _
    · exact (deed (.showActor _ visible) trivial fun _ => rfl).bind fun _ => note _

theorem alone {x : Play Unit} (h : Routine x) : Routine (Play.alone x) := h.bind fun _ => .pure none

end Play.Routine

/-- An event that registers a handler or asks for a scene when it is run. -/
def Event.Lasting (inFrame : Bool) : Event → Prop
  | .onButtonPress .. => inFrame = false
  | .goToScene .. => True
  | _ => False

/-- What an event does itself is a routine, unless it registers a handler or asks for a scene. -/
theorem Play.Routine.enact (game : Game) {inFrame : Bool} {event : Event}
    (passing : ¬event.Lasting inFrame) : Routine (Play.enact game inFrame event) := by
  by_cases fleeting : event.Fleeting inFrame
  · exact (Errand.enact game fleeting).routine
  · cases event with
    | goToScene target start => exact absurd trivial passing
    | onButtonPress buttons body =>
      cases inFrame with
      | false => exact absurd rfl passing
      | true => exact absurd rfl fleeting
    | setVariable name value => exact .alone (.setVariable name value)
    | disableActor actor => exact .alone (setActorVisible actor false)
    | enableActor actor => exact .alone (setActorVisible actor true)
    | _ => exact absurd trivial fleeting

/-! ### What routines keep -/

/-- An action that keeps a property, however it ends. -/
structure Play.Keeps {α : Type} (P : Session → Prop) (act : Play α) : Prop where
  final : ∀ {s}, P s → P (Play.final (act s))

namespace Play.Keeps

variable {α β : Type} {P : Session → Prop}

theorem pure (a : α) : Keeps P (Pure.pure a : Play α) := ⟨id⟩

theorem throw (e : Halt) : Keeps P (MonadExcept.throw e : Play α) := ⟨id⟩

theorem bind {x : Play α} {f : α → Play β} (first : Keeps P x) (next : ∀ a, Keeps P (f a)) :
    Keeps P (x >>= f) := by
  refine ⟨fun {s} hs => ?_⟩
  have kept := first.final hs
  rw [bind_apply]
  cases is : x s with
  | ok a t =>
    rw [is] at kept
    exact (next a).final kept
  | error e t =>
    rw [is] at kept
    exact kept

theorem reads {f : Session → Play α} (next : ∀ s, Keeps P (f s)) : Keeps P (get >>= f) :=
  ⟨fun {s} => (next s).final⟩

theorem ite {c : Prop} [Decidable c] {x y : Play α} (yes : Keeps P x) (no : Keeps P y) :
    Keeps P (if c then x else y) := by
  split
  · exact yes
  · exact no

theorem forM {f : β → Play Unit} (h : ∀ x, Keeps P (f x)) (xs : List β) :
    Keeps P (xs.forM f) := by
  induction xs with
  | nil => exact .pure ()
  | cons x xs ih => exact (h x).bind fun _ => ih

theorem deed {x : Play Unit} (d : Deed) (keeps : ∀ s, P s → P (d.apply s))
    (is : ∀ s, x s = .ok () (d.apply s)) : Keeps P x := by
  refine ⟨fun {s} hs => ?_⟩
  rw [is]
  exact keeps s hs

theorem advance (frame : ∀ s, P s → P { s with host := s.host.afterFrame }) :
    Keeps P Play.advance := by
  refine ⟨fun {s} hs => ?_⟩
  rw [Play.advance_eq]
  cases s.host.stop? with
  | none => exact frame s hs
  | some stop => exact hs

end Play.Keeps

/-- What ordinary deeds, frames and variables keep is kept by every routine. -/
theorem Play.Routine.keeps {α : Type} {x : Play α} (h : Routine x) {P : Session → Prop}
    (deed : ∀ (d : Deed) s, d.Ordinary → P s → P (d.apply s))
    (vars : ∀ s vars, P s → P { s with vars := vars })
    (frame : ∀ s, P s → P { s with host := s.host.afterFrame }) : Keeps P x := by
  induction h with
  | pure a => exact .pure a
  | bind first next ih ih' => exact ih.bind ih'
  | look f is next ih =>
    refine ⟨fun {s} hs => ?_⟩
    rw [is]
    exact (ih s.sight).final hs
  | deed d ordinary is => exact .deed d (fun s => deed d s ordinary) is
  | frame => exact .advance frame
  | setVariable name value =>
    refine ⟨fun {s} hs => ?_⟩
    unfold Play.setVariable
    cases s.vars.set name value with
    | ok set => exact vars s set hs
    | error e => exact hs
  | @await test p looks =>
    have waits (n : Nat) : Keeps P (Play.advanceUntil test n) := by
      induction n with
      | zero => exact .throw _
      | succ n ih =>
        refine ⟨fun {s} hs => ?_⟩
        rw [looks.advanceUntil_succ]
        split
        · exact hs
        · exact ((Keeps.advance frame).bind fun _ => ih).final hs
    exact waits _

/-! ### Looking on -/

/-- An action that only looks at the session. -/
structure Play.Peeks {α : Type} (act : Play α) : Prop where
  sees (s : Session) : (∃ a, act s = .ok a s) ∨ ∃ e, act s = .error e s

namespace Play.Peeks

variable {α β : Type}

theorem pure (a : α) : Peeks (Pure.pure a : Play α) := ⟨fun _ => .inl ⟨a, rfl⟩⟩

theorem throw (e : Halt) : Peeks (MonadExcept.throw e : Play α) := ⟨fun _ => .inr ⟨e, rfl⟩⟩

theorem bind {x : Play α} {f : α → Play β} (first : Peeks x) (next : ∀ a, Peeks (f a)) :
    Peeks (x >>= f) := by
  refine ⟨fun s => ?_⟩
  rw [bind_apply]
  rcases first.sees s with ⟨a, is⟩ | ⟨e, is⟩
  · rw [is]
    exact (next a).sees s
  · rw [is]
    exact .inr ⟨e, rfl⟩

theorem reads {f : Session → Play α} (next : ∀ s, Peeks (f s)) : Peeks (get >>= f) :=
  ⟨fun s => (next s).sees s⟩

theorem ite {c : Prop} [Decidable c] {x y : Play α} (yes : Peeks x) (no : Peeks y) :
    Peeks (if c then x else y) := by
  split
  · exact yes
  · exact no

theorem eq_of_ok {x : Play α} (h : Peeks x) {a : α} {s t : Session} (is : x s = .ok a t) : t = s := by
  rcases h.sees s with ⟨b, same⟩ | ⟨e, other⟩
  · cases is.symm.trans same
    rfl
  · exact nomatch is.symm.trans other

theorem pressed (button : Button) : Peeks (Play.pressed button) := .reads fun _ => .pure _

theorem tileOf (map : TileMap) (p : Pixel) : Peeks (Play.tileOf map p) := by
  unfold Play.tileOf
  split
  · exact .pure _
  · exact .throw _

theorem actorInFront (game : Game) (map : TileMap) (player : Player) :
    Peeks (Play.actorInFront game map player) := by
  refine (tileOf map _).bind fun tile => .reads fun s => ?_
  dsimp only
  split
  · exact .pure _
  · split
    · exact .pure _
    · exact .ite (.pure _) (.pure _)

/-- What only looks on keeps everything. -/
theorem keeps {x : Play α} (h : Peeks x) {P : Session → Prop} : Play.Keeps P x := by
  refine ⟨fun {s} hs => ?_⟩
  rcases h.sees s with ⟨a, is⟩ | ⟨e, is⟩
  · rw [is]
    exact hs
  · rw [is]
    exact hs

end Play.Peeks

/-! ### The player before an actor -/

namespace Play

/-- The actor that the player turns to, if the button for it is pressed. -/
def addressed (game : Game) (map : TileMap) (player : Player) : Play (Option (Nat × Actor)) := do
  if ← pressed .activate then actorInFront game map player else return none

/-- Let the actor turn to the player and do what it has to do. -/
def interact (game : Game) (player : Player) (index : Nat) (actor : Actor) : Play Unit := do
  faceActor index player.direction.opposite
  runList game actor.definition.interact true
  advance

/-- Walk across, and then up or down. -/
def walkAbout (game : Game) (map : TileMap) : Play Unit := do
  walkEither game map .left .right
  walkEither game map .up .down

/-- Control is an interaction if the player turns to an actor, and else a walk. -/
theorem control_eq (game : Game) :
    control game = get >>= fun s => match s.stage.map, s.stage.player with
      | some map, some player => do
        match ← addressed game map player with
        | some (index, actor) => interact game player index actor
        | none => walkAbout game map
      | _, _ => return := by
  unfold control addressed interact walkAbout
  refine congrArg _ (funext fun s => ?_)
  dsimp only
  cases s.stage.map with
  | none => rfl
  | some map =>
    cases s.stage.player with
    | none => rfl
    | some player =>
      simp only [bind_assoc]
      refine congrArg _ (funext fun activates => ?_)
      cases activates with
      | false => simp only [Bool.false_eq_true, if_false, pure_bind]
      | true =>
        simp only [if_true]
        refine congrArg _ (funext fun found => ?_)
        cases found with
        | none => rfl
        | some found => simp only [bind_pure_unit]

end Play

theorem Play.Peeks.addressed (game : Game) (map : TileMap) (player : Player) :
    Peeks (Play.addressed game map player) :=
  (pressed _).bind fun _ => .ite (actorInFront game map player) (.pure _)

end Overworld
