import Overworld.Proofs.Handlers
import Overworld.Proofs.Pairing
import Overworld.Proofs.Sprites

/-!
What events leave as it was.

Whatever a list runs and however it ends, the scene, the props, the player and the handles of the
sprites stay as they were, and handlers are only added. The actors stay who and where they are; one
is shown or hidden only by events that name it before all others, and the last of them decides
(`Session.Untouched`). So a frame may go through the handlers and the actors by their indices,
however they are looked up: what an index counts is still there when its turn comes
(`Play.enactByIndex`).
-/

namespace Overworld

open Simulation

/-! ### Who is shown or hidden -/

/-- Whether an event shows or hides the actor of an index, among those on the stage, by what they
are: it does so if no actor before that one goes by its name. -/
def Event.shows? (roles : List ActorDef) (index : Nat) : Event → Option Bool
  | .enableActor name =>
    if roles.findIdx? (·.answersTo name) = some index then some true else none
  | .disableActor name =>
    if roles.findIdx? (·.answersTo name) = some index then some false else none
  | _ => none

/-- The last word of some events on whether the actor of an index is to be seen. -/
def Dispatch.lastShown? (roles : List ActorDef) (index : Nat) (ran : List Dispatch) : Option Bool :=
  (ran.filterMap (·.event.shows? roles index)).getLast?

/-- The actors on the stage, by what they are. -/
def Stage.roles (stage : Stage) : List ActorDef := stage.actors.map (·.definition)

/-- What no event changes: the scene, the props, the player, and the handles of the sprites. -/
def Session.surroundings (s : Session) :
    Scene × List SpriteHandle × Option Player × List SpriteHandle :=
  (s.stage.scene, s.stage.props, s.stage.player, s.host.handles)

/-- A session after some events were run, with all that they have left as it was. -/
structure Session.Untouched (s t : Session) (ran : List Dispatch) : Prop extends s.Ran t ran where
  surroundings : t.surroundings = s.surroundings
  /-- No actor comes or goes, and all that changes of one is whether it is to be seen. -/
  actors (index : Nat) :
    t.stage.actors[index]? = s.stage.actors[index]?.map fun actor =>
      { actor with visible := (Dispatch.lastShown? s.stage.roles index ran).getD actor.visible }

namespace Session.Untouched

variable {s t u : Session} {ran more : List Dispatch}

/-- The actors stay what they are. -/
theorem roles_eq (h : s.Untouched t ran) : t.stage.roles = s.stage.roles := by
  refine List.ext_getElem? fun index => ?_
  simp only [Stage.roles, List.getElem?_map, h.actors index, Option.map_map]
  rfl

theorem nil (s : Session) : s.Untouched s [] where
  toRan := .nil s
  surroundings := rfl
  actors index := by simp [Dispatch.lastShown?]

/-- What runs later has the last word. -/
theorem trans (h : s.Untouched t ran) (h' : t.Untouched u more) : s.Untouched u (ran ++ more) where
  toRan := h.toRan.trans h'.toRan
  surroundings := h'.surroundings.trans h.surroundings
  actors index := by
    have last : Dispatch.lastShown? s.stage.roles index (ran ++ more) =
        (Dispatch.lastShown? s.stage.roles index more).or
          (Dispatch.lastShown? s.stage.roles index ran) := by
      simp [Dispatch.lastShown?, List.filterMap_append, List.getLast?_append]
    rw [h'.actors, h.actors, h.roles_eq, last, Option.map_map]
    cases Dispatch.lastShown? s.stage.roles index more <;> rfl

end Session.Untouched

/-! ### Single events -/

/-- What an event leaves of the surroundings and of the actors when it was done. -/
structure Session.Spared (event : Event) (s t : Session) : Prop where
  surroundings : t.surroundings = s.surroundings
  actors (index : Nat) :
    t.stage.actors[index]? = s.stage.actors[index]?.map fun actor =>
      { actor with visible := (event.shows? s.stage.roles index).getD actor.visible }

/-- Nothing is shown or hidden where the actors stay as they were. -/
theorem Session.Spared.of_eq {event : Event} {s t : Session} (none : ∀ roles index,
    event.shows? roles index = none) (surroundings : t.surroundings = s.surroundings)
    (actors : t.stage.actors = s.stage.actors) : s.Spared event t where
  surroundings := surroundings
  actors index := by simp [none, actors]

/-- An event that was written down and did what it does itself has left all else as it was. -/
theorem Session.Spared.untouched {s t : Session} {d : Dispatch} (spared : s.Spared d.event t)
    (told : t.Tells (.event d :: s.journal) (s.stage.handlers ++ d.handler?.toList)) :
    s.Untouched t [d] where
  toRan := told.ran
  surroundings := spared.surroundings
  actors index := by
    rw [spared.actors, Dispatch.lastShown?]
    cases shown : d.event.shows? s.stage.roles index <;> simp [shown]

/-- Mere deeds leave the surroundings and the actors as they were. -/
theorem Deed.Mere.untouched {d : Deed} (mere : d.Mere) (s : Session) :
    (d.apply s).surroundings = s.surroundings ∧ (d.apply s).stage.actors = s.stage.actors := by
  have handles : (d.apply s).host.handles = s.host.handles :=
    congrArg (·.1) (d.roster_apply s)
  cases d with
  | note | background | showBackground | blend | camera | present =>
    exact ⟨congrArg (s.stage.scene, s.stage.props, s.stage.player, ·) handles, rfl⟩
  | _ => exact mere.elim

/-- Showing or hiding the first actor of a name leaves all others as they were. -/
theorem Play.spared_setActorVisible (event : Event) (name : String) (visible : Bool)
    (shows : ∀ roles index, event.shows? roles index =
      if roles.findIdx? (·.answersTo name) = some index then some visible else none) (s : Session) :
    s.Spared event (Play.final (Play.setActorVisible name visible s)) := by
  have named : s.stage.roles.findIdx? (·.answersTo name) =
      s.stage.actors.findIdx? (·.answersTo name) := List.findIdx?_map ..
  rw [Tracks.setActorVisible_eq]
  cases found : s.stage.actors.findIdx? (·.answersTo name) with
  | none =>
    refine ⟨rfl, fun index => ?_⟩
    simp [shows, named, found, Play.note, Play.modify_apply]
  | some first =>
    have handles : ((Deed.showActor first visible).apply s).host.handles = s.host.handles :=
      congrArg (·.1) (Deed.roster_apply s (.showActor first visible))
    obtain ⟨inside, -⟩ := List.findIdx?_eq_some_iff_findIdx_eq.mp found
    have is : s.stage.actors[first]? = some s.stage.actors[first] := List.getElem?_eq_getElem inside
    refine ⟨congrArg (s.stage.scene, s.stage.props, s.stage.player, ·) handles, fun index => ?_⟩
    change ((Deed.showActor first visible).apply s).stage.actors[index]? = _
    simp only [Deed.apply, Session.withActor, is, Option.elim_some, shows, named, found,
      Option.some.injEq, List.getElem?_set]
    by_cases here : first = index
    · subst here
      simp [inside, Actor.setVisible]
    · simp [here]

/-- What is done alone ends where it is done. -/
theorem Play.final_alone (x : Play Unit) (s : Session) :
    Play.final (Play.alone x s) = Play.final (x s) := by
  rw [Play.alone, Play.bind_apply]
  cases x s <;> rfl

/-- Whatever an event does itself, it leaves the surroundings as they were, and all of the actors
but who is to be seen. -/
theorem Play.spared_enact (game : Game) (inFrame : Bool) (event : Event) (s : Session) :
    s.Spared event (Play.final (Play.enact game inFrame event s)) := by
  by_cases fleeting : event.Fleeting inFrame
  · have kept := (Play.Errand.enact game fleeting).keeps
      (I := fun t => t.surroundings = s.surroundings ∧ t.stage.actors = s.stage.actors)
      (fun mere h => ⟨(mere.untouched _).1.trans h.1, (mere.untouched _).2.trans h.2⟩)
      (fun h => h)
    obtain ⟨surroundings, actors⟩ := kept.final (s := s) ⟨rfl, rfl⟩
    refine .of_eq (fun roles index => ?_) surroundings actors
    cases event with
    | enableActor | disableActor => exact fleeting.elim
    | _ => rfl
  · cases event with
    | goToScene target start => exact .of_eq (fun _ _ => rfl) rfl rfl
    | onButtonPress buttons body =>
      cases inFrame with
      | false => exact .of_eq (fun _ _ => rfl) rfl rfl
      | true => exact absurd rfl fleeting
    | setVariable name value =>
      rw [Play.enact, Play.final_alone, Play.setVariable]
      cases s.vars.set name value <;> exact .of_eq (fun _ _ => rfl) rfl rfl
    | enableActor actor =>
      rw [Play.enact, Play.final_alone]
      exact spared_setActorVisible _ actor true (fun _ _ => rfl) s
    | disableActor actor =>
      rw [Play.enact, Play.final_alone]
      exact spared_setActorVisible _ actor false (fun _ _ => rfl) s
    | _ => exact absurd trivial fleeting

/-! ### Lists of events -/

/-- An action that runs events and leaves everything else as it was. -/
def Play.Spares (act : Play Unit) : Prop :=
  ∀ s : Session, ∃ ran, s.Untouched (Play.final (act s)) ran

namespace Play.Spares

variable {game : Game}

theorem forM {f : Event → Play Unit} (h : ∀ event, Spares (f event)) (events : List Event) :
    Spares (events.forM f) := by
  induction events with
  | nil => exact fun s => ⟨[], .nil s⟩
  | cons event events ih =>
    intro s
    obtain ⟨ran, first⟩ := h event s
    have run : (event :: events).forM f s = (f event >>= fun _ => events.forM f) s := rfl
    rw [run, bind_apply]
    cases is : f event s with
    | ok _ t =>
      rw [is] at first
      obtain ⟨more, rest⟩ := ih t
      exact ⟨ran ++ more, first.trans rest⟩
    | error e t =>
      rw [is] at first
      exact ⟨ran, first⟩

/-- What an event does itself comes first, then what it has run; where no level is left, nothing
happens. -/
theorem runEvent (room : Nat) (inFrame : Bool) (event : Event) :
    Spares (Play.runEvent game room inFrame event) := by
  induction room generalizing inFrame event with
  | zero => exact fun s => ⟨[], .nil s⟩
  | succ room ih =>
    intro s
    let d : Dispatch :=
      ⟨event, inFrame, game.config.maxDepth - room, s.host.frame, s.vars, s.stage⟩
    let u := s.recorded event inFrame (game.config.maxDepth - room)
    have spared := spared_enact game inFrame event u
    have alone : s.Untouched (Play.final (Play.enact game inFrame event u)) [d] :=
      Session.Spared.untouched ⟨spared.surroundings, spared.actors⟩ (tells_enact game inFrame event u)
    rw [runEvent_succ, bind_apply]
    cases enacted : Play.enact game inFrame event u with
    | error e t =>
      rw [enacted] at alone
      exact ⟨[d], alone⟩
    | ok next t =>
      rw [enacted] at alone
      cases next with
      | none => exact ⟨[d], alone⟩
      | some next =>
        obtain ⟨ran, rest⟩ := forM (ih next.2) (game.graph.events next.1) t
        exact ⟨d :: ran, alone.trans rest⟩

theorem runEvents (room : Nat) (inFrame : Bool) (events : List Event) :
    Spares (Play.runEvents game room inFrame events) := forM (runEvent room inFrame) events

end Play.Spares

/-! ### Handlers and actors by their indices -/

/-- The lists that the actors have run in a frame. -/
def Stage.updates (stage : Stage) : List Handle := stage.actors.map (·.definition.update)

namespace Play

/-- Do something with what stands at each index of a list, from one index on and for a number of
them. Each is looked up when its turn comes; `missing` is done where nothing stands at it any more.
-/
def atEach {α : Type} (look : Session → List α) (missing : Play Unit) (act : α → Play Unit) :
    (index count : Nat) → Play Unit
  | _, 0 => return
  | index, count + 1 => do
    match (look (← get))[index]? with
    | none => missing
    | some a => act a
    atEach look missing act (index + 1) count

/-- What happens in a frame, with the handlers and the actors gone through by their indices. How
many there are is asked once, before the first of them. -/
def enactByIndex (game : Game) (missing : Play Unit) : Play Unit := do
  atEach (·.stage.handlers) missing (runEvent game game.config.maxDepth true) 0
    (← get).stage.handlers.length
  if (← get).stage.player.isSome then control game
  atEach (·.stage.updates) missing (runList game · true) 0
    (← get).stage.actors.length

/-- As long as what is done leaves the list as it was, an index leads to what stood there. -/
theorem atEach_eq {α : Type} {look : Session → List α} (missing : Play Unit) {act : α → Play Unit}
    (past : List α) {rest : List α}
    (keeps : ∀ a ∈ rest, Keeps (fun s => look s = past ++ rest) (act a))
    {s : Session} (is : look s = past ++ rest) :
    atEach look missing act past.length rest.length s = rest.forM act s := by
  induction rest generalizing past s with
  | nil => rfl
  | cons a rest ih =>
    have found : (look s)[past.length]? = some a := by simp [is]
    have run : (a :: rest).forM act s = (act a >>= fun _ => rest.forM act) s := rfl
    have kept := (keeps a List.mem_cons_self).final is
    rw [List.length_cons, atEach, get_bind_apply, run]
    simp only [found]
    rw [bind_apply, bind_apply]
    have same : past ++ a :: rest = (past ++ [a]) ++ rest := by simp
    cases done : act a s with
    | error e t => rfl
    | ok _ t =>
      rw [done, same] at kept
      have next := ih (past ++ [a])
        (fun b mem => same ▸ keeps b (List.mem_cons_of_mem _ mem)) kept
      rwa [List.length_append] at next

end Play

namespace Play.Keeps

variable {game : Game}

/-- Events leave what the actors have run as it was. -/
theorem updates (room : Nat) (inFrame : Bool) (events : List Event) (updates : List Handle) :
    Keeps (fun s => s.stage.updates = updates) (Play.runEvents game room inFrame events) := by
  refine ⟨fun {s} is => ?_⟩
  have spares : Spares (Play.runEvents game room inFrame events) := .runEvents room inFrame events
  obtain ⟨ran, untouched⟩ := spares s
  have same := congrArg (List.map (·.update)) untouched.roles_eq
  simp only [Stage.roles, List.map_map] at same
  exact same.trans is

end Play.Keeps

/-- **No index comes too late.** What happens in a frame is what happens when each handler and each
actor is looked up by its index as its turn comes, whatever would be done if it were gone. -/
theorem Play.enactByIndex_eq (game : Game) (missing : Play Unit) :
    enactByIndex game missing = enactFrame game := by
  have updates : (get >>= fun t =>
        atEach (·.stage.updates) missing (runList game · true) 0 t.stage.actors.length) =
      get >>= fun t =>
        t.stage.actors.forM fun actor => runList game actor.definition.update true := by
    funext t
    have byIndex :
        atEach (·.stage.updates) missing (runList game · true) 0 t.stage.updates.length t =
          t.stage.updates.forM (runList game · true) t :=
      atEach_eq missing [] (fun update _ => Keeps.updates _ true _ _) rfl
    have each : t.stage.updates.forM (runList game · true) =
        t.stage.actors.forM fun actor => runList game actor.definition.update true := List.forM_map
    rw [each, Stage.updates, List.length_map] at byIndex
    exact byIndex
  have handlers (s : Session) : atEach (·.stage.handlers) missing
      (runEvent game game.config.maxDepth true) 0 s.stage.handlers.length s =
        s.stage.handlers.forM (runEvent game game.config.maxDepth true) s :=
    atEach_eq missing [] (fun event _ =>
      Keeps.inFrame (P := (· = s.stage.handlers)) (.runEvent (Nat.add_zero _) event)) rfl
  funext s
  rw [enactByIndex, enactFrame, get_bind_apply, get_bind_apply, updates, bind_apply, bind_apply,
    handlers]

/-- **Events leave alone what is on the stage.** In any session, at any depth, on entry as well as
in a frame, and however it ends: a list that is run leaves the scene, the props, the player and the
handles of the sprites as they were and takes no handler away, and of the actors it changes only
whether they are to be seen, each by the last event it has run that names this actor first. So every
index of a handler or an actor leads to something when its turn comes in a frame. -/
theorem untouched_by_events (game : Game) (s : Session) :
    (∀ (room : Nat) (inFrame : Bool) (list : Handle), ∃ ran, s.Untouched
      (Play.final (Play.runEvents game room inFrame (game.graph.events list) s)) ran) ∧
    ∀ missing, Play.enactByIndex game missing s = Play.enactFrame game s :=
  ⟨fun room inFrame _ => Play.Spares.runEvents room inFrame _ s,
    fun missing => congrFun (Play.enactByIndex_eq game missing) s⟩

end Overworld
