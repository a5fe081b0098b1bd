import Overworld.Proofs.Routines

/-!
Events track themselves in every simulation.

What a single event does itself is a routine, and a routine tracks itself, since related sessions
look alike and what it does are deeds and frames (`Simulation.Tracks.routine`).
`Simulation.Tracks.runEvent` follows the recursion on the levels that are left to nest: where the
first run has none left, the second may still have some.
-/

namespace Overworld.Simulation

variable {game : Game} {limit : Nat} {sim : Simulation game limit}

/-! ### Waiting for the buttons -/

section

variable {test : Play Bool} {p : ButtonStates → Bool}

theorem Looks.grows (looks : Looks test p) (n : Nat) : Play.Grows (Play.advanceUntil test n) := by
  induction n with
  | zero => exact .throw _
  | succ n ih =>
    intro s
    rw [looks.advanceUntil_succ]
    split
    · exact .refl s
    · exact (Play.Grows.bind .advance fun _ => ih) s

/-- Waiting can go on for as long as the host does, if some frames are left for it. -/
theorem Looks.joined (looks : Looks test p) {n : Nat} {s t : Session} (related : sim.related s t)
    (enough : Lenient sim.mayEnd ∨ s.Sound ∧ s.host.framesLeft < n) :
    sim.Joined (Play.advanceUntil test n s) (Play.advanceUntil test n t) := by
  induction n generalizing s t with
  | zero =>
    rcases enough with lenient | ⟨-, enough⟩
    · exact .error related lenient.2
    · exact absurd enough (Nat.not_lt_zero _)
  | succ n ih =>
    rw [looks.advanceUntil_succ, looks.advanceUntil_succ, sim.states related]
    split
    · exact .ok () related
    · refine (Tracks.advance.joined related).bind (fun _ u v played related => ?_)
        fun _ => looks.grows n
      refine ih related (enough.imp_right fun ⟨sound, left⟩ => ?_)
      obtain ⟨goes, rfl⟩ := Play.advance_eq_ok_iff.mp played
      have later := Stretch.later (.single (.frame goes)) sound
      have fewer := later.framesLeft_lt (Nat.lt_succ_self _)
      exact ⟨later.sound, Nat.lt_of_lt_of_le fewer (Nat.le_of_lt_succ left)⟩

theorem Tracks.advanceUntil (looks : Looks test p) :
    sim.Tracks (Play.advanceUntil test Play.patience) (Play.advanceUntil test Play.patience) where
  joined related := looks.joined related
    (sim.sound.imp_right fun sound => ⟨sound related, (sound related).framesLeft_lt_patience⟩)
  grows := looks.grows _

end

/-! ### Routines -/

/-- What a session looks like is the same in related ones. -/
theorem sight_eq (sim : Simulation game limit) {s t : Session} (related : sim.related s t) :
    t.sight = s.sight := by
  simp only [Session.sight, sim.stage related, sim.vars related, sim.states related,
    sim.music related]

namespace Tracks

theorem setVariable (name : String) (value : Value) :
    sim.Tracks (Play.setVariable name value) (Play.setVariable name value) where
  joined {s t} related := by
    unfold Play.setVariable
    rw [sim.vars related]
    cases set : s.vars.set name value with
    | error e => exact .error related (sim.undeclared e)
    | ok vars =>
      have declared : s.vars.has name = true := by
        cases has : s.vars.has name with
        | true => rfl
        | false => rw [Variables.set_eq_error_iff.mpr ⟨has, rfl⟩] at set; exact nomatch set
      have after := sim.deed (d := .assign name value) trivial related declared
      simp only [Deed.apply, sim.vars related, set, Except.toOption, Option.getD_some] at after
      exact .ok () after
  grows s := by
    unfold Play.setVariable
    cases s.vars.set name value with
    | error e => exact .refl s
    | ok vars => exact .of_eq rfl rfl rfl rfl rfl rfl

/-- **Routines track themselves**, whatever the simulation. -/
theorem routine {α : Type} {x : Play α} (h : Play.Routine x) : sim.Tracks x x := by
  induction h with
  | pure a => exact .pure a
  | bind first next ih ih' => exact ih.bind ih'
  | look f is next ih =>
    constructor
    · intro s t related
      rw [is, is, sim.sight_eq related]
      exact (ih s.sight).joined related
    · intro s
      rw [is]
      exact (ih s.sight).grows s
  | deed d ordinary is =>
    exact .deed (fun _ => d) (fun _ => ordinary.scripted) (fun s => ordinary.allowed s) is
  | frame => exact .advance
  | setVariable name value => exact .setVariable name value
  | await looks => exact .advanceUntil looks

theorem note (notice : Notice) : sim.Tracks (Play.note notice) (Play.note notice) :=
  routine (.note notice)

theorem changeBackground (change : Background → Background) :
    sim.Tracks (Play.changeBackground change) (Play.changeBackground change) :=
  routine (.changeBackground change)

theorem showBackground : sim.Tracks Play.showBackground Play.showBackground :=
  routine .showBackground

theorem present (change : Presentation) :
    sim.Tracks (Play.onHost fun host => change.apply host)
      (Play.onHost fun host => change.apply host) :=
  .deed (fun _ => .present change) (fun _ => trivial) (fun _ => trivial) fun _ => rfl

theorem intOf (e : Expression) : sim.Tracks (Play.intOf e) (Play.intOf e) := routine (.intOf e)

theorem tileAt (x y : Expression) : sim.Tracks (Play.tileAt x y) (Play.tileAt x y) :=
  routine (.tileAt x y)

/-! ### Events and lists -/

/-- What an event does itself tracks itself; a request for a scene does so only together with its
entry in the journal. -/
theorem enact (inFrame : Bool) {event : Event}
    (other : ∀ target start, event ≠ .goToScene target start) :
    sim.Tracks (Play.enact game inFrame event) (Play.enact (game.withLimit limit) inFrame event) := by
  have same : Play.enact (game.withLimit limit) inFrame event = Play.enact game inFrame event := by
    cases event <;> rfl
  rw [same]
  by_cases lasting : event.Lasting inFrame
  · cases event with
    | goToScene target start => exact absurd rfl (other target start)
    | onButtonPress buttons body =>
      cases lasting
      have registers : sim.Tracks _ _ := .deed (fun _ => .register (.onButtonPress buttons body))
        (fun _ => trivial) (fun _ => trivial) fun _ => rfl
      exact registers.bind fun _ => .pure none
    | _ => exact lasting.elim
  · exact routine (.enact game lasting)

/-- An event tracks itself if those in its lists do and it is as deep in both runs. -/
theorem runEvent_succ {room room' : Nat}
    (nested : ∀ inFrame event, sim.Tracks (Play.runEvent game room inFrame event)
      (Play.runEvent (game.withLimit limit) room' inFrame event))
    (depth : limit - room' = game.config.maxDepth - room) (inFrame : Bool) (event : Event) :
    sim.Tracks (Play.runEvent game (room + 1) inFrame event)
      (Play.runEvent (game.withLimit limit) (room' + 1) inFrame event) := by
  have deeper : (game.withLimit limit).config.maxDepth - room' = game.config.maxDepth - room := depth
  unfold Play.runEvent
  rw [deeper]
  by_cases asks : ∃ target start, event = .goToScene target start
  · obtain ⟨target, start, rfl⟩ := asks
    exact .deed (fun _ => .request ⟨target, start⟩ inFrame (game.config.maxDepth - room))
      (fun _ => trivial) (fun _ => trivial) fun _ => rfl
  · have other (target : String) (start : StartPosition) : event ≠ .goToScene target start :=
      fun is => asks ⟨target, start, is⟩
    refine .bind (.deed (fun _ => .record event inFrame _) (fun _ => trivial) (fun _ => other)
      fun _ => rfl) fun _ => (enact inFrame other).bind fun next => ?_
    cases next with
    | none => exact .pure ()
    | some list => exact .forM fun event _ => nested list.2 event

/-- No event takes anything back. -/
theorem grows_runEvent (game : Game) (room : Nat) (inFrame : Bool) (event : Event) :
    Play.Grows (Play.runEvent game room inFrame event) := by
  intro s
  suffices (within game s).Tracks (Play.runEvent game room inFrame event)
    (Play.runEvent game room inFrame event) from this.grows s
  induction room generalizing inFrame event with
  | zero => exact .throw trivial
  | succ room ih => exact runEvent_succ ih rfl inFrame event

/-- An event tracks itself: where the first run has no level left, the second may have some. -/
theorem runEvent {room : Nat} (inside : room ≤ game.config.maxDepth) (inFrame : Bool)
    (event : Event) :
    sim.Tracks (Play.runEvent game room inFrame event)
      (Play.runEvent (game.withLimit limit) (room + (limit - game.config.maxDepth)) inFrame event) := by
  have deeper := sim.deeper
  induction room generalizing inFrame event with
  | zero =>
    refine ⟨fun {s t} related => ?_, grows_runEvent _ _ _ _⟩
    rcases sim.levels with same | ⟨-, cut⟩
    · subst same
      rw [Nat.sub_self]
      exact .error related sim.tooDeep
    · exact .cut (sim.grown (cut related) (grows_runEvent _ _ inFrame event t))
  | succ room ih =>
    rw [Nat.add_right_comm]
    exact runEvent_succ (ih (Nat.le_of_succ_le inside)) (by omega) inFrame event

/-- A list of events tracks itself from the outermost level. -/
theorem outermost {events : List Event} (inFrame : Bool) :
    sim.Tracks (Play.runEvents game game.config.maxDepth inFrame events)
      (Play.runEvents (game.withLimit limit) limit inFrame events) :=
  .forM fun event _ => by
    have tracks : sim.Tracks _ _ := runEvent (Nat.le_refl _) inFrame event
    rwa [Nat.add_sub_cancel' sim.deeper] at tracks

theorem runList (list : Handle) (inFrame : Bool) :
    sim.Tracks (Play.runList game list inFrame) (Play.runList (game.withLimit limit) list inFrame) :=
  outermost inFrame

end Tracks

end Overworld.Simulation
