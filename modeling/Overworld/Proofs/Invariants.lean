import Overworld.Proofs.Parallel

/-!
What holds of a session all through a game.

Every graph corresponds to itself, where two events are alike if they are one event that stands in a
list of the graph (`Rewiring.identity`). A property of sessions that is kept by each single thing
that playing does (`Game.Invariant`) may therefore be coupled with a game beside itself, and is kept
by everything that is asked of the game (`Game.Invariant.perform`). Events are run and registered
from the lists of the graph alone, so a property may say something about all of them.
-/

namespace Overworld

open List (Forall₂)

/-! ### A graph beside itself -/

/-- An event that stands in a list of the graph. -/
def SceneGraph.Lists (g : SceneGraph) (event : Event) : Prop := ∃ list ∈ g.lists, event ∈ list

/-- The list of a handle is one of the graph, if it is not empty. -/
theorem SceneGraph.lists_of_mem {g : SceneGraph} {h : Handle} {event : Event}
    (mem : event ∈ g.events h) : g.Lists event := by
  unfold events at mem
  cases found : g.lists[h.index]? with
  | none =>
    rw [found] at mem
    exact absurd mem List.not_mem_nil
  | some list =>
    rw [found] at mem
    exact ⟨list, List.mem_of_getElem? found, mem⟩

/-- A session in which no handler is registered that does not stand in a list of the graph. -/
def Session.Listed (g : SceneGraph) (s : Session) : Prop :=
  ∀ event ∈ s.stage.handlers, g.Lists event

/-- Handles that stay as they are. -/
def Wiring.identity (g : SceneGraph) : Wiring where
  stands := Eq
  triggers := Eq
  alike e e' := e' = e ∧ g.Lists e

namespace Wiring.identity

variable (g : SceneGraph)

theorem event (e : Event) : e.Rewired Eq e := by
  cases e with
  | onButtonPress buttons body => exact .onButtonPress buttons rfl
  | branch conditions yes no => exact .branch conditions rfl rfl
  | _ => exact .bare rfl

theorem role (a : ActorDef) : a.Rewired (identity g) a := ⟨rfl, rfl, rfl, rfl⟩

theorem scene (s : Scene) : s.Rewired (identity g) s where
  same := rfl
  events := rfl
  map := by
    cases s.map with
    | none => exact .none
    | some m => exact .some ⟨rfl, List.forall₂_same.mpr fun _ _ => ⟨rfl, rfl⟩⟩
  actors := List.forall₂_same.mpr fun a _ => role g a

variable {g}

theorem session {s : Session} (listed : s.Listed g) : s.Rewired (identity g) s :=
  .intro s.journal (scene g s.stage.scene)
    (List.forall₂_same.mpr fun actor _ => ⟨rfl, role g actor.definition⟩)
    (List.forall₂_same.mpr fun event mem => ⟨rfl, listed event mem⟩)

/-- Handlers that have a counterpart stand in a list of the graph. -/
theorem listed {s t : Session} (h : s.Rewired (identity g) t) : s.Listed g := by
  have alike := h.handlers
  unfold Session.Listed
  generalize s.stage.handlers = xs, t.stage.handlers = ys at alike
  induction alike with
  | nil => exact List.forall_mem_nil _
  | cons same _ ih => exact List.forall_mem_cons.mpr ⟨same.2, ih⟩

end Wiring.identity

/-- A graph corresponds to itself. -/
def Rewiring.identity (g : SceneGraph) : Rewiring g g where
  toWiring := .identity g
  rewired {e _} alike := alike.1 ▸ Wiring.identity.event e
  lists same := same ▸ List.forall₂_same.mpr fun _ mem => ⟨rfl, SceneGraph.lists_of_mem mem⟩
  triggered same := ⟨same, same ▸ Iff.rfl⟩
  empty := rfl
  startingScene := rfl
  scenes := List.forall₂_same.mpr fun scene _ => Wiring.identity.scene g scene
  scripts := List.forall₂_same.mpr fun _ _ => ⟨rfl, rfl⟩

/-! ### Invariants -/

/-- A property of sessions that each single thing keeps which playing does, and what holds where the
game halts. -/
structure Game.Invariant (game : Game) where
  holds : Session → Prop
  halted : Halt → Session → Prop
  quiet : ∀ {s} {d : Deed}, d.Quiet → holds s → holds (d.apply s)
  frame : ∀ {s}, holds s → holds { s with host := s.host.afterFrame }
  halts : ∀ {e s}, (∀ error, e ≠ .variable error) → holds s → halted e s
  records : ∀ {s event} (inFrame : Bool) (depth : Nat), game.graph.Lists event →
    (∀ name value, event ≠ .setVariable name value) → holds s →
    holds (s.recorded event inFrame depth)
  assigns : ∀ {s name value vars} (inFrame : Bool) (depth : Nat),
    game.graph.Lists (.setVariable name value) → s.vars.set name value = .ok vars → holds s →
    holds { s.recorded (.setVariable name value) inFrame depth with vars := vars }
  refuses : ∀ {s name value error} (inFrame : Bool) (depth : Nat),
    game.graph.Lists (.setVariable name value) → s.vars.set name value = .error error → holds s →
    halted (.variable error) (s.recorded (.setVariable name value) inFrame depth)
  registers : ∀ {s event}, game.graph.Lists event → holds s → holds ((Deed.register event).apply s)
  asks : ∀ {s} (request : SceneRequest), holds s →
    holds { s with stage := { s.stage with request := some request } }
  arrives : ∀ {s} (a : Arrival), holds s → holds (a.apply game s)
  enters : ∀ {s} (name : String), holds s → holds (s.entering game name)
  stopped : ∀ {stop s}, halted (.host stop) s → holds s

namespace Game.Invariant

variable {game : Game} (inv : game.Invariant)

/-- The game beside itself, with the property in the one session. -/
def parallel : Parallel game (.identity game.graph) where
  related s t := s.Rewired (.identity game.graph) t ∧ inv.holds s
  halted e s t := s.Rewired (.identity game.graph) t ∧ inv.halted e s
  rewired h := h.1
  quiet quiet h := ⟨h.1.deed quiet.ne_register, inv.quiet quiet h.2⟩
  frame h := ⟨h.1.frame, inv.frame h.2⟩
  halts other h := ⟨h.1, inv.halts other h.2⟩
  records inFrame depth alike other h :=
    ⟨h.1.recorded _ _ inFrame depth, inv.records inFrame depth alike.2 other h.2⟩
  sets name value inFrame depth alike h := by
    have recorded := h.1.recorded (.setVariable name value) (.setVariable name value) inFrame depth
    exact .setVariable recorded.vars_eq
      (fun vars set => ⟨recorded.assign vars, inv.assigns inFrame depth alike.2 set h.2⟩)
      fun _ set => ⟨recorded, inv.refuses inFrame depth alike.2 set h.2⟩
  registers alike h := ⟨h.1.register alike, inv.registers alike.2 h.2⟩
  asks request h := ⟨h.1.ask request, inv.asks request h.2⟩
  arrives {_ _ a _} same h := ⟨h.1.arrival same game game.graph, inv.arrives a h.2⟩
  enters name h := ⟨h.1.entering (Wiring.identity.scene _ _), inv.enters name h.2⟩
  stopped h := ⟨h.1, inv.stopped h.2⟩

/-- A result that was come to in a session with the property, or where the game may halt. -/
inductive Ends {α : Type} : EStateM.Result Halt Session α → Prop
  | ok (a : α) {s : Session} (listed : s.Listed game.graph) (h : inv.holds s) : Ends (.ok a s)
  | error {e : Halt} {s : Session} (listed : s.Listed game.graph) (h : inv.halted e s) :
    Ends (.error e s)

/-- **Everything that is asked of a game keeps its invariants.** -/
theorem perform {s : Session} (listed : s.Listed game.graph) (h : inv.holds s) (call : Call) :
    inv.Ends (call.perform game s) := by
  have same : call.Rewired Eq call := by
    cases call with
    | list list inFrame => exact .list rfl inFrame
    | _ => exact .directed trivial
  have joined : inv.parallel.pairing.Joined Eq (call.perform game s) (call.perform game s) :=
    (inv.parallel.perform same).joined ⟨Wiring.identity.session listed, h⟩
  generalize call.perform game s = r at joined
  cases joined with
  | ok _ h => exact .ok _ (Wiring.identity.listed h.1) h.2
  | error h => exact .error (Wiring.identity.listed h.1) h.2

end Game.Invariant

end Overworld
