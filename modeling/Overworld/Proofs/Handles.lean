import Mathlib.Logic.Equiv.Basic
import Overworld.Proofs.Forgetting
import Overworld.Proofs.Parallel

/-!
What handles are to a game.

Handles only lead to lists: lists may stand in the graph in any order but for the first, if all
handles are changed with them (`endsAlike_permuted`). And it makes no difference whether an empty
list is referred to as such or as the empty one (`endsAlike_emptied`), except where a sensor does: a
sensor with a list of its own holds the player up for a frame, even if there is nothing in the list.
-/

namespace Overworld

open List (Forall₂)

/-! ### Runs that end alike -/

/-- Two results of which nobody can tell the games apart: with the same outcome, on hosts that have
shown and played the same, and with the same variables and reports. -/
structure Play.EndsAlike {α : Type} (a b : EStateM.Result Halt Session α) : Prop where
  outcome : Play.outcome b = Play.outcome a
  host : (Play.final b).host = (Play.final a).host
  vars : (Play.final b).vars = (Play.final a).vars
  entered : (Play.final b).entered = (Play.final a).entered
  notices : (Play.final b).notices = (Play.final a).notices

namespace Rewiring

variable {game : Game} {graph : SceneGraph} (r : Rewiring game.graph graph)

/-- Sessions of games whose graphs correspond stay the same but for their handles. -/
def parallel : Parallel game r where
  related := Session.Rewired r.toWiring
  halted _ := Session.Rewired r.toWiring
  rewired h := h
  quiet quiet h := h.deed quiet.ne_register
  frame h := h.frame
  halts _ h := h
  records inFrame depth _ _ h := h.recorded _ _ inFrame depth
  sets name value inFrame depth _ h := by
    have recorded := h.recorded (.setVariable name value) (.setVariable name value) inFrame depth
    exact .setVariable recorded.vars_eq (fun vars _ => recorded.assign vars) fun _ _ => recorded
  registers alike h := h.register alike
  asks request h := h.ask request
  arrives same h := h.arrival same game graph
  enters name h := h.entering (r.scene name)
  stopped h := h

include r in
/-- Both games start in the same session, if they declare the same, and run alike from there. -/
theorem endsAlike_run (declarations : graph.declarations = game.graph.declarations) (host : Host) :
    (game.withGraph graph).session host = game.session host ∧
      ∀ s, game.session host = .ok s →
        Play.EndsAlike (Play.run game s) (Play.run (game.withGraph graph) s) := by
  refine ⟨?_, fun s start => ?_⟩
  · have fresh : graph.freshVariables = game.graph.freshVariables := by
      rw [SceneGraph.freshVariables, declarations]
      rfl
    rw [Game.session, Game.session, show (game.withGraph graph).graph = graph from rfl, fresh]
  · obtain ⟨vars, -, rfl⟩ := Game.session_eq_ok_iff.mp start
    let s : Session := .start host vars (.bare .fallback)
    have same : s.Rewired r.toWiring s := .intro _ ⟨rfl, r.empty, .none, .nil⟩ .nil .nil
    have joined : r.parallel.pairing.Joined Eq (Play.run game s)
        (Play.run (game.withGraph graph) s) :=
      Parallel.run.joined same
    generalize Play.run game s = a, Play.run (game.withGraph graph) s = b at joined
    cases joined with
    | ok is h =>
      subst is
      exact ⟨rfl, h.host_eq, h.vars_eq, h.entered_eq, h.notices_eq⟩
    | error h => exact ⟨rfl, h.host_eq, h.vars_eq, h.entered_eq, h.notices_eq⟩

end Rewiring

/-! ### Other handles for the same lists -/

section

variable (f : Handle → Handle)

/-- The event with other handles; so for all that follows. -/
def Event.redirected : Event → Event
  | .onButtonPress buttons body => .onButtonPress buttons (f body)
  | .branch conditions yes no => .branch conditions (f yes) (f no)
  | event => event

def Sensor.redirected (s : Sensor) : Sensor := { s with events := f s.events }

def TileMap.redirected (m : TileMap) : TileMap :=
  { m with sensors := m.sensors.map (·.redirected f) }

def ActorDef.redirected (a : ActorDef) : ActorDef :=
  { a with init := f a.init, interact := f a.interact, update := f a.update }

def Scene.redirected (s : Scene) : Scene :=
  { s with
    events := f s.events
    map := s.map.map (·.redirected f)
    actors := s.actors.map (·.redirected f) }

def Script.redirected (s : Script) : Script := { s with events := f s.events }

end

/-- Handles that are changed in one way for all of a graph. -/
def Wiring.redirect (f : Handle → Handle) : Wiring where
  stands h h' := h' = f h
  triggers h h' := h' = f h
  alike := Event.Rewired fun h h' => h' = f h

namespace Wiring.redirect

variable (f : Handle → Handle)

theorem map {α : Type} {R : α → α → Prop} {g : α → α} (h : ∀ a, R a (g a)) (xs : List α) :
    Forall₂ R xs (xs.map g) :=
  List.forall₂_map_right_iff.mpr (List.forall₂_same.mpr fun a _ => h a)

theorem event (e : Event) : (redirect f).alike e (e.redirected f) := by
  cases e with
  | onButtonPress buttons body => exact .onButtonPress buttons rfl
  | branch conditions yes no => exact .branch conditions rfl rfl
  | _ => exact .bare rfl

theorem scene (s : Scene) : s.Rewired (redirect f) (s.redirected f) where
  same := rfl
  events := rfl
  map := by
    rw [Scene.redirected]
    cases s.map with
    | none => exact .none
    | some m => exact .some ⟨rfl, map (fun _ => ⟨rfl, rfl⟩) m.sensors⟩
  actors := map (fun _ => ⟨rfl, rfl, rfl, rfl⟩) s.actors

theorem script (s : Script) : s.Rewired (redirect f) (s.redirected f) := ⟨rfl, rfl⟩

end Wiring.redirect

/-! ### Lists in another order -/

/-- The handle after the lists are put in another order. Where there is no list it stays. -/
def Handle.permuted {n : Nat} (σ : Equiv.Perm (Fin n)) (h : Handle) : Handle :=
  if inside : h.index < n then ⟨σ ⟨h.index, inside⟩⟩ else h

/-- The graph with its lists in another order, and all handles changed with them. -/
def SceneGraph.permuted (g : SceneGraph) (σ : Equiv.Perm (Fin g.lists.length)) : SceneGraph :=
  { g with
    scenes := g.scenes.map (·.redirected (.permuted σ))
    scripts := g.scripts.map (·.redirected (.permuted σ))
    lists := List.ofFn fun i => g.lists[σ.symm i].map (·.redirected (.permuted σ)) }

/-- Whatever the order, each handle leads to the list that it led to before. -/
theorem SceneGraph.events_permuted (g : SceneGraph) (σ : Equiv.Perm (Fin g.lists.length))
    (h : Handle) : (g.permuted σ).events (h.permuted σ) =
      (g.events h).map (·.redirected (.permuted σ)) := by
  unfold events permuted Handle.permuted
  by_cases inside : h.index < g.lists.length
  · simp [inside]
  · simp [inside]

/-- The empty handle stays, and no other becomes it, if the first list stays where it is. -/
theorem Handle.permuted_eq_empty_iff {n : Nat} {σ : Equiv.Perm (Fin n)}
    (first : ∀ i, i.val = 0 → σ i = i) (h : Handle) : h.permuted σ = .empty ↔ h = .empty := by
  obtain ⟨index⟩ := h
  unfold permuted
  split
  · rename_i inside
    simp only [Handle.empty, Handle.mk.injEq]
    constructor
    · intro zero
      have stays : σ ⟨index, inside⟩ = ⟨index, inside⟩ := σ.injective (first _ zero)
      rwa [stays] at zero
    · intro zero
      rwa [first ⟨index, inside⟩ zero]
  · rfl

/-- Graphs whose lists stand in another order correspond. -/
def Rewiring.permuting (g : SceneGraph) (σ : Equiv.Perm (Fin g.lists.length))
    (first : ∀ i, i.val = 0 → σ i = i) : Rewiring g (g.permuted σ) where
  toWiring := .redirect (.permuted σ)
  rewired h := h
  lists {h _} is := by
    subst is
    rw [g.events_permuted σ h]
    exact Wiring.redirect.map (Wiring.redirect.event _) _
  triggered {h _} is := ⟨is, is ▸ h.permuted_eq_empty_iff first⟩
  empty := ((Handle.permuted_eq_empty_iff first .empty).mpr rfl).symm
  startingScene := rfl
  scenes := Wiring.redirect.map (Wiring.redirect.scene _) _
  scripts := Wiring.redirect.map (Wiring.redirect.script _) _

/-- **The order of the lists makes no difference.** The first list stays where it is; whatever the
order of the others, a run of the game ends alike when all handles are changed with it. -/
theorem endsAlike_permuted (game : Game) (σ : Equiv.Perm (Fin game.graph.lists.length))
    (first : ∀ i, i.val = 0 → σ i = i) (host : Host) :
    (game.withGraph (game.graph.permuted σ)).session host = game.session host ∧
      ∀ s, game.session host = .ok s →
        Play.EndsAlike (Play.run game s) (Play.run (game.withGraph (game.graph.permuted σ)) s) :=
  (Rewiring.permuting game.graph σ first).endsAlike_run rfl host

/-- In the yard of the bell its script and the branch in it may change places. -/
theorem endsAlike_permuted_bell :
    ∃ σ : Equiv.Perm (Fin Game.bell.graph.lists.length),
      (∀ i, i.val = 0 → σ i = i) ∧ Game.bell.graph.permuted σ ≠ Game.bell.graph ∧
      ∃ s, Game.bell.session (.fresh (InputScript.empty.hold [.activate] 2) (some 3) false) =
          .ok s ∧
        Play.EndsAlike (Play.run Game.bell s)
          (Play.run (Game.bell.withGraph (Game.bell.graph.permuted σ)) s) := by
  let σ : Equiv.Perm (Fin Game.bell.graph.lists.length) := Equiv.swap ⟨1, by decide⟩ ⟨2, by decide⟩
  have first : ∀ i, i.val = 0 → σ i = i := by decide
  exact ⟨σ, first, by decide, _, rfl, (endsAlike_permuted Game.bell σ first _).2 _ rfl⟩

/-! ### Handles of empty lists -/

/-- A handle that stays as it is, or becomes the empty one if there is nothing in its list. -/
def Handle.Emptied (g : SceneGraph) (h h' : Handle) : Prop :=
  h' = h ∨ g.events h = [] ∧ h' = .empty

/-- Handles of a graph of which some are emptied, and those of its sensors changed as given. -/
def Wiring.emptying (g : SceneGraph) (triggers : Handle → Handle → Prop) : Wiring where
  stands := Handle.Emptied g
  triggers := triggers
  alike := Event.Rewired (Handle.Emptied g)

/-- A graph in which some handles were emptied, and those of sensors changed as given. -/
structure SceneGraph.Emptied (g : SceneGraph) (triggers : Handle → Handle → Prop)
    (g' : SceneGraph) : Prop where
  same : g' = { g with scenes := g'.scenes, scripts := g'.scripts, lists := g'.lists }
  scenes : Forall₂ (Scene.Rewired (.emptying g triggers)) g.scenes g'.scenes
  scripts : Forall₂ (Script.Rewired (.emptying g triggers)) g.scripts g'.scripts
  lists : Forall₂ (Forall₂ (Event.Rewired (Handle.Emptied g))) g.lists g'.lists

namespace SceneGraph.Emptied

variable {g g' : SceneGraph} {triggers : Handle → Handle → Prop}

/-- A handle that stays leads to the list that it led to before. -/
theorem events (h : g.Emptied triggers g') (list : Handle) :
    Forall₂ (Event.Rewired (Handle.Emptied g)) (g.events list) (g'.events list) := by
  have found := Forall₂.getElem? h.lists list.index
  unfold SceneGraph.events
  generalize g.lists[list.index]? = a, g'.lists[list.index]? = b at found
  cases found with
  | none => exact .nil
  | some alike => exact alike

/-- Such graphs correspond, if the handles of sensors stay. -/
def rewiring (h : g.Emptied Eq g') (reserved : g.events .empty = []) : Rewiring g g' where
  toWiring := .emptying g Eq
  rewired alike := alike
  lists {list list'} stands := by
    rcases stands with rfl | ⟨none, rfl⟩
    · exact h.events list'
    · have alike := h.events .empty
      rw [reserved] at alike
      rwa [none]
  triggered {list _} is := ⟨.inl is.symm, is ▸ Iff.rfl⟩
  empty := .inl rfl
  startingScene := by rw [h.same]
  scenes := h.scenes
  scripts := h.scripts

end SceneGraph.Emptied

/-- **Empty lists are as good as none, but for sensors.** Take any handles of a checked graph that
lead to empty lists, but none of a sensor, and change them to the empty handle: a run of the game
ends alike. A sensor with an empty list does nothing only if its handle is the empty one; with every
other handle the player walks on the spot for a frame. -/
theorem endsAlike_emptied {game : Game} {graph : SceneGraph} (checked : game.graph.check = .ok ())
    (emptied : game.graph.Emptied Eq graph) (host : Host) :
    ((game.withGraph graph).session host = game.session host ∧
      ∀ s, game.session host = .ok s →
        Play.EndsAlike (Play.run game s) (Play.run (game.withGraph graph) s)) ∧
    ∀ (map : TileMap) (tile : Tile) (sensor : Sensor) (sprite : SpriteHandle) (walk : WalkCycle),
      map.sensorAt? tile = some sensor → game.graph.events sensor.events = [] →
      Play.trigger game map tile sprite walk =
        if sensor.events = .empty then return walk else Play.tread walk sprite := by
  have valid := SceneGraph.check_eq_ok_iff_valid.mp checked
  refine ⟨(emptied.rewiring valid.events_empty).endsAlike_run (by rw [emptied.same]) host, ?_⟩
  intro map tile sensor sprite walk found none
  unfold Play.trigger
  rw [found]
  simp only [Play.runList, none]
  rfl

/-- A yard with a mat, and a bell that rings behind it. The yard and the mat have nothing to do, but
may refer to the list in which there is nothing. -/
def Game.doormat (yard mat : Handle) : Game where
  graph :=
    { SceneGraph.empty with
      lists := [[], [], [.playSound "ding" 100 1 0 0]]
      scenes :=
        [{ Scene.called "yard" with
            events := yard
            map := some ⟨3, 1, 2, [0, 0, 0], [⟨"mat", 1, 0, 1, 1, mat⟩, ⟨"bell", 2, 0, 1, 1, ⟨2⟩⟩]⟩
            player := some (.at 0 0) }] }
  config := .standard

theorem SceneGraph.emptied_doormat {triggers : Handle → Handle → Prop}
    {yard yard' mat mat' : Handle}
    (h : Handle.Emptied (Game.doormat yard mat).graph yard yard') (h' : triggers mat mat')
    (bell : triggers ⟨2⟩ ⟨2⟩) :
    (Game.doormat yard mat).graph.Emptied triggers (Game.doormat yard' mat').graph where
  same := rfl
  scenes := .cons ⟨rfl, h, .some ⟨rfl, .cons ⟨rfl, h'⟩ (.cons ⟨rfl, bell⟩ .nil)⟩, .nil⟩ .nil
  scripts := .nil
  lists := .cons .nil (.cons .nil (.cons (.cons (.bare rfl) .nil) .nil))

/-- The yard may do without its empty list, however far the player walks. -/
theorem endsAlike_emptied_doormat :
    (Game.doormat ⟨1⟩ ⟨1⟩).graph.check = .ok () ∧
      (Game.doormat ⟨1⟩ ⟨1⟩).graph.Emptied Eq (Game.doormat .empty ⟨1⟩).graph ∧
      ∃ s, (Game.doormat ⟨1⟩ ⟨1⟩).session
          (.fresh (InputScript.empty.hold [.right] 9) (some 3) false) = .ok s ∧
        Play.EndsAlike (Play.run (Game.doormat ⟨1⟩ ⟨1⟩) s)
          (Play.run (Game.doormat .empty ⟨1⟩) s) := by
  have checked : (Game.doormat ⟨1⟩ ⟨1⟩).graph.check = .ok () := by decide
  have emptied : (Game.doormat ⟨1⟩ ⟨1⟩).graph.Emptied Eq (Game.doormat .empty ⟨1⟩).graph :=
    SceneGraph.emptied_doormat (.inr ⟨rfl, rfl⟩) rfl rfl
  exact ⟨checked, emptied, _, rfl, (endsAlike_emptied checked emptied _).1.2 _ rfl⟩

/-- Not every handle of an empty list may be changed to the empty one: without its list the mat does
not hold the player up, and the bell rings a frame earlier. -/
theorem not_always_endsAlike :
    ¬∀ (game : Game) (graph : SceneGraph), game.graph.check = .ok () →
      game.graph.Emptied (Handle.Emptied game.graph) graph →
      ∀ host s, game.session host = .ok s →
        Play.EndsAlike (Play.run game s) (Play.run (game.withGraph graph) s) := by
  intro always
  have emptied : (Game.doormat .empty ⟨1⟩).graph.Emptied
      (Handle.Emptied (Game.doormat .empty ⟨1⟩).graph) (Game.doormat .empty .empty).graph :=
    SceneGraph.emptied_doormat (.inl rfl) (.inr ⟨rfl, rfl⟩) (.inl rfl)
  have alike := always _ _ (by decide) emptied
    (.fresh (InputScript.empty.hold [.right] 9) (some 2) false) _ rfl
  exact absurd (congrArg (·.sounds.size) alike.host) (by decide +kernel)

end Overworld
