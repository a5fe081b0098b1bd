import Mathlib.Data.ENat.Lattice
import Mathlib.Order.CompletePartialOrder
import Overworld.Proofs.Nesting
import Overworld.Proofs.Repertoire

/-!
How high the event lists of a graph are.

The height of an event is the length of the longest chain of events that starts with it and in which
each is nested in the one before; it is infinite if the event comes back to itself. An event needs
one level, and what is nested in it the others, so events of some height are a repertoire for as
many levels (`Repertoire.low`). Handlers keep to it as well, though they are registered deeper than
they are run. So nothing comes to the limit of nesting in a game whose lists are no higher, and a
game that comes to it has a chain of events that is longer.
-/

namespace Overworld

namespace SceneGraph

variable {g : SceneGraph} {event inner : Event} {list : Handle}

/-! ### Heights -/

theorem one_add_le_succ {x : ℕ∞} {n : ℕ} (low : x ≤ n) : 1 + x ≤ (n + 1 : ℕ) := by
  rw [Nat.cast_add, Nat.cast_one, add_comm]
  exact add_le_add_left low 1

theorem succ_le_one_add {x : ℕ∞} {n : ℕ} (high : (n : ℕ∞) ≤ x) : ((n + 1 : ℕ) : ℕ∞) ≤ 1 + x := by
  rw [Nat.cast_add, Nat.cast_one, add_comm]
  exact add_le_add_right high 1

/-- An event is nested in another one: it is in a list that the other can have run. -/
def Nests (g : SceneGraph) (outer inner : Event) : Prop :=
  ∃ list ∈ outer.lists g, inner ∈ g.events list

/-- The height of an event: how many events are nested in each other at most, from it on. -/
noncomputable def eventHeight (g : SceneGraph) (event : Event) : ℕ∞ :=
  ⨆ (chain : List Event) (_ : (event :: chain).IsChain g.Nests), ((event :: chain).length : ℕ∞)

/-- The height of a list: that of its highest event. -/
noncomputable def listHeight (g : SceneGraph) (list : Handle) : ℕ∞ :=
  ⨆ event ∈ g.events list, g.eventHeight event

theorem le_eventHeight {chain : List Event} (nested : (event :: chain).IsChain g.Nests) :
    ((event :: chain).length : ℕ∞) ≤ g.eventHeight event :=
  le_iSup₂_of_le chain nested le_rfl

theorem eventHeight_le_listHeight (mem : event ∈ g.events list) :
    g.eventHeight event ≤ g.listHeight list :=
  le_iSup₂_of_le event mem le_rfl

theorem one_le_eventHeight (g : SceneGraph) (event : Event) : 1 ≤ g.eventHeight event :=
  le_eventHeight (.singleton event)

/-- A nested event is lower. -/
theorem eventHeight_add_one_le (nests : g.Nests event inner) :
    g.eventHeight inner + 1 ≤ g.eventHeight event := by
  cases high : g.eventHeight event with
  | top => exact le_top
  | coe n =>
    have longer {chain : List Event} (nested : (inner :: chain).IsChain g.Nests) :
        (inner :: chain).length + 1 ≤ n := by
      have long := le_eventHeight (.cons_cons nests nested)
      rw [high] at long
      exact_mod_cast long
    have some := longer (.singleton inner)
    obtain ⟨m, rfl⟩ : ∃ m, n = m + 1 := ⟨n - 1, by omega⟩
    have low : g.eventHeight inner ≤ m := iSup₂_le fun chain nested => by
      exact_mod_cast Nat.le_of_succ_le_succ (longer nested)
    exact_mod_cast add_le_add_left low 1

/-- The lists of an event are lower. -/
theorem listHeight_le {room : ℕ} (low : g.eventHeight event ≤ (room + 1 : ℕ))
    (has : list ∈ event.lists g) : g.listHeight list ≤ room :=
  iSup₂_le fun inner mem => by
    have lower := (eventHeight_add_one_le ⟨list, has, mem⟩).trans low
    rw [Nat.cast_add, Nat.cast_one] at lower
    exact (ENat.add_le_add_iff_right ENat.one_ne_top).mp lower

/-- The height of an event is one more than that of the highest list that it can have run. -/
theorem eventHeight_eq (g : SceneGraph) (event : Event) :
    g.eventHeight event = 1 + ⨆ list ∈ event.lists g, g.listHeight list := by
  apply le_antisymm
  · refine iSup₂_le fun chain nested => ?_
    cases nested with
    | singleton => exact le_self_add
    | cons_cons nests rest =>
      rename_i inner chain
      obtain ⟨list, has, mem⟩ := nests
      have below : ((inner :: chain).length : ℕ∞) ≤ ⨆ list ∈ event.lists g, g.listHeight list :=
        ((le_eventHeight rest).trans (eventHeight_le_listHeight mem)).trans
          (le_iSup₂_of_le list has le_rfl)
      exact succ_le_one_add below
  · have positive := g.one_le_eventHeight event
    cases high : g.eventHeight event with
    | top => exact le_top
    | coe n =>
      rw [high] at positive
      have some : 1 ≤ n := by exact_mod_cast positive
      obtain ⟨m, rfl⟩ : ∃ m, n = m + 1 := ⟨n - 1, by omega⟩
      have low : ⨆ list ∈ event.lists g, g.listHeight list ≤ (m : ℕ∞) :=
        iSup₂_le fun list has => listHeight_le high.le has
      exact one_add_le_succ low

/-- No other numbers satisfy the equations of heights. -/
theorem eventHeight_unique {height : Event → ℕ∞}
    (is : ∀ event, height event =
      1 + ⨆ list ∈ event.lists g, ⨆ inner ∈ g.events list, height inner) :
    height = g.eventHeight := by
  -- No chain is longer than its first event is high, by induction on the chain; and an event of
  -- finite height is no higher than that, by induction on the number.
  have longest (chain : List Event) (event : Event) (nested : (event :: chain).IsChain g.Nests) :
      ((event :: chain).length : ℕ∞) ≤ height event := by
    induction chain generalizing event with
    | nil =>
      rw [is]
      exact le_self_add
    | cons inner chain ih =>
      obtain ⟨⟨list, has, mem⟩, rest⟩ := List.isChain_cons_cons.mp nested
      have below : height inner ≤ ⨆ list ∈ event.lists g, ⨆ inner ∈ g.events list, height inner :=
        le_iSup₂_of_le list has (le_iSup₂ (f := fun inner _ => height inner) inner mem)
      rw [is]
      exact succ_le_one_add ((ih inner rest).trans below)
  have least (n : ℕ) (event : Event) (low : g.eventHeight event ≤ n) : height event ≤ n := by
    induction n generalizing event with
    | zero => exact absurd ((g.one_le_eventHeight event).trans low) (by decide)
    | succ n ih =>
      have below : ⨆ list ∈ event.lists g, ⨆ inner ∈ g.events list, height inner ≤ (n : ℕ∞) :=
        iSup₂_le fun list has => iSup₂_le fun inner mem =>
          ih inner ((eventHeight_le_listHeight mem).trans (listHeight_le low has))
      rw [is]
      exact one_add_le_succ below
  funext event
  refine le_antisymm ?_ (iSup₂_le fun chain nested => longest chain event nested)
  cases high : g.eventHeight event with
  | top => exact le_top
  | coe n => exact least n event high.le

/-! ### Finding out whether heights are small -/

/-- Whether an event is no higher than a number of levels. -/
def fits (g : SceneGraph) : Nat → Event → Bool
  | 0, _ => false
  | levels + 1, event => (event.lists g).all fun list => (g.events list).all (g.fits levels)

theorem fits_iff {levels : Nat} : g.fits levels event = true ↔ g.eventHeight event ≤ levels := by
  induction levels generalizing event with
  | zero =>
    refine ⟨nofun, fun low => absurd ((g.one_le_eventHeight event).trans low) (by decide)⟩
  | succ levels ih =>
    simp only [fits, List.all_eq_true, ih]
    constructor
    · intro low
      have below : ⨆ list ∈ event.lists g, g.listHeight list ≤ (levels : ℕ∞) :=
        iSup₂_le fun list has => iSup₂_le fun inner mem => low list has inner mem
      rw [eventHeight_eq]
      exact one_add_le_succ below
    · intro low list has inner mem
      exact (eventHeight_le_listHeight mem).trans (listHeight_le low has)

theorem listHeight_le_iff {levels : Nat} :
    g.listHeight list ≤ levels ↔ (g.events list).all (g.fits levels) = true := by
  simp only [listHeight, iSup_le_iff, List.all_eq_true, fits_iff]

instance (list : Handle) (levels : Nat) : Decidable (g.listHeight list ≤ levels) :=
  decidable_of_iff' _ listHeight_le_iff

/-! ### Low events are a repertoire -/

/-- A scene whose lists are no higher than a number of levels. -/
def Low (g : SceneGraph) (levels : Nat) (scene : Scene) : Prop :=
  ∀ list ∈ scene.roots, g.listHeight list ≤ levels

instance (levels : Nat) (scene : Scene) : Decidable (g.Low levels scene) := List.decidableBAll _ _

/-- The fallback of a sound graph is as low as can be. -/
theorem low_scene (valid : g.Valid) {levels : Nat} (low : ∀ scene ∈ g.scenes, g.Low levels scene)
    (name : String) : g.Low levels (g.scene name) := by
  unfold scene
  cases found : g.scene? name with
  | some scene => exact low scene (List.mem_of_find?_eq_some found)
  | none =>
    intro list root
    rw [List.mem_singleton.mp root, listHeight_le_iff]
    change (g.events .empty).all _ = true
    rw [valid.events_empty]
    rfl

end SceneGraph

open SceneGraph

/-- Events that are no higher than there are levels left never come to the limit. -/
def Repertoire.low (game : Game)
    (low : ∀ name, game.graph.Low game.config.maxDepth (game.graph.scene name)) :
    Repertoire game game.graph.lists where
  admits room event := game.graph.eventHeight event ≤ room
  ends e := ∀ limit, e ≠ .nestingTooDeep limit
  common e common limit is := by
    rw [is] at common
    exact common
  sized := .inl nofun
  rises le low := low.trans (Nat.cast_le.mpr le)
  bottom low := absurd ((game.graph.one_le_eventHeight _).trans low) (by decide)
  nested low list has :=
    ⟨rfl, fun _ mem => (eventHeight_le_listHeight mem).trans (listHeight_le low has)⟩
  roots name list root :=
    ⟨rfl, fun _ mem => (eventHeight_le_listHeight mem).trans (low name list root)⟩

/-! ### The law of heights -/

/-- A chain of more events than a number of levels, each nested in the one before, from a list of a
scene on, or of the fallback. -/
def SceneGraph.Exceeds (g : SceneGraph) (levels : Nat) : Prop :=
  ∃ name, ∃ list ∈ (g.scene name).roots, ∃ event ∈ g.events list, ∃ chain,
    (event :: chain).IsChain g.Nests ∧ levels < (event :: chain).length

/-- Where no chain is longer, all lists are low. -/
theorem SceneGraph.low_of_not_exceeds {g : SceneGraph} {levels : Nat} (none : ¬g.Exceeds levels)
    (name : String) : g.Low levels (g.scene name) := by
  intro list root
  refine iSup₂_le fun event mem => iSup₂_le fun chain nested => ?_
  have short : ¬levels < (event :: chain).length := fun long =>
    none ⟨name, list, root, event, mem, chain, nested, long⟩
  exact_mod_cast Nat.not_lt.mp short

/-- What the heights of events say about the limit of nesting, in a session of a game. -/
structure Session.NestsByHeight (game : Game) (s : Session) : Prop where
  /-- The height of a list is the greatest of its events, -/
  list (list : Handle) :
    game.graph.listHeight list = ⨆ event ∈ game.graph.events list, game.graph.eventHeight event
  /-- and that of an event is one more than the greatest of the lists that it can have run. -/
  event (event : Event) : game.graph.eventHeight event =
    1 + ⨆ list ∈ event.lists game.graph, game.graph.listHeight list
  /-- No other heights of events do that. -/
  unique {height : Event → ℕ∞} (is : ∀ event, height event =
    1 + ⨆ list ∈ event.lists game.graph, ⨆ inner ∈ game.graph.events list, height inner) :
    height = game.graph.eventHeight
  /-- Where no list of a scene of a checked graph is higher than the limit, no run comes to it, -/
  quiet (checked : game.graph.check = .ok ())
    (low : ∀ scene ∈ game.graph.scenes, game.graph.Low game.config.maxDepth scene) :
    ¬Play.TooDeep (Play.run game s)
  /-- nor does any other call. -/
  quietCall (checked : game.graph.check = .ok ())
    (low : ∀ scene ∈ game.graph.scenes, game.graph.Low game.config.maxDepth scene)
    {call : Call} (directed : call.Directed) : ¬Play.TooDeep (call.perform game s)
  /-- Where a run comes to the limit, checked or not, there is a longer chain of nested events, -/
  alarm (deep : Play.TooDeep (Play.run game s)) : game.graph.Exceeds game.config.maxDepth
  /-- and so there is where any other call does. -/
  alarmCall {call : Call} (directed : call.Directed) (deep : Play.TooDeep (call.perform game s)) :
    game.graph.Exceeds game.config.maxDepth

/-- What keeps to low events does not come to the limit. -/
theorem Repertoire.Conforms.not_tooDeep {game : Game}
    {low : ∀ name, game.graph.Low game.config.maxDepth (game.graph.scene name)}
    {I : Session → Prop} {α : Type} {x y : Play α} (h : (Repertoire.low game low).Conforms I x y)
    {s : Session} (hs : I s) : ¬Play.TooDeep (x s) := by
  intro deep
  cases is : x s with
  | ok a t =>
    rw [is] at deep
    exact deep
  | error e t =>
    have quiet := h.halts hs is
    rw [is] at deep
    cases e with
    | nestingTooDeep limit => exact quiet limit rfl
    | _ => exact deep

/-- **The limit of nesting gives no false alarm.** In a checked graph whose lists are no higher than
the limit no call ever comes to it, and one that does, in any graph, has found a chain of nested
events that is longer. -/
theorem nestsByHeight_session {game : Game} {host : Host} {s : Session}
    (started : game.session host = .ok s) (calls : List Call)
    (directed : ∀ call ∈ calls, call.Directed) : (s.after game calls).NestsByHeight game := by
  obtain ⟨vars, -, rfl⟩ := Game.session_eq_ok_iff.mp started
  generalize now : (Session.start host vars (.bare .fallback)).after game calls = s
  have billed (low) : (Repertoire.low game low).Billed s :=
    now ▸ (Repertoire.billed_after _ (Repertoire.billed_start _ host vars) fun call mem =>
      (directed call mem).directs).1
  have quiet (low : ∀ name, game.graph.Low game.config.maxDepth (game.graph.scene name)) :
      ¬Play.TooDeep (Play.run game s) :=
    Repertoire.Conforms.run.not_tooDeep (billed low)
  have quietCall (low : ∀ name, game.graph.Low game.config.maxDepth (game.graph.scene name))
      {call : Call} (directed : call.Directed) : ¬Play.TooDeep (call.perform game s) :=
    (Repertoire.conforms_perform _ directed.directs).not_tooDeep (billed low)
  exact
    { list := fun _ => rfl
      event := eventHeight_eq game.graph
      unique := eventHeight_unique
      quiet := fun checked low => quiet (low_scene (check_eq_ok_iff_valid.mp checked) low)
      quietCall := fun checked low => quietCall (low_scene (check_eq_ok_iff_valid.mp checked) low)
      alarm := fun deep => by_contra fun none => quiet (low_of_not_exceeds none) deep
      alarmCall := fun directed deep =>
        by_contra fun none => quietCall (low_of_not_exceeds none) directed deep }

/-- The events of the yard with the bell are four levels high, which is enough. With a limit of two
the run comes to it. -/
theorem nestsByHeight_session_bell :
    (∃ s, (Game.bell.withLimit 4).session (.fresh .empty (some 9) false) = .ok s ∧
      Game.bell.graph.check = .ok () ∧
      (∀ scene ∈ Game.bell.graph.scenes, Game.bell.graph.Low 4 scene) ∧
      (s.after (Game.bell.withLimit 4) [.enter "yard", .frame]).NestsByHeight
        (Game.bell.withLimit 4)) ∧
    ∃ s, (Game.bell.withLimit 2).session (.fresh .empty (some 9) false) = .ok s ∧
      Play.TooDeep (Play.run (Game.bell.withLimit 2) s) ∧ s.NestsByHeight (Game.bell.withLimit 2) :=
  ⟨⟨_, rfl, by decide +kernel, by decide +kernel, nestsByHeight_session rfl _ (by decide)⟩,
    ⟨_, rfl, by decide +kernel, nestsByHeight_session rfl [] (List.forall_mem_nil _)⟩⟩

end Overworld
