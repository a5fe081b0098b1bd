import Mathlib.Tactic.ByContra
import Overworld.Graph.Builder
import Overworld.Proofs.RoundTrip
import Overworld.Proofs.Validity

/-!
Graphs that are built call by call.

A list is added at the end of the lists, and its handle is the place where it then stands. Nothing
is ever taken out or moved, so a handle resolves to the list that it was given for, whatever else is
added before and after (`SceneGraph.mem_returned`), and the handles given out are exactly those that
the finished graph has (`SceneGraph.has_grown_iff`). So a graph fails the check only for what the
calls themselves have asked for.
-/

namespace Overworld

/-- A call that adds something to a graph. -/
inductive BuildCall where
  | list (events : List Event)
  | declare (name : String) (value : Value)
  | scene (scene : Scene)
  | script (name : String) (events : Handle)
  | startAt (name : String)

namespace BuildCall

/-- The list that a call asks a handle for. -/
def list? : BuildCall → Option (List Event)
  | .list events => some events
  | _ => none

/-- The list that a call adds. -/
def added? : BuildCall → Option (List Event)
  | .list (event :: events) => some (event :: events)
  | _ => none

/-- The variable that a call declares. -/
def declaration? : BuildCall → Option VariableDecl
  | .declare name value => some ⟨name, value⟩
  | _ => none

/-- The scene that a call adds. -/
def scene? : BuildCall → Option Scene
  | .scene s => some s
  | _ => none

/-- The script that a call adds. -/
def script? : BuildCall → Option Script
  | .script name events => some ⟨"", name, events⟩
  | _ => none

/-- The scene to start with that a call names. -/
def start? : BuildCall → Option String
  | .startAt name => some name
  | _ => none

/-- The handles that a call makes use of. -/
def uses : BuildCall → List Handle
  | .list events => events.flatMap Event.children
  | .scene s => s.roots
  | .script _ events => [events]
  | _ => []

end BuildCall

/-- A list that a handle was asked for, and the handle. -/
structure GivenHandle where
  events : List Event
  handle : Handle
deriving DecidableEq

namespace SceneGraph

/-- The graph after a call. -/
def called (g : SceneGraph) : BuildCall → SceneGraph
  | .list events => (g.addList events).2
  | .declare name value => g.addVariable name value
  | .scene scene => g.addScene scene
  | .script name events => g.addScript name events
  | .startAt name => g.startAt name

/-- The graph after calls. -/
def grown (g : SceneGraph) (calls : List BuildCall) : SceneGraph := calls.foldl called g

/-- The handle that a call returns. -/
def answer? (g : SceneGraph) : BuildCall → Option GivenHandle
  | .list events => some ⟨events, (g.addList events).1⟩
  | _ => none

/-- The handles that calls return, in their order. -/
def returned (g : SceneGraph) : List BuildCall → List GivenHandle
  | [] => []
  | call :: calls => (g.answer? call).toList ++ (g.called call).returned calls

variable {g built : SceneGraph} {calls : List BuildCall} {call : BuildCall} {r : GivenHandle}

/-! ### What calls add -/

/-- A call adds at the end of each part of the graph what it is about, and nothing else. -/
theorem called_eq (g : SceneGraph) (call : BuildCall) :
    g.called call =
      { startingScene := call.start?.or g.startingScene
        declarations := g.declarations ++ call.declaration?.toList
        scenes := g.scenes ++ call.scene?.toList
        scripts := g.scripts ++ call.script?.toList
        lists := g.lists ++ call.added?.toList } := by
  cases call with
  | list events =>
    cases events <;> simp [called, addList, BuildCall.start?, BuildCall.declaration?,
      BuildCall.scene?, BuildCall.script?, BuildCall.added?]
  | _ =>
    simp [called, addVariable, addScene, addScript, startAt, BuildCall.start?,
      BuildCall.declaration?, BuildCall.scene?, BuildCall.script?, BuildCall.added?]

theorem grown_cons : g.grown (call :: calls) = (g.called call).grown calls := rfl

/-- What calls add stands in each part of the graph in their order. -/
theorem grown_eq :
    g.grown calls =
      { startingScene := (calls.filterMap BuildCall.start?).getLast?.or g.startingScene
        declarations := g.declarations ++ calls.filterMap BuildCall.declaration?
        scenes := g.scenes ++ calls.filterMap BuildCall.scene?
        scripts := g.scripts ++ calls.filterMap BuildCall.script?
        lists := g.lists ++ calls.filterMap BuildCall.added? } := by
  induction calls generalizing g with
  | nil => simp [grown]
  | cons call calls ih =>
    have adds {α : Type} (part? : BuildCall → Option α) :
        (call :: calls).filterMap part? = (part? call).toList ++ calls.filterMap part? := by
      rw [List.filterMap_cons]
      cases part? call <;> rfl
    have last : call.start?.toList.getLast? = call.start? := by cases call.start? <;> rfl
    rw [grown_cons, ih, called_eq]
    simp only [adds, List.getLast?_append, last, List.append_assoc, Option.or_assoc]

theorem lists_called (g : SceneGraph) (call : BuildCall) :
    (g.called call).lists = g.lists ++ call.added?.toList := by rw [called_eq]

theorem lists_grown : (g.grown calls).lists = g.lists ++ calls.filterMap BuildCall.added? := by
  rw [grown_eq]

/-! ### The handles that are given out -/

/-- The handle of an empty list is the empty one, and that of any other the place where it is
added. -/
theorem answer?_eq_some (is : g.answer? call = some r) :
    (r.events = [] ∧ r.handle = .empty) ∨
      (r.events ≠ [] ∧ r.handle = ⟨g.lists.length⟩ ∧ call.added? = some r.events) := by
  cases call with
  | list events =>
    cases is
    cases events with
    | nil => exact .inl ⟨rfl, rfl⟩
    | cons event events => exact .inr ⟨List.cons_ne_nil _ _, rfl, rfl⟩
  | _ => exact nomatch is

/-- Whatever is added has a handle. -/
theorem answer?_of_added {events : List Event} (adds : call.added? = some events) :
    g.answer? call = some ⟨events, ⟨g.lists.length⟩⟩ := by
  cases call with
  | list events' =>
    cases events' with
    | nil => exact nomatch adds
    | cons event events' =>
      cases adds
      rfl
  | _ => exact nomatch adds

/-- A handle is given out for each list, in the order of the calls. -/
theorem events_returned : (g.returned calls).map (·.events) = calls.filterMap BuildCall.list? := by
  induction calls generalizing g with
  | nil => rfl
  | cons call calls ih =>
    rw [returned, List.map_append, ih]
    cases call <;> rfl

theorem length_lists_called : g.lists.length ≤ (g.called call).lists.length := by
  rw [lists_called, List.length_append]
  omega

/-- A handle that is given out is the empty one for an empty list, and otherwise that of the list, at
a place that was free. -/
theorem mem_returned (mem : r ∈ g.returned calls) :
    (r.events = [] ∧ r.handle = .empty) ∨
      (r.events ≠ [] ∧ g.lists.length ≤ r.handle.index ∧
        (g.grown calls).lists[r.handle.index]? = some r.events) := by
  induction calls generalizing g with
  | nil => exact nomatch mem
  | cons call calls ih =>
    rw [grown_cons]
    rcases List.mem_append.mp mem with now | later
    · rcases answer?_eq_some (Option.mem_toList.mp now) with none | ⟨some, place, adds⟩
      · exact .inl none
      · refine .inr ⟨some, ?_⟩
        rw [place, lists_grown, lists_called, adds]
        simp
    · rcases ih later with none | ⟨some, place, found⟩
      · exact .inl none
      · exact .inr ⟨some, Nat.le_trans length_lists_called place, found⟩

/-- No two lists that are not empty are given the same handle. -/
theorem pairwise_returned :
    (g.returned calls).Pairwise fun r r' =>
      r.events ≠ [] → r'.events ≠ [] → r.handle ≠ r'.handle := by
  induction calls generalizing g with
  | nil => exact .nil
  | cons call calls ih =>
    refine List.pairwise_append.mpr ⟨?_, ih, ?_⟩
    · cases g.answer? call with
      | none => exact .nil
      | some r => exact List.pairwise_singleton _ r
    · intro r now r' later some some' same
      rcases answer?_eq_some (Option.mem_toList.mp now) with ⟨none, -⟩ | ⟨-, place, adds⟩
      · exact some none
      · rcases mem_returned later with ⟨none, -⟩ | ⟨-, place', -⟩
        · exact some' none
        · rw [← same, place, lists_called, adds, Option.toList_some, List.length_append,
            List.length_singleton] at place'
          exact Nat.not_succ_le_self _ place'

/-- Every place that was free and is taken has a handle that was given out for it. -/
theorem exists_returned {i : Nat} (free : g.lists.length ≤ i)
    (taken : i < (g.grown calls).lists.length) : ∃ r ∈ g.returned calls, r.handle = ⟨i⟩ := by
  induction calls generalizing g with
  | nil => exact absurd taken (Nat.not_lt.mpr free)
  | cons call calls ih =>
    by_cases later : (g.called call).lists.length ≤ i
    · obtain ⟨r, mem, is⟩ := ih later taken
      exact ⟨r, List.mem_append_right _ mem, is⟩
    · rw [lists_called, List.length_append] at later
      cases adds : call.added? with
      | none =>
        rw [adds] at later
        exact absurd free later
      | some events =>
        rw [adds, Option.toList_some, List.length_singleton] at later
        have place : i = g.lists.length := by omega
        refine ⟨_, List.mem_append_left _ (Option.mem_toList.mpr (answer?_of_added adds)), ?_⟩
        rw [place]

theorem handle_ne_empty (mem : r ∈ empty.returned calls) (some : r.events ≠ []) :
    r.handle ≠ .empty := by
  rcases mem_returned mem with ⟨none, -⟩ | ⟨-, place, -⟩
  · exact absurd none some
  · intro none
    rw [none] at place
    exact Nat.not_succ_le_zero 0 place

/-- Two handles at different places differ, if one of them is that of a list that is not empty. -/
theorem handle_ne_of_ne {i j : Nat} {r r' : GivenHandle}
    (is : (empty.returned calls)[i]? = some r) (is' : (empty.returned calls)[j]? = some r')
    (some : r.events ≠ []) (other : i ≠ j) : r'.handle ≠ r.handle := by
  obtain ⟨inside, rfl⟩ := List.getElem?_eq_some_iff.mp is
  obtain ⟨inside', rfl⟩ := List.getElem?_eq_some_iff.mp is'
  have pairwise : (empty.returned calls).Pairwise _ := pairwise_returned
  have distinct := List.pairwise_iff_getElem.mp pairwise
  have nonempty := handle_ne_empty (List.getElem_mem inside) some
  rcases mem_returned (List.getElem_mem inside') with ⟨-, none⟩ | ⟨some', -⟩
  · rw [none]
    exact Ne.symm nonempty
  · rcases Nat.lt_or_gt_of_ne other with before | after
    · exact Ne.symm (distinct i j inside inside' before some some')
    · exact distinct j i inside' inside after some' some

/-- A graph has one list more than lists were added to it, at most. -/
theorem length_lists_grown_le :
    (empty.grown calls).lists.length ≤ (calls.filterMap BuildCall.list?).length + 1 := by
  rw [lists_grown, List.length_append, Nat.add_comm]
  refine Nat.add_le_add_right ?_ 1
  induction calls with
  | nil => exact Nat.le_refl _
  | cons call calls ih =>
    cases call with
    | list events =>
      cases events with
      | nil => exact Nat.le_succ_of_le ih
      | cons event events => exact Nat.succ_le_succ ih
    | _ => exact ih

/-- The handles of a graph built from nothing are the empty one and those that were given out. -/
theorem has_grown_iff {h : Handle} :
    (empty.grown calls).Has h ↔ h = .empty ∨ h ∈ (empty.returned calls).map (·.handle) := by
  have zero : h = .empty ↔ h.index = 0 := by
    cases h
    exact Handle.mk.injEq .. ▸ Iff.rfl
  rw [Has, zero, List.mem_map]
  by_cases first : h.index = 0
  · simp only [first, true_or]
  · simp only [first, false_or]
    constructor
    · intro taken
      exact exists_returned (Nat.one_le_iff_ne_zero.mpr first) taken
    · rintro ⟨r, mem, rfl⟩
      rcases mem_returned mem with ⟨-, none⟩ | ⟨-, -, found⟩
      · exact absurd (zero.mp none) first
      · exact (List.getElem?_eq_some_iff.mp found).1

/-! ### What is asked of a graph that is built -/

/-- Calls that ask for something that no graph may have. -/
inductive Spoilt (calls : List BuildCall) : Prop where
  | handle {h : Handle} (used : h ∈ calls.flatMap BuildCall.uses) (some : h ≠ .empty)
    (unknown : h ∉ (empty.returned calls).map (·.handle))
  | names (again : ¬((calls.filterMap BuildCall.declaration?).map (·.name)).Nodup)
  | map {scene : Scene} {m : TileMap} (mem : .scene scene ∈ calls) (onMap : scene.map = some m)
    (bad : m.fault? ≠ none)
  | buttons {events : List Event} {event : Event} (mem : .list events ∈ calls)
    (mem' : event ∈ events) (many : 10 < event.buttons.length)

theorem mem_scenes_grown {scene : Scene} :
    scene ∈ (empty.grown calls).scenes ↔ .scene scene ∈ calls := by
  have adds (call : BuildCall) : call.scene? = some scene ↔ call = .scene scene := by
    cases call <;> simp [BuildCall.scene?]
  simp [grown_eq, empty, List.mem_filterMap, adds]

theorem mem_scripts_grown {script : Script} :
    script ∈ (empty.grown calls).scripts ↔
      ∃ name events, .script name events ∈ calls ∧ script = ⟨"", name, events⟩ := by
  simp only [grown_eq, empty, List.nil_append, List.mem_filterMap]
  constructor
  · rintro ⟨call, mem, is⟩
    cases call with
    | script name events => exact ⟨name, events, mem, (Option.some.inj is).symm⟩
    | _ => exact nomatch is
  · rintro ⟨name, events, mem, rfl⟩
    exact ⟨_, mem, rfl⟩

/-- The lists of a graph built from nothing are the reserved one and those that were added. -/
theorem mem_lists_grown {list : List Event} :
    list ∈ (empty.grown calls).lists ↔ list = [] ∨ .list list ∈ calls := by
  rw [lists_grown]
  simp only [empty, List.singleton_append, List.mem_cons, List.mem_filterMap]
  by_cases none : list = []
  · simp [none]
  · simp only [none, false_or]
    constructor
    · rintro ⟨call, mem, adds⟩
      cases call with
      | list events =>
        cases events with
        | nil => exact nomatch adds
        | cons event events =>
          cases adds
          exact mem
      | _ => exact nomatch adds
    · intro mem
      obtain ⟨event, events, rfl⟩ := List.exists_cons_of_ne_nil none
      exact ⟨_, mem, rfl⟩

theorem reserved_grown : ∀ list, (empty.grown calls).lists.head? = some list → list = [] := by
  rw [lists_grown]
  rintro list is
  exact (Option.some.inj is).symm

/-- A graph built from nothing is valid unless the calls ask for something that it may not have. -/
theorem valid_grown_iff : (empty.grown calls).Valid ↔ ¬Spoilt calls := by
  constructor
  · intro valid spoilt
    cases spoilt with
    | @handle h used some unknown =>
      obtain ⟨call, mem, used⟩ := List.mem_flatMap.mp used
      have has : (empty.grown calls).Has h := by
        cases call with
        | list events =>
          obtain ⟨event, mem', used⟩ := List.mem_flatMap.mp used
          exact valid.children events (mem_lists_grown.mpr (.inr mem)) event mem' h used
        | scene scene => exact valid.roots scene (mem_scenes_grown.mpr mem) h used
        | script name events =>
          cases List.mem_singleton.mp used
          exact valid.scripts _ (mem_scripts_grown.mpr ⟨name, h, mem, rfl⟩)
        | _ => exact nomatch used
      rcases has_grown_iff.mp has with none | known
      · exact some none
      · exact unknown known
    | names again =>
      have distinct := valid.names
      rw [grown_eq] at distinct
      exact again distinct
    | map mem onMap bad =>
      exact bad (TileMap.fault?_eq_none_iff.mpr (valid.maps _ (mem_scenes_grown.mpr mem) _ onMap))
    | buttons mem mem' many =>
      have few := valid.buttons _ (mem_lists_grown.mpr (.inr mem)) _ mem'
      omega
  · intro fine
    have has {h : Handle} {call : BuildCall} (mem : call ∈ calls) (used : h ∈ call.uses) :
        (empty.grown calls).Has h := by
      by_contra missing
      rw [has_grown_iff, not_or] at missing
      exact fine (.handle (List.mem_flatMap.mpr ⟨call, mem, used⟩) missing.1 missing.2)
    constructor
    case reserved => exact reserved_grown
    case names =>
      by_contra again
      rw [grown_eq] at again
      exact fine (.names again)
    case maps =>
      intro scene mem m onMap
      by_contra bad
      rw [← TileMap.fault?_eq_none_iff] at bad
      exact fine (.map (mem_scenes_grown.mp mem) onMap bad)
    case roots =>
      intro scene mem h root
      exact has (mem_scenes_grown.mp mem) root
    case scripts =>
      intro script mem
      obtain ⟨name, events, asked, rfl⟩ := mem_scripts_grown.mp mem
      exact has asked (List.mem_singleton_self events)
    case children =>
      intro list mem event mem' h used
      rcases mem_lists_grown.mp mem with rfl | mem
      · exact nomatch mem'
      · exact has mem (List.mem_flatMap.mpr ⟨event, mem', used⟩)
    case buttons =>
      intro list mem event mem'
      rcases mem_lists_grown.mp mem with rfl | mem
      · exact nomatch mem'
      · by_contra many
        exact fine (.buttons mem mem' (by omega))

theorem finish_eq_ok_iff : g.finish = .ok built ↔ built = g ∧ g.Valid := by
  rw [← check_eq_ok_iff_valid, finish]
  cases g.check with
  | error e => simp [Except.map]
  | ok => simp [Except.map, eq_comm]

theorem finish_eq_error_iff : (∃ e, g.finish = .error e) ↔ ¬g.Valid := by
  rw [← check_eq_ok_iff_valid, finish]
  cases g.check with
  | error e => simp [Except.map]
  | ok => simp [Except.map]

/-! ### The law of handles -/

/-- What comes of calls that build a graph from nothing. -/
structure BuildsStably (calls : List BuildCall) : Prop where
  /-- Each list is given a handle: -/
  answered : ((empty.returned calls).map (·.events)) = calls.filterMap BuildCall.list?
  /-- an empty one the empty handle, -/
  reserved : ∀ r ∈ empty.returned calls, r.events = [] → r.handle = .empty
  /-- and any other a handle of its own, -/
  distinct {i j : Nat} {r r' : GivenHandle} (is : (empty.returned calls)[i]? = some r)
    (is' : (empty.returned calls)[j]? = some r') (some : r.events ≠ []) :
    r.handle ≠ .empty ∧ (i ≠ j → r'.handle ≠ r.handle)
  /-- of 32 bits, if these can tell the lists apart. -/
  fits (few : (calls.filterMap BuildCall.list?).length < Number.word32) :
    ∀ r ∈ empty.returned calls, r.handle.Fits
  /-- In the finished graph each handle resolves to its list, -/
  resolves {built : SceneGraph} (is : (empty.grown calls).finish = .ok built) :
    ∀ r ∈ empty.returned calls, built.events r.handle = r.events
  /-- and what else was added stands in the order of the calls. -/
  ordered {built : SceneGraph} (is : (empty.grown calls).finish = .ok built) :
    built.scenes = calls.filterMap BuildCall.scene? ∧
      built.scripts = calls.filterMap BuildCall.script? ∧
      built.declarations = calls.filterMap BuildCall.declaration? ∧
      built.startingScene = (calls.filterMap BuildCall.start?).getLast?
  /-- It is refused exactly if the calls ask for something that no graph may have. -/
  refused : (∃ e, (empty.grown calls).finish = .error e) ↔ Spoilt calls

/-- **Handles are stable.** However calls follow one another, a handle stands for the list that it
was given for, from then on and in the finished graph; the graph can be finished unless a handle is
used that was never given out, or something else is asked for that no graph may have. -/
theorem buildsStably (calls : List BuildCall) : BuildsStably calls := by
  constructor
  case answered => exact events_returned
  case reserved =>
    intro r mem none
    rcases mem_returned mem with ⟨-, is⟩ | ⟨some, -⟩
    · exact is
    · exact absurd none some
  case distinct =>
    intro i j r r' is is' some
    exact ⟨handle_ne_empty (List.mem_of_getElem? is) some, handle_ne_of_ne is is' some⟩
  case fits =>
    intro few r mem
    have lists : (empty.grown calls).lists.length ≤ _ := length_lists_grown_le
    unfold Handle.Fits
    rcases mem_returned mem with ⟨-, none⟩ | ⟨-, -, found⟩
    · rw [none]
      decide
    · have place := (List.getElem?_eq_some_iff.mp found).1
      omega
  case resolves =>
    intro built is r mem
    obtain ⟨rfl, valid⟩ := finish_eq_ok_iff.mp is
    rcases mem_returned mem with ⟨none, is⟩ | ⟨-, -, found⟩
    · rw [none, is]
      exact valid.events_empty
    · rw [events, found]
      rfl
  case ordered =>
    intro built is
    obtain ⟨rfl, -⟩ := finish_eq_ok_iff.mp is
    rw [grown_eq]
    exact ⟨rfl, rfl, rfl, Option.or_none⟩
  case refused => rw [finish_eq_error_iff, valid_grown_iff, Classical.not_not]

end SceneGraph

end Overworld
