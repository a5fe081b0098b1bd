import Overworld.Graph.Faults

/-!
What the check of a graph asks for.

`SceneGraph.check` goes through a graph and reports the first fault. `SceneGraph.Valid` says what a
graph without faults is, one part after the other; each group of faults is empty exactly if its part
holds, so that the check accepts exactly the valid graphs (`SceneGraph.check_eq_ok_iff_valid`).
-/

namespace Overworld

/-! ### Maps -/

/-- A map whose numbers fit together. -/
structure TileMap.Valid (m : TileMap) : Prop where
  width : 0 ≤ m.width
  height : 0 ≤ m.height
  grid : 0 < m.grid
  area : (m.cells.length : Int) = m.width * m.height
  cells : ∀ cell ∈ m.cells, cell = 0 ∨ cell = 1

namespace TileMap

variable {m : TileMap}

theorem area_eq (width : 0 ≤ m.width) (height : 0 ≤ m.height) :
    (m.area : Int) = m.width * m.height := by
  rw [area, Int.natCast_mul, Int.toNat_of_nonneg width, Int.toNat_of_nonneg height]

/-- No cell is found that is neither free nor blocked. -/
theorem find?_cells_eq_none_iff :
    (m.cells.zipIdx.find? fun cell => decide (1 < cell.1)) = none ↔
      ∀ cell ∈ m.cells, cell = 0 ∨ cell = 1 := by
  rw [List.find?_eq_none]
  constructor
  · intro none cell mem
    obtain ⟨i, inside, rfl⟩ := List.mem_iff_getElem.mp mem
    have numbered : (m.cells[i], i) ∈ m.cells.zipIdx :=
      List.mem_zipIdx_iff_getElem?.mpr (List.getElem?_eq_getElem inside)
    have small := none _ numbered
    simp only [decide_eq_true_eq] at small
    omega
  · rintro cells ⟨cell, i⟩ mem
    have few := cells cell (List.fst_mem_of_mem_zipIdx mem)
    simp only [decide_eq_true_eq]
    omega

theorem Valid.count (valid : m.Valid) : m.area = m.cells.length := by
  have size := area_eq valid.width valid.height
  have area := valid.area
  omega

theorem Valid.pixel_nonneg (valid : m.Valid) : 0 ≤ m.pixelWidth ∧ 0 ≤ m.pixelHeight :=
  ⟨Int.mul_nonneg valid.width (Int.le_of_lt valid.grid),
    Int.mul_nonneg valid.height (Int.le_of_lt valid.grid)⟩

/-- Nothing is wrong with a map exactly if its numbers fit together. -/
theorem fault?_eq_none_iff : m.fault? = none ↔ m.Valid := by
  unfold fault?
  constructor
  · intro none
    split at none
    · exact nomatch none
    rename_i size
    split at none
    · exact nomatch none
    rename_i grid
    split at none
    · exact nomatch none
    rename_i count
    have width : 0 ≤ m.width := by omega
    have height : 0 ≤ m.height := by omega
    exact
      { width, height
        grid := by omega
        area := by rw [← area_eq width height, Decidable.not_not.mp count]
        cells := find?_cells_eq_none_iff.mp (Option.map_eq_none_iff.mp none) }
  · intro valid
    have size : ¬(m.width < 0 ∨ m.height < 0) := by
      have := valid.width
      have := valid.height
      omega
    rw [if_neg size, if_neg (Int.not_le.mpr valid.grid), if_neg (not_not_intro valid.count),
      find?_cells_eq_none_iff.mpr valid.cells, Option.map_none]

/-- The place of a tile of a valid map is one of its cells. -/
theorem Valid.index_lt (valid : m.Valid) {tile : Tile} {i : Nat} (is : m.index? tile = some i) :
    i < m.cells.length := by
  unfold index? at is
  split at is
  · exact nomatch is
  rename_i inside
  cases is
  have across : tile.x.toNat < m.width.toNat := by omega
  have down : tile.y.toNat < m.height.toNat := by omega
  calc tile.y.toNat * m.width.toNat + tile.x.toNat
      < (tile.y.toNat + 1) * m.width.toNat := by rw [Nat.succ_mul]; omega
    _ ≤ m.height.toNat * m.width.toNat := Nat.mul_le_mul_right _ down
    _ = m.cells.length := by rw [← valid.count, TileMap.area, Nat.mul_comm]

end TileMap

/-! ### Variables -/

/-- Variables can be declared exactly if their names are distinct and none of them was declared. -/
theorem Variables.declares_iff {declarations : List (String × Value)} {vars : Variables} :
    (∃ after, declarations.foldlM (fun vars d => vars.declare d.1 d.2) vars = .ok after) ↔
      (declarations.map (·.1)).Nodup ∧ ∀ name ∈ declarations.map (·.1), name ∉ vars.names := by
  induction declarations generalizing vars with
  | nil => exact ⟨fun _ => ⟨.nil, List.forall_mem_nil _⟩, fun _ => ⟨vars, rfl⟩⟩
  | cons d declarations ih =>
    rw [List.foldlM_cons, List.map_cons]
    by_cases before : d.1 ∈ vars.names
    · have refused : vars.declare d.1 d.2 = .error (.duplicate d.1) := by
        simp [declare, has, before]
      rw [refused]
      exact ⟨nofun, fun ⟨_, new⟩ => absurd before (new d.1 List.mem_cons_self)⟩
    · have declared : vars.declare d.1 d.2 = .ok ⟨vars.entries ++ [(d.1, d.2)]⟩ := by
        simp [declare, has, before]
      rw [declared]
      refine ih.trans ?_
      simp only [names, List.map_append, List.map_cons, List.map_nil, List.mem_append,
        List.nodup_cons, List.mem_cons, forall_eq_or_imp]
      grind [names]

/-! ### Graphs -/

/-- The lists that a scene has run: on entry, by its sensors, and by its actors. -/
def Scene.roots (s : Scene) : List Handle :=
  s.events ::
    ((s.map.elim [] fun m => m.sensors.map (·.events)) ++
      s.actors.flatMap fun a => [a.init, a.interact, a.update])

namespace SceneGraph

/-- A handle of a list of the graph, or the empty one. -/
def Has (g : SceneGraph) (h : Handle) : Prop := h.index = 0 ∨ h.index < g.lists.length

/-- A graph in which nothing is wrong. -/
structure Valid (g : SceneGraph) : Prop where
  /-- The reserved list is empty, if there are lists at all. -/
  reserved : ∀ list, g.lists.head? = some list → list = []
  names : (g.declarations.map (·.name)).Nodup
  maps : ∀ scene ∈ g.scenes, ∀ m, scene.map = some m → m.Valid
  roots : ∀ scene ∈ g.scenes, ∀ h ∈ scene.roots, g.Has h
  scripts : ∀ script ∈ g.scripts, g.Has script.events
  children : ∀ list ∈ g.lists, ∀ event ∈ list, ∀ h ∈ event.children, g.Has h
  buttons : ∀ list ∈ g.lists, ∀ event ∈ list, event.buttons.length ≤ 10

variable {g : SceneGraph}

theorem resolves_iff {h : Handle} : g.resolves h = true ↔ g.Has h := by
  have empty : h = .empty ↔ h.index = 0 := by
    cases h
    exact Handle.mk.injEq .. ▸ Iff.rfl
  rw [resolves, Bool.or_eq_true, decide_eq_true_eq, beq_iff_eq, empty]
  exact or_comm

/-- No handle but those of lists and the empty one has a fault. -/
theorem handleFaults_eq_nil_iff {owner : Owner} {h : Handle} :
    g.handleFaults owner h = [] ↔ g.Has h := by
  rw [← resolves_iff, handleFaults]
  cases g.resolves h <;> simp

theorem reservedFaults_eq_nil_iff :
    g.reservedFaults = [] ↔ ∀ list, g.lists.head? = some list → list = [] := by
  unfold reservedFaults
  rcases g.lists with _ | ⟨_ | ⟨event, events⟩, lists⟩ <;> simp

/-- No name comes again exactly if the names are distinct and none of them was seen. -/
theorem repeated_eq_nil_iff {seen names : List String} :
    repeated seen names = [] ↔ names.Nodup ∧ ∀ name ∈ names, name ∉ seen := by
  induction names generalizing seen with
  | nil => simp [repeated]
  | cons name names ih =>
    rw [repeated]
    by_cases before : name ∈ seen
    · simp [before]
    · simp only [List.contains_iff_mem, before, if_false, ih, List.nodup_cons, List.mem_cons,
        forall_eq_or_imp, not_or, not_false_eq_true]
      constructor
      · rintro ⟨distinct, new⟩
        exact ⟨⟨fun mem => (new name mem).1 rfl, distinct⟩, trivial, fun n mem => (new n mem).2⟩
      · rintro ⟨⟨fresh, distinct⟩, -, new⟩
        exact ⟨distinct, fun n mem => ⟨fun is => fresh (is ▸ mem), new n mem⟩⟩

theorem mapFaults_eq_nil_iff {label : String} {m : TileMap} :
    g.mapFaults label m = [] ↔ m.Valid ∧ ∀ sensor ∈ m.sensors, g.Has sensor.events := by
  rw [mapFaults, List.append_eq_nil_iff, ← TileMap.fault?_eq_none_iff]
  simp [handleFaults_eq_nil_iff]

theorem sceneFaults_eq_nil_iff {scene : Scene} :
    g.sceneFaults scene = [] ↔
      (∀ m, scene.map = some m → m.Valid) ∧ ∀ h ∈ scene.roots, g.Has h := by
  unfold sceneFaults Scene.roots
  cases scene.map <;>
  · simp only [List.append_eq_nil_iff, handleFaults_eq_nil_iff, mapFaults_eq_nil_iff,
      List.flatMap_eq_nil_iff, List.mem_cons, List.mem_append, List.mem_map, List.mem_flatMap,
      Option.elim_some, Option.elim_none, List.not_mem_nil, Option.some.injEq, reduceCtorEq]
    grind

theorem eventFaults_eq_nil_iff {owner : Owner} {event : Event} :
    g.eventFaults owner event = [] ↔
      (∀ h ∈ event.children, g.Has h) ∧ event.buttons.length ≤ 10 := by
  rw [eventFaults, List.append_eq_nil_iff, List.flatMap_eq_nil_iff]
  simp only [handleFaults_eq_nil_iff]
  refine and_congr_right fun _ => ?_
  by_cases many : buttonLimit < event.buttons.length
  · rw [if_pos many]
    exact ⟨nofun, fun few => absurd many (Nat.not_lt.mpr few)⟩
  · rw [if_neg many]
    exact ⟨fun _ => Nat.not_lt.mp many, fun _ => rfl⟩

theorem listFaults_eq_nil_iff :
    g.listFaults = [] ↔ ∀ list ∈ g.lists, ∀ event ∈ list,
      (∀ h ∈ event.children, g.Has h) ∧ event.buttons.length ≤ 10 := by
  have numbered {α : Type} (xs : List α) (p : α → Prop) :
      (∀ x ∈ xs.zipIdx, p x.1) ↔ ∀ x ∈ xs, p x := by
    have fst : xs.zipIdx.map (·.1) = xs := List.zipIdx_map_fst 0 xs
    rw [← List.forall_mem_map (P := p), fst]
  simp only [listFaults, List.flatMap_eq_nil_iff, eventFaults_eq_nil_iff]
  refine Iff.trans (forall₂_congr fun list _ => numbered list.1 fun event =>
    (∀ h ∈ event.children, g.Has h) ∧ event.buttons.length ≤ 10) ?_
  exact numbered g.lists fun list => ∀ event ∈ list,
    (∀ h ∈ event.children, g.Has h) ∧ event.buttons.length ≤ 10

/-- The check accepts exactly the valid graphs. -/
theorem check_eq_ok_iff_valid : g.check = .ok () ↔ g.Valid := by
  rw [check_eq_ok_iff]
  simp only [faults, List.append_eq_nil_iff, List.map_eq_nil_iff, List.flatMap_eq_nil_iff,
    reservedFaults_eq_nil_iff, repeated_eq_nil_iff, sceneFaults_eq_nil_iff, handleFaults_eq_nil_iff,
    listFaults_eq_nil_iff]
  constructor
  · rintro ⟨⟨⟨⟨reserved, names, -⟩, scenes⟩, scripts⟩, lists⟩
    exact
      { reserved, names, scripts
        maps := fun scene mem => (scenes scene mem).1
        roots := fun scene mem => (scenes scene mem).2
        children := fun list mem event mem' => (lists list mem event mem').1
        buttons := fun list mem event mem' => (lists list mem event mem').2 }
  · intro valid
    exact
      ⟨⟨⟨⟨valid.reserved, valid.names, fun _ _ => List.not_mem_nil⟩,
        fun scene mem => ⟨valid.maps scene mem, valid.roots scene mem⟩⟩, valid.scripts⟩,
        fun list mem event mem' =>
          ⟨valid.children list mem event mem', valid.buttons list mem event mem'⟩⟩

/-- The variables of a graph can be declared exactly if their names are distinct. -/
theorem freshVariables_isOk_iff :
    (∃ vars, g.freshVariables = .ok vars) ↔ (g.declarations.map (·.name)).Nodup := by
  refine Variables.declares_iff.trans ?_
  rw [List.map_map]
  exact and_iff_left fun _ _ => List.not_mem_nil

namespace Valid

/-- The empty handle is that of no events. -/
theorem events_empty (valid : g.Valid) : g.events .empty = [] := by
  have reserved := valid.reserved
  unfold events
  cases lists : g.lists with
  | nil => rfl
  | cons list rest =>
    rw [lists] at reserved
    exact reserved list rfl

end Valid

end SceneGraph

end Overworld
