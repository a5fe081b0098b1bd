import Overworld.Format.Graph
import Overworld.Proofs.Readback

/-!
Graphs read back as they were written.

One lemma for each type says that the form of a value reads back, and how many containers may still
nest for it; each is put together from those of its fields. The numbers of a graph have to fit the
widths at which they are stored (`SceneGraph.Fits`), and speeds have to be finite, for which alone
there is a number in a text.
-/

namespace Overworld

open Json

/-! ### The widths of numbers -/

/-- An integer of 32 bits with a sign. -/
def Number.Within32 (n : Int) : Prop := -2147483648 ≤ n ∧ n ≤ 2147483647

/-- A handle of 32 bits. -/
def Handle.Fits (h : Handle) : Prop := h.index < Number.word32

def Sensor.Fits (s : Sensor) : Prop :=
  (∀ n ∈ [s.x, s.y, s.width, s.height], Number.Within32 n) ∧ s.events.Fits

def TileMap.Fits (m : TileMap) : Prop :=
  (∀ n ∈ [m.width, m.height, m.grid], Number.Within32 n) ∧ (∀ cell ∈ m.cells, cell < 256) ∧
    ∀ sensor ∈ m.sensors, sensor.Fits

def SpriteSheet.Fits (s : SpriteSheet) : Prop := Number.Within32 s.width ∧ Number.Within32 s.height

def ActorDef.Fits (a : ActorDef) : Prop :=
  a.sheet.Fits ∧ ∀ h ∈ [a.init, a.interact, a.update], h.Fits

def Scene.Fits (s : Scene) : Prop :=
  s.events.Fits ∧ (∀ spawn ∈ s.player, spawn.sheet.Fits) ∧ (∀ map ∈ s.map, map.Fits) ∧
    (∀ actor ∈ s.actors, actor.Fits) ∧ ∀ prop ∈ s.props, prop.sheet.Fits

namespace Event

/-- The integers of an event. -/
def integers : Event → List Int
  | .playMusic _ volume _ => [volume]
  | .playSound _ volume _ panning priority => [volume, panning, priority]
  | _ => []

/-- The numbers of an event that are not integers. -/
def speeds : Event → List Float32
  | .playSound _ _ speed _ _ => [speed]
  | _ => []

def Fits (e : Event) : Prop :=
  (∀ h ∈ e.children, h.Fits) ∧ (∀ n ∈ e.integers, Number.Within32 n) ∧
    ∀ speed ∈ e.speeds, speed.isFinite = true

end Event

/-- A graph whose numbers have the widths at which they are stored, and whose speeds are finite. -/
def SceneGraph.Fits (g : SceneGraph) : Prop :=
  (∀ scene ∈ g.scenes, scene.Fits) ∧ (∀ script ∈ g.scripts, script.events.Fits) ∧
    ∀ list ∈ g.lists, ∀ event ∈ list, event.Fits

instance : DecidablePred Number.Within32 := fun _ => inferInstanceAs (Decidable (_ ∧ _))
instance : DecidablePred Handle.Fits := fun _ => inferInstanceAs (Decidable (_ < _))
instance : DecidablePred Sensor.Fits := fun _ => inferInstanceAs (Decidable (_ ∧ _))
instance : DecidablePred TileMap.Fits := fun _ => inferInstanceAs (Decidable (_ ∧ _))
instance : DecidablePred SpriteSheet.Fits := fun _ => inferInstanceAs (Decidable (_ ∧ _))
instance : DecidablePred ActorDef.Fits := fun _ => inferInstanceAs (Decidable (_ ∧ _))
instance : DecidablePred Scene.Fits := fun _ => inferInstanceAs (Decidable (_ ∧ _))
instance : DecidablePred Event.Fits := fun _ => inferInstanceAs (Decidable (_ ∧ _))
instance : DecidablePred SceneGraph.Fits := fun _ => inferInstanceAs (Decidable (_ ∧ _))

variable {depth : Nat}

/-! ### Names and values -/

/-- What may be left out reads back, if its form is not taken for nothing. -/
theorem Json.ReadsBack.option {α : Type} {reader : Reader α} {form : α → Json} {o : Option α}
    (h : ∀ x ∈ o, form x ≠ .null ∧ ReadsBack depth reader (form x) x) :
    ReadsBack depth (Json.nullable reader) (ofOption form o) o := by
  cases o with
  | none => exact .null reader
  | some x => exact .nullable (h x rfl).1 (h x rfl).2

theorem Direction.readsBack (d : Direction) : ReadsBack depth Direction.reader d.toJson d := by
  cases d <;> exact .nameIn rfl

theorem Axis.readsBack (a : Axis) : ReadsBack depth Axis.reader a.toJson a := by
  cases a <;> exact .nameIn rfl

theorem Button.readsBack (b : Button) : ReadsBack depth Button.reader b.toJson b := by
  cases b <;> exact .nameIn rfl

theorem Comparison.readsBack (c : Comparison) :
    ReadsBack depth Comparison.reader c.toJson c := by
  cases c <;> exact .nameIn rfl

/-- The text of a value is kept letter by letter. -/
theorem Value.readsBack (v : Value) : ReadsBack depth Value.reader v.toJson v := fun _ _ => rfl

theorem Json.ReadsBack.handle {h : Handle} (fits : h.Fits) :
    ReadsBack depth Handle.reader h.toJson h := by
  intro place le
  have read : Json.natBelow Number.word32 place (.ofNat h.index) = .ok h.index :=
    ReadsBack.natBelow fits place le
  rw [Handle.reader, Handle.toJson, read]
  rfl

/-! ### Expressions and conditions -/

theorem Expression.readsBack (e : Expression) :
    ReadsBack (depth + 1) Expression.reader e.toJson e := by
  cases e with
  | literal value =>
    refine .kinded rfl (by simp) (List.forall_mem_singleton.mpr (.string _)) ?_
    exact .record (by decide) (.cons value.readsBack rfl (.nil _)) rfl
  | «variable» name =>
    refine .kinded rfl (by simp) (List.forall_mem_singleton.mpr (.string _)) ?_
    exact .record (by decide) (.cons (.plainText name) rfl (.nil _)) rfl

theorem Condition.readsBack (c : Condition) :
    ReadsBack (depth + 2) Condition.reader c.toJson c :=
  .record (by decide)
    (.cons c.comparison.readsBack rfl <| .cons c.left.readsBack rfl <|
      .cons c.right.readsBack rfl <| .nil _) rfl

theorem StartPosition.readsBack (s : StartPosition) :
    ReadsBack (depth + 2) StartPosition.reader s.toJson s :=
  .record (by decide)
    (.cons s.x.readsBack rfl <| .cons s.y.readsBack rfl <| .cons s.direction.readsBack rfl <|
      .nil _) rfl

/-! ### Events -/

theorem Expression.faultless (e : Expression) : Faultless (depth + 1) e.toJson := by
  cases e with
  | literal value =>
    exact .record (List.forall_mem_cons.mpr ⟨.string _, List.forall_mem_singleton.mpr (.string _)⟩)
  | «variable» name =>
    exact .record (List.forall_mem_cons.mpr ⟨.string _, List.forall_mem_singleton.mpr (.string _)⟩)

theorem Condition.faultless (c : Condition) : Faultless (depth + 2) c.toJson := by
  have sign : Faultless (depth + 1) c.comparison.toJson := by
    cases c.comparison <;> exact .string _
  exact .record (List.forall_mem_cons.mpr ⟨sign, List.forall_mem_cons.mpr
    ⟨c.left.faultless, List.forall_mem_singleton.mpr c.right.faultless⟩⟩)

theorem StartPosition.faultless (s : StartPosition) : Faultless (depth + 2) s.toJson :=
  .record (List.forall_mem_cons.mpr ⟨s.x.faultless, List.forall_mem_cons.mpr
    ⟨s.y.faultless, List.forall_mem_singleton.mpr (.string _)⟩⟩)

namespace Event

/-- No field of an event is taken for its kind. -/
theorem fields_ne_type (e : Event) : ∀ field ∈ e.fields, field.1 ≠ "type" := by
  cases e <;> simp [fields]

/-- The fields of an event can be read through before they are looked at. -/
theorem faultless_fields (e : Event) : ∀ field ∈ e.fields, Faultless (depth + 3) field.2 := by
  have buttons (buttons : List Button) :
      Faultless (depth + 3) (.list (buttons.map Button.toJson)) :=
    .list (List.forall_mem_map.mpr fun _ _ => .string _)
  have conditions (conditions : List Condition) :
      Faultless (depth + 3) (.list (conditions.map Condition.toJson)) :=
    .list (List.forall_mem_map.mpr fun c _ => c.faultless)
  cases e <;>
    simp only [fields, List.forall_mem_cons, List.not_mem_nil, false_implies, implies_true,
      and_true, Expression.faultless, StartPosition.faultless, buttons, conditions,
      Faultless.string, Faultless.number, Faultless.bool, Handle.toJson, Json.ofInt, Json.ofNat,
      Axis.toJson, Value.toJson]

/-- Every event reads back, whatever its kind. -/
theorem readsBack {e : Event} (fits : e.Fits) :
    ReadsBack (depth + 4) Event.reader e.toJson e := by
  have named := e.fields_ne_type
  have faultless : ∀ field ∈ e.fields, Faultless (depth + 3) field.2 := e.faultless_fields
  have list (buttons : List Button) : ReadsBack (depth + 3) (listOf Button.reader)
      (.list (buttons.map Button.toJson)) buttons := .list fun b _ => b.readsBack
  obtain ⟨handles, integers, -⟩ := fits
  have handle {h : Handle} (mem : h ∈ e.children) :
      ReadsBack (depth + 3) Handle.reader h.toJson h := .handle (handles h mem)
  have integer {n : Int} (mem : n ∈ e.integers) : ReadsBack (depth + 3) int32 (.ofInt n) n :=
    .int (integers n mem)
  cases e <;> refine .kinded rfl named faultless ?_
  case wait duration | fadeIn duration | fadeOut duration =>
    exact .record (by decide) (.cons duration.readsBack rfl (.nil _)) rfl
  case goToScene target start =>
    exact .record (by decide)
      (.cons (.plainText target) rfl <| .cons start.readsBack rfl <| .nil _) rfl
  case waitForButton buttons =>
    exact .record (by decide) (.cons (list buttons) rfl (.nil _)) rfl
  case onButtonPress buttons body =>
    exact .record (by decide)
      (.cons (list buttons) rfl <| .cons (handle (by simp [children])) rfl <| .nil _) rfl
  case showDialog text => exact .record (by decide) (.cons (.plainText text) rfl (.nil _)) rfl
  case setVariable name value =>
    exact .record (by decide)
      (.cons (.plainText name) rfl <| .cons value.readsBack rfl <| .nil _) rfl
  case branch conditions yes no =>
    exact .record (by decide)
      (.cons (.list fun c _ => c.readsBack) rfl <| .cons (handle (by simp [children])) rfl <|
        .cons (handle (by simp [children])) rfl <| .nil _) rfl
  case disableActor actor | enableActor actor =>
    exact .record (by decide) (.cons (.plainText actor) rfl (.nil _)) rfl
  case playMusic name volume loops =>
    exact .record (by decide)
      (.cons (.plainText name) rfl <| .cons (integer (by simp [Event.integers])) rfl <|
        .cons (.boolean loops) rfl <| .nil _) rfl
  case playSound name volume speed panning priority =>
    exact .record (by decide)
      (.cons (.plainText name) rfl <| .cons (integer (by simp [Event.integers])) rfl <|
        .cons (.single speed) rfl <| .cons (integer (by simp [Event.integers])) rfl <|
          .cons (integer (by simp [Event.integers])) rfl <| .nil _) rfl
  case runScript name => exact .record (by decide) (.cons (.plainText name) rfl (.nil _)) rfl
  case moveCamera x y duration diagonal first =>
    exact .record (by decide)
      (.cons x.readsBack rfl <| .cons y.readsBack rfl <| .cons duration.readsBack rfl <|
        .cons (.boolean diagonal) rfl <| .cons first.readsBack rfl <| .nil _) rfl
  case disabled kind => exact .record (by decide) (.cons (.plainText kind) rfl (.nil _)) rfl
  case stopMusic | unknown => exact fun _ _ => rfl

end Event

/-! ### Maps and what stands in a scene -/

theorem Sensor.readsBack {s : Sensor} (fits : s.Fits) :
    ReadsBack (depth + 1) Sensor.reader s.toJson s := by
  obtain ⟨integers, handle⟩ := fits
  have integer {n : Int} (mem : n ∈ [s.x, s.y, s.width, s.height]) :
      ReadsBack depth int32 (.ofInt n) n := .int (integers n mem)
  exact .record (by decide)
    (.cons (.plainText s.id) rfl <| .cons (integer (by simp)) rfl <|
      .cons (integer (by simp)) rfl <| .cons (integer (by simp)) rfl <|
        .cons (integer (by simp)) rfl <| .cons (.handle handle) rfl <| .nil _) rfl

theorem TileMap.readsBack {m : TileMap} (fits : m.Fits) :
    ReadsBack (depth + 3) TileMap.reader m.toJson m := by
  obtain ⟨integers, cells, sensors⟩ := fits
  have integer {n : Int} (mem : n ∈ [m.width, m.height, m.grid]) :
      ReadsBack (depth + 2) int32 (.ofInt n) n := .int (integers n mem)
  exact .record (by decide)
    (.cons (integer (by simp)) rfl <| .cons (integer (by simp)) rfl <|
      .cons (integer (by simp)) rfl <|
        .cons (.list fun cell mem => .natBelow (cells cell mem)) rfl <|
          .cons (.list fun sensor mem => Sensor.readsBack (sensors sensor mem)) rfl <| .nil _) rfl

theorem SpriteSheet.readsBack {s : SpriteSheet} (fits : s.Fits) :
    ReadsBack (depth + 1) SpriteSheet.reader s.toJson s :=
  .record (by decide)
    (.cons (.plainText s.name) rfl <| .cons (.int fits.1) rfl <| .cons (.int fits.2) rfl <| .nil _)
    rfl

theorem PlayerSpawn.readsBack {s : PlayerSpawn} (fits : s.sheet.Fits) :
    ReadsBack (depth + 2) PlayerSpawn.reader s.toJson s :=
  .record (by decide)
    (.cons s.x.readsBack rfl <| .cons s.y.readsBack rfl <| .cons s.z.readsBack rfl <|
      .cons s.direction.readsBack rfl <| .cons (SpriteSheet.readsBack fits) rfl <| .nil _) rfl

theorem ActorDef.readsBack {a : ActorDef} (fits : a.Fits) :
    ReadsBack (depth + 2) ActorDef.reader a.toJson a := by
  obtain ⟨sheet, handles⟩ := fits
  have handle {h : Handle} (mem : h ∈ [a.init, a.interact, a.update]) :
      ReadsBack (depth + 1) Handle.reader h.toJson h := .handle (handles h mem)
  exact .record (by decide)
    (.cons (.plainText a.id) rfl <| .cons (.plainText a.name) rfl <| .cons a.x.readsBack rfl <|
      .cons a.y.readsBack rfl <| .cons a.z.readsBack rfl <| .cons a.direction.readsBack rfl <|
        .cons (SpriteSheet.readsBack sheet) rfl <| .cons (handle (by simp)) rfl <|
          .cons (handle (by simp)) rfl <| .cons (handle (by simp)) rfl <| .nil _) rfl

theorem PropDef.readsBack {p : PropDef} (fits : p.sheet.Fits) :
    ReadsBack (depth + 2) PropDef.reader p.toJson p :=
  .record (by decide)
    (.cons (.plainText p.id) rfl <| .cons (.plainText p.name) rfl <| .cons p.x.readsBack rfl <|
      .cons p.y.readsBack rfl <| .cons p.z.readsBack rfl <|
        .cons (SpriteSheet.readsBack fits) rfl <| .nil _) rfl

/-! ### Scenes, scripts, variables -/

theorem Scene.readsBack {s : Scene} (fits : s.Fits) :
    ReadsBack (depth + 4) Scene.reader s.toJson s := by
  obtain ⟨handle, player, map, actors, props⟩ := fits
  exact .record (by decide)
    (.cons (.plainText s.id) rfl <| .cons (.plainText s.name) rfl <|
      .cons (.option fun name _ => ⟨nofun, .plainText name⟩) rfl <| .cons (.handle handle) rfl <|
        .cons (.option fun spawn is => ⟨nofun, PlayerSpawn.readsBack (player spawn is)⟩) rfl <|
          .cons (.option fun m is => ⟨nofun, TileMap.readsBack (map m is)⟩) rfl <|
            .cons (.list fun actor mem => ActorDef.readsBack (actors actor mem)) rfl <|
              .cons (.list fun prop mem => PropDef.readsBack (props prop mem)) rfl <| .nil _) rfl

theorem Script.readsBack {s : Script} (fits : s.events.Fits) :
    ReadsBack (depth + 1) Script.reader s.toJson s :=
  .record (by decide)
    (.cons (.plainText s.id) rfl <| .cons (.plainText s.name) rfl <| .cons (.handle fits) rfl <|
      .nil _) rfl

theorem VariableDecl.readsBack (d : VariableDecl) :
    ReadsBack (depth + 1) VariableDecl.reader d.toJson d :=
  .record (by decide) (.cons (.plainText d.name) rfl <| .cons d.value.readsBack rfl <| .nil _) rfl

/-! ### Graphs -/

/-- **Graphs read back.** The form of a graph is read as that graph, sound or not, wherever seven
containers may nest. -/
theorem SceneGraph.reader_toJson {g : SceneGraph} (fits : g.Fits) {place : Place}
    (deep : 7 ≤ place.room) : SceneGraph.reader place g.toJson = .ok g := by
  obtain ⟨scenes, scripts, lists⟩ := fits
  have reads : ReadsBack 7 SceneGraph.reader g.toJson g := .record (by decide)
    (.cons (.option fun name _ => ⟨nofun, .plainText name⟩) rfl <|
      .cons (.list fun d _ => d.readsBack) rfl <|
        .cons (.list fun scene mem => Scene.readsBack (scenes scene mem)) rfl <|
          .cons (.list fun script mem => Script.readsBack (scripts script mem)) rfl <|
            .cons (.list fun list mem => .list fun event mem' =>
              Event.readsBack (lists list mem event mem')) rfl <| .nil _) rfl
  exact reads place deep

/-- A graph that is not sound, with values that are not written as they read, and events of kinds
that do nothing. -/
def SceneGraph.motley : SceneGraph where
  startingScene := none
  declarations := [⟨"steps", ⟨"05"⟩⟩, ⟨"seen", ⟨"true"⟩⟩, ⟨"seen", ⟨"-0"⟩⟩]
  scenes := [Scene.called "", { Scene.called "yard" with map := some ⟨2, 1, 0, [0, 255], []⟩ }]
  scripts := [⟨"", "bells", ⟨9⟩⟩]
  lists :=
    [[.unknown, .disabled "shake"],
      [.branch
          [⟨.equal, .variable "steps", .literal ⟨"05"⟩⟩, ⟨.different, .ofInt 0, .literal ⟨"-0"⟩⟩]
          ⟨1⟩ .empty,
        .playMusic "march" 70 false, .playSound "ding" 100 1 0 32767]]

theorem SceneGraph.reader_toJson_motley :
    motley.Fits ∧ 7 ≤ Place.outermost.room ∧
      SceneGraph.reader .outermost motley.toJson = .ok motley :=
  have fits : motley.Fits := by decide +kernel
  ⟨fits, by decide, reader_toJson fits (by decide)⟩

end Overworld
