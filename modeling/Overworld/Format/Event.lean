import Overworld.Event
import Overworld.Format.Expression

/-!
The JSON form of events.

An event names its kind in the field `type`. Kinds that are not known are read as unknown events,
whatever else they hold.
-/

namespace Overworld

open Json

/-! ### Reading -/

/-- Reads a handle. -/
def Handle.reader : Reader Handle := fun place j =>
  (natBelow Number.word32 place j).map Handle.mk

/-- The fields of a start position, as far as they were read. -/
structure StartFields where
  x : Option Expression := none
  y : Option Expression := none
  direction : Option Direction := none

/-- Reads a start position. -/
def StartPosition.reader : Reader StartPosition :=
  recordOf
    [field "x" Expression.reader (·.x) fun p v => { p with x := some v },
     field "y" Expression.reader (·.y) fun p v => { p with y := some v },
     field "direction" Direction.reader (·.direction) fun p v => { p with direction := some v }]
    ({} : StartFields)
    fun p => some
      ⟨p.x.getD (.ofInt unsetCoordinate), p.y.getD (.ofInt unsetCoordinate), p.direction.getD .down⟩

/-- Everything that the fields of an event can be, as far as they were read. -/
structure EventFields where
  duration : Option Expression := none
  target : Option String := none
  start : Option StartPosition := none
  buttons : Option (List Button) := none
  events : Option Handle := none
  text : Option String := none
  name : Option String := none
  value : Option Value := none
  conditions : Option (List Condition) := none
  yes : Option Handle := none
  no : Option Handle := none
  actor : Option String := none
  volume : Option Int := none
  loops : Option Bool := none
  speed : Option Float32 := none
  panning : Option Int := none
  priority : Option Int := none
  x : Option Expression := none
  y : Option Expression := none
  diagonal : Option Bool := none
  first : Option Axis := none
  kind : Option String := none

namespace EventFields

def durationField : KnownField EventFields :=
  field "duration" Expression.reader (·.duration) fun p v => { p with duration := some v }

def buttonsField : KnownField EventFields :=
  field "buttons" (listOf Button.reader) (·.buttons) fun p v => { p with buttons := some v }

def nameField : KnownField EventFields :=
  field "name" plainText (·.name) fun p v => { p with name := some v }

def actorField : KnownField EventFields :=
  field "actor" plainText (·.actor) fun p v => { p with actor := some v }

def volumeField : KnownField EventFields :=
  field "volume" int32 (·.volume) fun p v => { p with volume := some v }

end EventFields

/-- The contents of an event of one kind, given its fields. -/
def Event.contents (known : List (KnownField EventFields)) (complete : EventFields → Option Event) :
    Reader Event :=
  recordOf known {} complete

open EventFields in
/-- Reads an event. -/
def Event.reader : Reader Event :=
  kinded
    [("wait", contents [durationField] fun p => some (.wait (p.duration.getD (.ofInt 500)))),
     ("fade-in", contents [durationField] fun p => some (.fadeIn (p.duration.getD (.ofInt 200)))),
     ("fade-out", contents [durationField] fun p => some (.fadeOut (p.duration.getD (.ofInt 200)))),
     ("go-to-scene",
      contents
        [field "target" plainText (·.target) fun p v => { p with target := some v },
         field "start" StartPosition.reader (·.start) fun p v => { p with start := some v }]
        fun p => p.target.map fun target => .goToScene target (p.start.getD .unset)),
     ("wait-for-button",
      contents [buttonsField] fun p => some (.waitForButton (p.buttons.getD []))),
     ("on-button-press",
      contents
        [buttonsField,
         field "events" Handle.reader (·.events) fun p v => { p with events := some v }]
        fun p => some (.onButtonPress (p.buttons.getD []) (p.events.getD .empty))),
     ("show-dialog",
      contents [field "text" plainText (·.text) fun p v => { p with text := some v }]
        fun p => p.text.map .showDialog),
     ("set-variable",
      contents
        [nameField, field "value" Value.reader (·.value) fun p v => { p with value := some v }]
        fun p => do
          let name ← p.name
          let value ← p.value
          return .setVariable name value),
     ("if",
      contents
        [field "conditions" (listOf Condition.reader) (·.conditions)
           fun p v => { p with conditions := some v },
         field "then" Handle.reader (·.yes) fun p v => { p with yes := some v },
         field "else" Handle.reader (·.no) fun p v => { p with no := some v }]
        fun p => some
          (.branch (p.conditions.getD []) (p.yes.getD .empty) (p.no.getD .empty))),
     ("disable-actor", contents [actorField] fun p => p.actor.map .disableActor),
     ("enable-actor", contents [actorField] fun p => p.actor.map .enableActor),
     ("play-music",
      contents
        [nameField,
         volumeField,
         field "loop" boolean (·.loops) fun p v => { p with loops := some v }]
        fun p => p.name.map fun name => .playMusic name (p.volume.getD 100) (p.loops.getD true)),
     ("stop-music", nothing .stopMusic),
     ("play-sound",
      contents
        [nameField,
         volumeField,
         field "speed" single (·.speed) fun p v => { p with speed := some v },
         field "panning" int32 (·.panning) fun p v => { p with panning := some v },
         field "priority" int32 (·.priority) fun p v => { p with priority := some v }]
        fun p => p.name.map fun name =>
          .playSound name (p.volume.getD 100) (p.speed.getD 1) (p.panning.getD 0)
            (p.priority.getD 32767)),
     ("execute-script",
      contents
        [fieldCalled ["name", "script"] plainText (·.name) fun p v => { p with name := some v }]
        fun p => p.name.map .runScript),
     ("move-camera-to",
      contents
        [field "x" Expression.reader (·.x) fun p v => { p with x := some v },
         field "y" Expression.reader (·.y) fun p v => { p with y := some v },
         durationField,
         field "allow_diagonal" boolean (·.diagonal) fun p v => { p with diagonal := some v },
         field "direction_priority" Axis.reader (·.first) fun p v => { p with first := some v }]
        fun p => some
          (.moveCamera (p.x.getD .zero) (p.y.getD .zero) (p.duration.getD (.ofInt 200))
            (p.diagonal.getD true) (p.first.getD .horizontal))),
     ("disabled",
      contents [field "kind" plainText (·.kind) fun p v => { p with kind := some v }]
        fun p => p.kind.map .disabled)]
    (some (nothing .unknown))

/-! ### Writing -/

/-- A handle is written as its number. -/
def Handle.toJson (h : Handle) : Json := .ofNat h.index

/-- The JSON form of a start position. -/
def StartPosition.toJson (s : StartPosition) : Json :=
  .record [("x", s.x.toJson), ("y", s.y.toJson), ("direction", s.direction.toJson)]

/-- The fields of an event besides its kind. -/
def Event.fields : Event → List (String × Json)
  | .wait duration | .fadeIn duration | .fadeOut duration => [("duration", duration.toJson)]
  | .goToScene target start => [("target", .string target), ("start", start.toJson)]
  | .waitForButton buttons => [("buttons", .list (buttons.map Button.toJson))]
  | .onButtonPress buttons body =>
    [("buttons", .list (buttons.map Button.toJson)), ("events", body.toJson)]
  | .showDialog text => [("text", .string text)]
  | .setVariable name value => [("name", .string name), ("value", value.toJson)]
  | .branch conditions yes no =>
    [("conditions", .list (conditions.map Condition.toJson)), ("then", yes.toJson),
     ("else", no.toJson)]
  | .disableActor actor | .enableActor actor => [("actor", .string actor)]
  | .playMusic name volume loops =>
    [("name", .string name), ("volume", .ofInt volume), ("loop", .bool loops)]
  | .playSound name volume speed panning priority =>
    [("name", .string name), ("volume", .ofInt volume), ("speed", .number (.single speed)),
     ("panning", .ofInt panning), ("priority", .ofInt priority)]
  | .runScript name => [("name", .string name)]
  | .moveCamera x y duration diagonal first =>
    [("x", x.toJson), ("y", y.toJson), ("duration", duration.toJson),
     ("allow_diagonal", .bool diagonal), ("direction_priority", first.toJson)]
  | .disabled kind => [("kind", .string kind)]
  | .stopMusic | .unknown => []

/-- The JSON form of an event. -/
def Event.toJson (e : Event) : Json := .record (("type", .string e.kind) :: e.fields)

end Overworld
