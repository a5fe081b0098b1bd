import Overworld.Expression
import Overworld.Direction
import Overworld.Json.Reading
import Overworld.Number.Shortest

/-!
The JSON form of values, expressions and conditions.

A value may be written as a truth, a number or a string, and is always written back as a string. An
expression names its kind, `value` or `variable`.
-/

namespace Overworld

open Json

/-! ### Reading -/

/-- The value of a number. Integers of 64 bits with sign keep their digits; every other number is
written as the shortest decimal of its double. -/
def Value.ofNumber : Json.Number → Value
  | .int n => if 2 * n < Number.word64 then .ofInt n else ⟨Number.shortestText (Float.ofInt n)⟩
  | .double x => ⟨Number.shortestText x⟩
  | .single x => ⟨Number.shortestText x.toFloat⟩

/-- Reads a value. Other shapes are read through before they are refused. -/
def Value.reader : Reader Value
  | _, .bool b => .ok (.ofBool b)
  | _, .number n => .ok (.ofNumber n)
  | _, .string s => .ok ⟨s⟩
  | place, j => do
    passed (check place.room j)
    throw (.misshapen [])

/-- The fields of a literal, as far as they were read. -/
structure LiteralFields where
  value : Option Value := none

/-- The fields of a reference to a variable, as far as they were read. -/
structure ReferenceFields where
  name : Option String := none

/-- Reads an expression. -/
def Expression.reader : Reader Expression :=
  kinded
    [("value",
      recordOf
        [field "value" Value.reader (·.value)
          fun (p : LiteralFields) v => { p with value := some v }]
        {} fun p => p.value.map .literal),
     ("variable",
      recordOf
        [field "name" plainText (·.name)
          fun (p : ReferenceFields) v => { p with name := some v }]
        {} fun p => p.name.map .variable)]
    none

/-- Reads how a condition compares. -/
def Comparison.reader : Reader Comparison :=
  nameIn [("==", .equal), ("eq", .equal), ("!=", .different), ("neq", .different)]

/-- The fields of a condition, as far as they were read. -/
structure ConditionFields where
  comparison : Option Comparison := none
  left : Option Expression := none
  right : Option Expression := none

/-- Reads a condition. -/
def Condition.reader : Reader Condition :=
  recordOf
    [field "op" Comparison.reader (·.comparison) fun p v => { p with comparison := some v },
     field "left" Expression.reader (·.left) fun p v => { p with left := some v },
     field "right" Expression.reader (·.right) fun p v => { p with right := some v }]
    ({} : ConditionFields)
    fun p => do
      let comparison ← p.comparison
      let left ← p.left
      let right ← p.right
      return ⟨comparison, left, right⟩

/-- Reads a direction. -/
def Direction.reader : Reader Direction := nameIn (Direction.all.map fun d => (d.name, d))

/-- Reads an axis. -/
def Axis.reader : Reader Axis := nameIn [("horizontal", .horizontal), ("vertical", .vertical)]

/-- Reads a button. -/
def Button.reader : Reader Button := nameIn Button.byName

/-! ### Writing -/

/-- A value is written as a string. -/
def Value.toJson (v : Value) : Json := .string v.text

/-- The JSON form of an expression. -/
def Expression.toJson : Expression → Json
  | .literal value => .record [("type", .string "value"), ("value", value.toJson)]
  | .variable name => .record [("type", .string "variable"), ("name", .string name)]

/-- The sign of a comparison. -/
def Comparison.toJson : Comparison → Json
  | .equal => .string "=="
  | .different => .string "!="

/-- The JSON form of a condition. -/
def Condition.toJson (c : Condition) : Json :=
  .record [("op", c.comparison.toJson), ("left", c.left.toJson), ("right", c.right.toJson)]

/-- A direction is written by its name. -/
def Direction.toJson (d : Direction) : Json := .string d.name

/-- An axis is written by its name. -/
def Axis.toJson (a : Axis) : Json := .string a.name

/-- A button is written by its name. -/
def Button.toJson (b : Button) : Json := .string b.name

end Overworld
