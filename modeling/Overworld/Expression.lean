import Overworld.Variables

/-!
Expressions: a literal, or the value that a variable has when the expression is read.
-/

namespace Overworld

/-- A literal or a reference to a variable. -/
inductive Expression where
  | literal (value : Value)
  | variable (name : String)
deriving DecidableEq, Repr

namespace Expression

/-- The literal of an integer. -/
def ofInt (n : Int) : Expression := .literal (.ofInt n)

/-- The expression of a field that was left out. -/
def zero : Expression := .ofInt 0

instance : Inhabited Expression := ⟨zero⟩

/-- The value that an expression has at the moment; a variable that was never declared has none. -/
def value? (vars : Variables) : Expression → Option Value
  | .literal value => some value
  | .variable name => vars.get? name

/-- The integer reading, zero without a value. -/
def int (vars : Variables) (e : Expression) : Int := ((e.value? vars).map Value.int).getD 0

/-- The truth reading, false without a value. -/
def flag (vars : Variables) (e : Expression) : Bool := ((e.value? vars).map Value.flag).getD false

/-- The text, blank without a value. -/
def text (vars : Variables) (e : Expression) : String := ((e.value? vars).map Value.text).getD ""

end Expression

/-- How a condition compares its sides. -/
inductive Comparison where
  | equal
  | different
deriving DecidableEq, Repr

/-- A comparison of the texts of two expressions. -/
structure Condition where
  comparison : Comparison
  left : Expression
  right : Expression
deriving DecidableEq, Repr

/-- Whether two texts compare as asked. -/
def Comparison.holds (comparison : Comparison) (left right : String) : Bool :=
  match comparison with
  | .equal => left == right
  | .different => left != right

/-- Whether a condition holds at the moment. -/
def Condition.holds (vars : Variables) (c : Condition) : Bool :=
  c.comparison.holds (c.left.text vars) (c.right.text vars)

end Overworld
