import Overworld.Text.Blank
import Overworld.Number.Decimal

/-!
Scripted values.

A value is its text. Its integer and its truth are readings of that text, so two values are equal
exactly when their texts are, and `05` differs from `5` although both read as five.
-/

namespace Overworld

open Overworld.Number Overworld.Text

/-- A scripted value, kept as the text it was written with. -/
structure Value where
  text : String
deriving DecidableEq, Repr, Inhabited

namespace Value

/-- The value of an integer, in decimal. -/
def ofInt (n : Int) : Value := ⟨toString n⟩

/-- The value of a truth, `true` or `false`. -/
def ofBool (b : Bool) : Value := ⟨if b then "true" else "false"⟩

/-- The value of a variable that was given none. -/
def blank : Value := ⟨""⟩

/-- The integer reading: the whole part of the decimal number that the trimmed text writes, clamped
to 32 bits; one for the text `true`, and zero for every other text. -/
def int (v : Value) : Int :=
  let body := trimChars v.text.toList
  match Decimal.read? body with
  | some d => d.whole?.getD 0
  | none => if body = ['t', 'r', 'u', 'e'] then 1 else 0

/-- The truth reading: the trimmed texts `true` and `false` are what they say, the blank text is
false, and every other text is true when its integer reading is not zero. -/
def flag (v : Value) : Bool :=
  match trimChars v.text.toList with
  | ['t', 'r', 'u', 'e'] => true
  | ['f', 'a', 'l', 's', 'e'] => false
  | [] => false
  | _ => v.int != 0

end Value

end Overworld
