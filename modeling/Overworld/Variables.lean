import Overworld.Value

/-!
The variables of a running graph.

The names are fixed when the variables are declared, in the order of their declarations; afterwards
only their values change.
-/

namespace Overworld

/-- What can go wrong with a variable. -/
inductive VariableError where
  | undeclared (name : String)
  | duplicate (name : String)
deriving DecidableEq, Repr

/-- The wording of an error. -/
def VariableError.message : VariableError → String
  | .undeclared name => "variable " ++ name ++ " was never declared"
  | .duplicate name => "variable " ++ name ++ " is declared more than once"

/-- The declared variables and their values, in the order of declaration. -/
structure Variables where
  entries : List (String × Value)
deriving DecidableEq, Repr, Inhabited

namespace Variables

/-- No variables. -/
def empty : Variables := ⟨[]⟩

/-- The names, in the order of declaration. -/
def names (vars : Variables) : List String := vars.entries.map (·.1)

/-- How many variables there are. -/
def size (vars : Variables) : Nat := vars.entries.length

/-- Whether a name was declared. -/
def has (vars : Variables) (name : String) : Bool := vars.names.contains name

/-- The value of a variable. -/
def get? (vars : Variables) (name : String) : Option Value := vars.entries.lookup name

/-- One more declaration, of a new name. -/
def declare (vars : Variables) (name : String) (value : Value) : Except VariableError Variables :=
  if vars.has name then .error (.duplicate name) else .ok ⟨vars.entries ++ [(name, value)]⟩

/-- The variables of a list of declarations. The first name to come again is refused. -/
def ofDeclarations (declarations : List (String × Value)) : Except VariableError Variables :=
  declarations.foldlM (fun vars d => vars.declare d.1 d.2) Variables.empty

/-- Give a declared variable another value. -/
def set (vars : Variables) (name : String) (value : Value) : Except VariableError Variables :=
  if vars.has name then
    .ok ⟨vars.entries.map fun entry => if entry.1 = name then (name, value) else entry⟩
  else .error (.undeclared name)

/-! ### What setting a variable does -/

/-- Setting fails exactly on names that were never declared. -/
theorem set_eq_error_iff {vars : Variables} {name : String} {value : Value} {e : VariableError} :
    vars.set name value = .error e ↔ vars.has name = false ∧ e = .undeclared name := by
  unfold set
  by_cases h : vars.has name
  · simp [h]
  · simp only [h, Bool.false_eq_true, if_false, true_and, Except.error.injEq]
    exact eq_comm

end Variables

end Overworld
