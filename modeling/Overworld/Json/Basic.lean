/-!
JSON values, and where a text stops being one.

A text is read up to its first fault, and the fault stands in the value at the place where it was
met. So one value serves every reader: a reader that looks no further than the fault succeeds, one
that meets a wrong shape before it reports the shape, and one that arrives at the fault reports it.
Values that the program writes hold no fault.
-/

namespace Overworld

/-- Why a text is not JSON: it ended inside a value, or it breaks the grammar. -/
inductive Break where
  | cutShort
  | malformed
deriving DecidableEq, Repr

/-- A place where a text stops being JSON, as three kinds of reader report it. -/
structure Fault where
  /-- For a reader of any value. -/
  reading : Break
  /-- For a reader that passes over a value which it has no use for. -/
  skipping : Break
  /-- For a reader that accepts nothing but a name. -/
  naming : Break
deriving DecidableEq, Repr

/-- The text ended, for every reader. -/
def Fault.ended : Fault := ⟨.cutShort, .cutShort, .cutShort⟩

/-- The grammar is broken, for every reader. -/
def Fault.broken : Fault := ⟨.malformed, .malformed, .malformed⟩

/-- A number. Integers that fit 64 bits are exact and all others are doubles. A single is only ever
written by the program, for a quantity that it keeps at that width. -/
inductive Json.Number where
  | int (n : Int)
  | double (x : Float)
  | single (x : Float32)
deriving DecidableEq, Repr

/-- A JSON value. Objects keep the order and the repetition of their names. -/
inductive Json where
  | null
  | bool (b : Bool)
  | number (n : Json.Number)
  | string (s : String)
  /-- A number beyond the doubles, or a string with half a surrogate pair: it can be passed over,
  but no value can be read from it. -/
  | unreadable
  /-- The items, and the fault that stands where the next comma or the end should be. -/
  | array (items : List Json) (stop : Option Fault)
  /-- The named values, and the fault that stands where the next name or the end should be. A name
  with half a surrogate pair is none. -/
  | object (fields : List (Option String × Json)) (stop : Option Fault)
  /-- The fault that stands where a value should be. -/
  | fault (f : Fault)
deriving Inhabited, Repr

namespace Json

/-! ### Writing -/

/-- An integer. -/
def ofInt (n : Int) : Json := .number (.int n)

/-- A count or a handle. -/
def ofNat (n : Nat) : Json := .number (.int n)

/-- A whole array. -/
def list (items : List Json) : Json := .array items none

/-- A whole object. -/
def record (fields : List (String × Json)) : Json :=
  .object (fields.map fun field => (some field.1, field.2)) none

/-! ### Passing over a value -/

/-- What a stopped container reports. -/
def passStop (report : Fault → Break) : Option Fault → Except Break Unit
  | none => .ok ()
  | some f => .error (report f)

mutual

/-- Pass over a value without reading it. Nesting has no limit here, and values that cannot be read
are no obstacle. -/
def skip : Json → Except Break Unit
  | .array items stop => do
    skipItems items
    passStop Fault.skipping stop
  | .object fields stop => do
    skipFields fields
    passStop Fault.skipping stop
  | .fault f => .error f.skipping
  | _ => .ok ()

def skipItems : List Json → Except Break Unit
  | [] => .ok ()
  | item :: items => do
    skip item
    skipItems items

def skipFields : List (Option String × Json) → Except Break Unit
  | [] => .ok ()
  | (_, value) :: fields => do
    skip value
    skipFields fields

end

mutual

/-- Read through a value of any shape: every string and number in it must have a value, and at most
`room` containers may nest. -/
def check : Nat → Json → Except Break Unit
  | 0, .array _ _ => .error .malformed
  | 0, .object _ _ => .error .malformed
  | room + 1, .array items stop => do
    checkItems room items
    passStop Fault.reading stop
  | room + 1, .object fields stop => do
    checkFields room fields
    passStop Fault.reading stop
  | _, .unreadable => .error .malformed
  | _, .fault f => .error f.reading
  | _, _ => .ok ()

def checkItems : Nat → List Json → Except Break Unit
  | _, [] => .ok ()
  | room, item :: items => do
    check room item
    checkItems room items

def checkFields : Nat → List (Option String × Json) → Except Break Unit
  | _, [] => .ok ()
  | _, (none, _) :: _ => .error .malformed
  | room, (some _, value) :: fields => do
    check room value
    checkFields room fields

end

end Json

end Overworld
