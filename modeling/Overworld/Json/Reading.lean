import Overworld.Json.Document

/-!
Readers: from JSON to the values of the program.

A reader answers with a value or with the first thing that is wrong in the order of the text: a
fault of the text itself, or a wrong shape with the path to it. There are two situations. A value may be
read straight from the text, which leaves what the reader does not want unread; or it stands inside
an object that was read through as a whole before its parts are looked at, because the object names
its own kind. `Place` tells the two apart.
-/

namespace Overworld.Json

/-- A step of a path into a value. -/
inductive Step where
  | field (name : String)
  | item (index : Nat)
deriving DecidableEq, Repr

/-- The path as text, `root` for the value itself. -/
def pathText : List Step → String
  | [] => "root"
  | .field name :: steps => name ++ tail steps
  | .item index :: steps => "[" ++ toString index ++ "]" ++ tail steps
where
  tail : List Step → String
    | [] => ""
    | .field name :: steps => "." ++ name ++ tail steps
    | .item index :: steps => "[" ++ toString index ++ "]" ++ tail steps

/-- Why a value could not be read. -/
inductive Misread where
  /-- The text is no JSON at a place that the reader arrived at. -/
  | stopped (b : Break)
  /-- The value at the end of the path has the wrong shape. -/
  | misshapen (path : List Step)
deriving DecidableEq, Repr

/-- Where a value is read. -/
structure Place where
  /-- How many containers may still nest. -/
  room : Nat
  /-- Whether the value is part of an object that was read through before. -/
  buffered : Bool
deriving DecidableEq, Repr

/-- The place of a whole text. -/
def Place.outermost : Place := ⟨127, false⟩

/-- The place of what a container holds. -/
def Place.inner (place : Place) : Place := { place with room := place.room - 1 }

/-- A reader of values of one type. -/
abbrev Reader (α : Type) := Place → Json → Except Misread α

/-- What a reader reports of a value that it cannot use: the fault that it met on the way, or else
the shape. -/
def refuse : Json → Misread
  | .fault f => .stopped f.reading
  | .unreadable => .stopped .malformed
  | _ => .misshapen []

/-- Put one step in front of the path of a wrong shape. -/
def located {α : Type} (step : Step) : Except Misread α → Except Misread α
  | .error (.misshapen path) => .error (.misshapen (step :: path))
  | result => result

/-- Report a wrong shape anywhere inside at the value itself. -/
def atWhole {α : Type} : Except Misread α → Except Misread α
  | .error (.misshapen _) => .error (.misshapen [])
  | result => result

/-- The result of reading on past a place where nothing needs to be kept. -/
def passed : Except Break Unit → Except Misread Unit
  | .ok () => .ok ()
  | .error b => .error (.stopped b)

/-! ### Single values -/

/-- An integer within bounds. -/
def int (low high : Int) : Reader Int
  | _, .number (.int n) => if low ≤ n ∧ n ≤ high then .ok n else .error (.misshapen [])
  | _, j => .error (refuse j)

/-- A signed integer of 32 bits. -/
def int32 : Reader Int := int (-2147483648) 2147483647

/-- An unsigned integer below a bound. -/
def natBelow (bound : Nat) : Reader Nat := fun place j =>
  (int 0 (bound - 1) place j).map Int.toNat

/-- A single, rounded from whatever number is given. -/
def single : Reader Float32
  | _, .number (.int n) => .ok (Float32.ofInt n)
  | _, .number (.double x) => .ok x.toFloat32
  | _, .number (.single x) => .ok x
  | _, j => .error (refuse j)

/-- A truth value. -/
def boolean : Reader Bool
  | _, .bool b => .ok b
  | _, j => .error (refuse j)

/-- A string. -/
def plainText : Reader String
  | _, .string s => .ok s
  | _, j => .error (refuse j)

/-- A value that may be null. -/
def nullable {α : Type} (reader : Reader α) : Reader (Option α)
  | _, .null => .ok none
  | place, j => (reader place j).map some

/-! ### Lists -/

/-- The items of a list, the first of which has the given index. -/
def itemsFrom {α : Type} (reader : Reader α) (place : Place) :
    Nat → List Json → Except Misread (List α)
  | _, [] => .ok []
  | index, item :: items => do
    let x ← located (.item index) (reader place item)
    let xs ← itemsFrom reader place (index + 1) items
    return x :: xs

/-- A list. -/
def listOf {α : Type} (reader : Reader α) : Reader (List α)
  | place, .array items stop => do
    if place.room = 0 then throw (.stopped .malformed)
    let xs ← itemsFrom reader place.inner 0 items
    passed (passStop Fault.reading stop)
    return xs
  | _, j => .error (refuse j)

/-! ### Names -/

/-- Whether a value counts as the empty content of a bare name. -/
def isUnit : Json → Bool
  | .null => true
  | .object [] none => true
  | _ => false

/-- The name in a table, or a wrong shape. -/
def lookUp {α : Type} (table : List (String × α)) (name : String) : Except Misread α :=
  match table.lookup name with
  | some x => .ok x
  | none => .error (.misshapen [])

/-- A name out of a table, as a string or as an object with that one field, which is null. -/
def nameIn {α : Type} (table : List (String × α)) : Reader α
  | _, .string s => lookUp table s
  | ⟨room, false⟩, .object fields stop => do
    if room = 0 then throw (.stopped .malformed)
    match fields with
    | [] => throw (.stopped ((stop.map Fault.reading).getD .malformed))
    | (none, _) :: _ => throw (.stopped .malformed)
    | (some name, content) :: others =>
      let x ← lookUp table name
      match content with
      | .null => pure ()
      | j => located (.field name) (throw (refuse j))
      if others.isEmpty then
        passed (passStop Fault.naming stop)
        return x
      else throw (.stopped .malformed)
  | ⟨_, true⟩, .object [(some name, content)] none => do
    let x ← lookUp table name
    if isUnit content then return x else throw (.misshapen [])
  | ⟨_, false⟩, .fault f => .error (.stopped f.naming)
  | ⟨_, false⟩, _ => .error (.stopped .malformed)
  | ⟨_, true⟩, _ => .error (.misshapen [])

/-! ### Records -/

/-- One field of a record that is read into a partial record `ρ`. -/
structure KnownField (ρ : Type) where
  names : List String
  isSet : ρ → Bool
  read : Place → Json → ρ → Except Misread ρ

/-- The field that goes by one of several names. -/
def fieldCalled {ρ α : Type} (names : List String) (reader : Reader α) (get : ρ → Option α)
    (set : ρ → α → ρ) : KnownField ρ where
  names := names
  isSet := fun partially => (get partially).isSome
  read := fun place j partially => (reader place j).map (set partially)

/-- The field of one name. -/
def field {ρ α : Type} (name : String) (reader : Reader α) (get : ρ → Option α)
    (set : ρ → α → ρ) : KnownField ρ :=
  fieldCalled [name] reader get set

/-- Read the fields of an object in the order of the text. Unknown names are passed over; a known
one must not come twice. -/
def readFields {ρ : Type} (known : List (KnownField ρ)) (place : Place) :
    List (Option String × Json) → Option Fault → ρ → Except Misread ρ
  | [], stop, partially => do
    passed (passStop Fault.reading stop)
    return partially
  | (none, _) :: _, _, _ => .error (.stopped .malformed)
  | (some name, value) :: others, stop, partially =>
    match known.find? fun f => f.names.contains name with
    | none => do
      passed (skip value)
      readFields known place others stop partially
    | some f =>
      if f.isSet partially then .error (.misshapen [])
      else do
        let partially ← located (.field name) (f.read place value partially)
        readFields known place others stop partially

/-- Read the fields from an array, by position. Fields may be missing at the end. -/
def readPositions {ρ : Type} (place : Place) :
    Nat → List (KnownField ρ) → List Json → Option Fault → ρ → Except Misread ρ
  | _, [], [], stop, partially => do
    passed (passStop Fault.reading stop)
    return partially
  | _, [], _ :: _, _, _ => .error (if place.buffered then .misshapen [] else .stopped .malformed)
  | _, _ :: _, [], stop, partially => do
    passed (passStop Fault.reading stop)
    return partially
  | index, f :: others, item :: items, stop, partially => do
    let partially ← located (.item index) (f.read place item partially)
    readPositions place (index + 1) others items stop partially

/-- A record, as an object or as the array of its fields. `complete` fills in the defaults and fails
where a required field is missing. -/
def recordOf {ρ α : Type} (known : List (KnownField ρ)) (blank : ρ) (complete : ρ → Option α) :
    Reader α :=
  let finish (partially : ρ) : Except Misread α :=
    match complete partially with
    | some x => .ok x
    | none => .error (.misshapen [])
  fun place j =>
    match j with
    | .object fields stop => do
      if place.room = 0 then throw (.stopped .malformed)
      readFields known place.inner fields stop blank >>= finish
    | .array items stop => do
      if place.room = 0 then throw (.stopped .malformed)
      readPositions place.inner 0 known items stop blank >>= finish
    | j => throw (refuse j)

/-! ### Objects that name their kind -/

/-- Take the kind out of an object and read the rest of it through, in the order of the text. The
fields read so far stand in reverse. -/
def takeKind {κ : Type} (kindOf : Json → Except Misread κ) (room : Nat) :
    List (Option String × Json) → Option Fault → Option κ → List (Option String × Json) →
      Except Misread (κ × List (Option String × Json))
  | [], stop, kind?, before => do
    passed (passStop Fault.reading stop)
    match kind? with
    | some kind => return (kind, before.reverse)
    | none => throw (.misshapen [])
  | (none, _) :: _, _, _, _ => .error (.stopped .malformed)
  | (some name, value) :: others, stop, kind?, before =>
    if name = "type" then
      match kind? with
      | some _ => .error (.misshapen [])
      | none => do
        let kind ← located (.field name) (kindOf value)
        takeKind kindOf room others stop (some kind) before
    else do
      passed (check room value)
      takeKind kindOf room others stop kind? ((some name, value) :: before)

/-- A value whose kind stands in its field `type`, or first in its array form. The value is read
through as a whole before its fields are looked at, so a wrong shape among them is reported at the
value itself. A kind out of none of the names is read by `other`. -/
def kinded {α : Type} (kinds : List (String × Reader α)) (other : Option (Reader α)) : Reader α :=
  fun place j =>
    let kindOf : Json → Except Misread (Reader α)
      | .string s =>
        match kinds.lookup s <|> other with
        | some reader => .ok reader
        | none => .error (.misshapen [])
      | .number (.int n) =>
        match place.buffered, n with
        | true, .ofNat index =>
          match kinds[index]? with
          | some kind => .ok kind.2
          | none => .error (.misshapen [])
        | _, _ => .error (.misshapen [])
      | j => .error (refuse j)
    let contents : Place := { place with buffered := true }
    match j with
    | .object fields stop => do
      if place.room = 0 then throw (.stopped .malformed)
      let (reader, rest) ← takeKind kindOf (place.room - 1) fields stop none []
      atWhole (reader contents (.object rest none))
    | .array [] stop => do
      if place.room = 0 then throw (.stopped .malformed)
      passed (passStop Fault.reading stop)
      throw (.misshapen [])
    | .array (first :: items) stop => do
      if place.room = 0 then throw (.stopped .malformed)
      let reader ← located (.item 0) (kindOf first)
      passed (checkItems (place.room - 1) items)
      passed (passStop Fault.reading stop)
      atWhole (reader contents (.array items none))
    | j => throw (refuse j)

/-- The contents of a kind that has none. Fields are of no account, but items are too many. -/
def nothing {α : Type} (x : α) : Reader α
  | _, .object _ _ => .ok x
  | _, .array [] _ => .ok x
  | _, _ => .error (.misshapen [])

/-! ### Texts -/

/-- Read the first value of a text and leave the rest alone. -/
def readFirst {α : Type} (reader : Reader α) (text : String) : Except Misread α :=
  reader .outermost (ofText text).1

/-- Read a text that holds one value and nothing after it. -/
def readWhole {α : Type} (reader : Reader α) (text : String) : Except Misread α := do
  let (value, more) := ofText text
  let x ← reader .outermost value
  if more then throw (.stopped .malformed)
  return x

end Overworld.Json
