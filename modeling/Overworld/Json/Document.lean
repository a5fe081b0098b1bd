import Overworld.Json.Token

/-!
From the tokens of a text to the value it holds.

`assemble` goes once over the tokens and keeps the containers that are open, innermost first. At the
first token out of place it closes them all around the fault, so that whatever was complete before
the fault can still be read.
-/

namespace Overworld.Json

/-- A container that is open, its contents in reverse. An object remembers the name that waits for
its value. -/
inductive Open where
  | array (items : List Json)
  | object (fields : List (Option String × Json)) (name : Option String)

/-- What the next token has to be. -/
inductive Expected where
  | value
  /-- A value or the end of the array. -/
  | firstItem
  /-- A name or the end of the object. -/
  | firstName
  | nextName
  | colon
  /-- A comma or the end of the container. -/
  | more
deriving DecidableEq, Repr

/-- The container with one more value in it. -/
def Open.push (value : Json) : Open → Open
  | .array items => .array (value :: items)
  | .object fields name => .object ((name, value) :: fields) none

/-- The container as far as it got. -/
def Open.close (stop : Option Fault) : Open → Json
  | .array items => .array items.reverse stop
  | .object fields _ => .object fields.reverse stop

/-- Close every container around a last value. -/
def closeAll (value : Json) : List Open → Json
  | [] => value
  | container :: outer => closeAll ((container.push value).close none) outer

/-- Close every container, the innermost one at a fault. -/
def stopAt (f : Fault) : List Open → Json
  | [] => .fault f
  | container :: outer => closeAll (container.close (some f)) outer

/-- The fault of a text that goes on where it must not. -/
def misplaced : Fault := .broken

/-- A name must follow a comma, so a reader that wants the object to end is at odds with the comma
already. -/
def afterComma (f : Fault) : Fault := { f with naming := .malformed }

/-- A text that ends before the value does. -/
def endEarly (containers : List Open) : Expected → Json
  | .value | .colon => closeAll (.fault .ended) containers
  | .nextName => stopAt (afterComma .ended) containers
  | .firstItem | .firstName | .more => stopAt .ended containers

/-- The value that starts a list of tokens, and the tokens after it. -/
def assemble : List Open → Expected → List Token → Json × List Token
  | containers, expected, [] => (endEarly containers expected, [])
  | containers, expected, token :: rest =>
    -- A finished value goes into the innermost container, or is the answer.
    let finish (value : Json) (containers : List Open) : Json × List Token :=
      match containers with
      | [] => (value, rest)
      | container :: outer => assemble (container.push value :: outer) .more rest
    let named (first : Bool) (containers : List Open) : Json × List Token :=
      match token, containers with
      | .string name, .object fields _ :: outer =>
        assemble (.object fields name :: outer) .colon rest
      | .brokenString f, _ => (stopAt (if first then f else afterComma f) containers, [])
      | _, _ => (stopAt misplaced containers, [])
    match expected, token, containers with
    | .firstItem, .endArray, container :: outer => finish (container.close none) outer
    | .firstName, .endObject, container :: outer => finish (container.close none) outer
    | .more, .endArray, .array items :: outer => finish ((Open.array items).close none) outer
    | .more, .endObject, .object fields name :: outer =>
      finish ((Open.object fields name).close none) outer
    | .more, .comma, .array items :: outer => assemble (.array items :: outer) .value rest
    | .more, .comma, .object fields name :: outer =>
      assemble (.object fields name :: outer) .nextName rest
    | .more, _, _ => (stopAt misplaced containers, [])
    | .colon, .colon, _ => assemble containers .value rest
    | .colon, _, _ => (closeAll (.fault misplaced) containers, [])
    | .firstName, _, _ => named true containers
    | .nextName, _, _ => named false containers
    | .value, .null, _ | .firstItem, .null, _ => finish .null containers
    | .value, .bool b, _ | .firstItem, .bool b, _ => finish (.bool b) containers
    | .value, .number (some n), _ | .firstItem, .number (some n), _ => finish (.number n) containers
    | .value, .string (some s), _ | .firstItem, .string (some s), _ => finish (.string s) containers
    | .value, .number none, _ | .firstItem, .number none, _ => finish .unreadable containers
    | .value, .string none, _ | .firstItem, .string none, _ => finish .unreadable containers
    | .value, .beginArray, _ | .firstItem, .beginArray, _ =>
      assemble (.array [] :: containers) .firstItem rest
    | .value, .beginObject, _ | .firstItem, .beginObject, _ =>
      assemble (.object [] none :: containers) .firstName rest
    | .value, .broken f, _ | .firstItem, .broken f, _ => (closeAll (.fault f) containers, [])
    | .value, .brokenString f, _ | .firstItem, .brokenString f, _ =>
      (closeAll (.fault f) containers, [])
    | .value, _, _ | .firstItem, _, _ => (closeAll (.fault misplaced) containers, [])

/-- The first value of a text, and whether anything but blanks follows it. -/
def ofText (text : String) : Json × Bool :=
  let (value, rest) := assemble [] .value (tokens text.toList)
  (value, !rest.isEmpty)

end Overworld.Json
