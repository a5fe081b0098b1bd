import Overworld.Json.Literal

/-!
The tokens of a JSON text.

`tokens` cuts a text into tokens up to the first place that starts none. The one thing that depends
on who reads is told by the tokens themselves: a string with half a surrogate pair and a number
beyond the doubles are tokens without a value.
-/

namespace Overworld.Json

open Overworld.Number

/-- A token of a JSON text. -/
inductive Token where
  | beginArray
  | endArray
  | beginObject
  | endObject
  | comma
  | colon
  | null
  | bool (b : Bool)
  | number (value : Option Number)
  | string (text : Option String)
  /-- A string that goes wrong before its end. -/
  | brokenString (f : Fault)
  /-- Any other characters that start no token. -/
  | broken (f : Fault)
deriving Repr

/-! ### Words and numbers -/

/-- The rest of a word whose first letter was met. -/
def scanWord (token : Token) : List Char → List Char → Token × List Char
  | [], cs => (token, cs)
  | _ :: _, [] => (.broken ⟨.cutShort, .cutShort, .malformed⟩, [])
  | w :: ws, c :: cs => if w = c then scanWord token ws cs else (.broken .broken, [])

/-- A fault in a number: a reader sees that the text ended, and a reader that passes over it only
that a digit is missing. -/
def digitMissing (rest : List Char) : Token :=
  .broken ⟨if rest.isEmpty then .cutShort else .malformed, .malformed, .malformed⟩

/-- The exponent of a number whose other digits were read. -/
def scanExponent (negative : Bool) (whole fraction : List Nat) (cs : List Char) :
    Token × List Char :=
  let digitsOf (minus : Bool) (ds : List Char) : Token × List Char :=
    match takeDigits ds with
    | ([], rest) => (digitMissing rest, [])
    | (digits, rest) =>
      (.number (Literal.mk negative whole fraction (some (minus, digits))).number?, rest)
  match cs with
  | c :: rest =>
    if c = 'e' ∨ c = 'E' then
      match rest with
      | '-' :: ds => digitsOf true ds
      | '+' :: ds => digitsOf false ds
      | ds => digitsOf false ds
    else (.number (Literal.mk negative whole fraction none).number?, c :: rest)
  | [] => (.number (Literal.mk negative whole fraction none).number?, [])

/-- A number whose sign was read. A zero is followed by no digit, and a point by at least one. -/
def scanNumber (negative : Bool) (cs : List Char) : Token × List Char :=
  match takeDigits cs with
  | ([], rest) => (digitMissing rest, [])
  | (0 :: _ :: _, _) => (.broken .broken, [])
  | (whole, '.' :: tail) =>
    match takeDigits tail with
    | ([], rest) => (digitMissing rest, [])
    | (fraction, rest) => scanExponent negative whole fraction rest
  | (whole, rest) => scanExponent negative whole [] rest

/-! ### Strings -/

/-- The value of a hexadecimal digit. -/
def hexDigit? (c : Char) : Option Nat :=
  if '0' ≤ c ∧ c ≤ '9' then some (c.toNat - '0'.toNat)
  else if 'a' ≤ c ∧ c ≤ 'f' then some (c.toNat - 'a'.toNat + 10)
  else if 'A' ≤ c ∧ c ≤ 'F' then some (c.toNat - 'A'.toNat + 10)
  else none

/-- The 16-bit unit that the next four bytes write in hexadecimal. -/
def unit? (cs : List Char) : Except Break Nat :=
  let next := cs.take 4
  if (String.ofList next).utf8ByteSize < 4 then .error .cutShort
  else
    match next.mapM hexDigit? with
    | some digits => .ok (digits.foldl (fun n d => 16 * n + d) 0)
    | none => .error .malformed

/-- The first unit of a surrogate pair. -/
def isLeading (unit : Nat) : Bool := 0xD800 ≤ unit && unit ≤ 0xDBFF

/-- The second unit of a surrogate pair. -/
def isTrailing (unit : Nat) : Bool := 0xDC00 ≤ unit && unit ≤ 0xDFFF

/-- The character that an escape stands for, after its backslash, and how many characters the escape
takes. There is no character for half a surrogate pair. -/
def unescape : List Char → Except Break (Option Char × Nat)
  | [] => .error .cutShort
  | '"' :: _ => .ok (some '"', 1)
  | '\\' :: _ => .ok (some '\\', 1)
  | '/' :: _ => .ok (some '/', 1)
  | 'b' :: _ => .ok (some '\x08', 1)
  | 'f' :: _ => .ok (some '\x0c', 1)
  | 'n' :: _ => .ok (some '\n', 1)
  | 'r' :: _ => .ok (some '\r', 1)
  | 't' :: _ => .ok (some '\t', 1)
  | 'u' :: cs => do
    let unit ← unit? cs
    if isLeading unit then
      match cs.drop 4 with
      | [] => .error .cutShort
      | ['\\'] => .error .cutShort
      | '\\' :: 'u' :: next =>
        let second ← unit? next
        if isTrailing second then
          .ok (some (Char.ofNat (0x10000 + 0x400 * (unit - 0xD800) + (second - 0xDC00))), 11)
        else .ok (none, 5)
      | _ => .ok (none, 5)
    else if isTrailing unit then .ok (none, 5)
    else .ok (some (Char.ofNat unit), 5)
  | _ :: _ => .error .malformed

/-- A fault inside a string. Where half a surrogate pair came before it, a reader stopped there. -/
def stringFault (whole : Bool) (b : Break) : Token :=
  let reading := if whole then b else .malformed
  .brokenString ⟨reading, b, reading⟩

/-- The rest of a string after its opening quote. The characters read so far stand in reverse, and
`whole` tells that no half surrogate pair was among them. -/
def scanString (read : List Char) (whole : Bool) : List Char → Token × List Char
  | [] => (stringFault whole .cutShort, [])
  | c :: cs =>
    if c = '"' then (.string (if whole then some (String.ofList read.reverse) else none), cs)
    else if c = '\\' then
      match unescape cs with
      | .error b => (stringFault whole b, [])
      | .ok (some x, taken) => scanString (x :: read) whole (cs.drop taken)
      | .ok (none, taken) => scanString read false (cs.drop taken)
    else if c < ' ' then (stringFault whole .malformed, [])
    else scanString (c :: read) whole cs
termination_by cs => cs.length
decreasing_by all_goals simp only [List.length_drop, List.length_cons]; omega

/-! ### Cutting a text -/

/-- The blanks between tokens. -/
def isSpace (c : Char) : Bool :=
  c = ' ' || c = '\n' || c = '\t' || c = '\r'

/-- The token that starts with a character which is no blank. -/
def scan (c : Char) (cs : List Char) : Token × List Char :=
  match c with
  | '[' => (.beginArray, cs)
  | ']' => (.endArray, cs)
  | '{' => (.beginObject, cs)
  | '}' => (.endObject, cs)
  | ',' => (.comma, cs)
  | ':' => (.colon, cs)
  | 'n' => scanWord .null ['u', 'l', 'l'] cs
  | 't' => scanWord (.bool true) ['r', 'u', 'e'] cs
  | 'f' => scanWord (.bool false) ['a', 'l', 's', 'e'] cs
  | '"' => scanString [] true cs
  | '-' => scanNumber true cs
  | _ => if (digit? c).isSome then scanNumber false (c :: cs) else (.broken .broken, [])

/-! ### Every token takes a character -/

theorem length_scanWord_le (token : Token) (ws cs : List Char) :
    (scanWord token ws cs).2.length ≤ cs.length := by
  induction ws generalizing cs with
  | nil => simp [scanWord]
  | cons w ws ih =>
    cases cs with
    | nil => simp [scanWord]
    | cons c cs =>
      simp only [scanWord]
      split
      · exact Nat.le_succ_of_le (ih cs)
      · simp

theorem length_takeDigits_snd_le {cs rest : List Char} {digits : List Nat}
    (h : takeDigits cs = (digits, rest)) : rest.length + digits.length = cs.length := by
  have := length_takeDigits cs
  rw [h] at this
  simp only at this
  omega

theorem length_scanExponent_le (negative : Bool) (whole fraction : List Nat) (cs : List Char) :
    (scanExponent negative whole fraction cs).2.length ≤ cs.length := by
  unfold scanExponent
  cases cs with
  | nil => simp
  | cons c rest =>
    simp only
    split
    · split
      all_goals
        split
        · simp
        · next h => have := length_takeDigits_snd_le h; simp_all; omega
    · simp

theorem length_scanNumber_le (negative : Bool) (cs : List Char) :
    (scanNumber negative cs).2.length ≤ cs.length := by
  unfold scanNumber
  split
  · simp
  · simp
  · next h =>
    have outer := length_takeDigits_snd_le h
    simp only [List.length_cons] at outer
    split
    · simp
    · next h' =>
      have inner := length_takeDigits_snd_le h'
      exact Nat.le_trans (length_scanExponent_le _ _ _ _) (by omega)
  · next h =>
    have outer := length_takeDigits_snd_le h
    exact Nat.le_trans (length_scanExponent_le _ _ _ _) (by omega)

/-- Digits in front only ever leave less. -/
theorem length_scanNumber_lt {negative : Bool} {c : Char} {cs : List Char}
    (h : (digit? c).isSome) : (scanNumber negative (c :: cs)).2.length ≤ cs.length := by
  obtain ⟨d, hd⟩ := Option.isSome_iff_exists.1 h
  unfold scanNumber
  split
  · simp
  · simp
  · next h =>
    have outer := length_takeDigits_snd_le h
    simp only [List.length_cons] at outer
    split
    · simp
    · next h' =>
      have inner := length_takeDigits_snd_le h'
      exact Nat.le_trans (length_scanExponent_le _ _ _ _) (by omega)
  · next hnil _ _ h =>
    have outer := length_takeDigits_snd_le h
    have found : (takeDigits (c :: cs)).1 = d :: (takeDigits cs).1 := by simp [takeDigits, hd]
    rw [h] at found
    simp only at found
    rw [found] at outer
    simp only [List.length_cons] at outer
    exact Nat.le_trans (length_scanExponent_le _ _ _ _) (by omega)

theorem length_scanString_le (read : List Char) (whole : Bool) (cs : List Char) :
    (scanString read whole cs).2.length ≤ cs.length := by
  fun_induction scanString read whole cs with
  | case1 => simp
  | case2 => simp
  | case3 => simp
  | case4 =>
    rename_i ih
    simp only [List.length_drop] at ih
    simp only [List.length_cons]
    omega
  | case5 =>
    rename_i ih
    simp only [List.length_drop] at ih
    simp only [List.length_cons]
    omega
  | case6 => simp
  | case7 =>
    rename_i ih
    simp only [List.length_cons]
    omega

theorem length_scan_le (c : Char) (cs : List Char) : (scan c cs).2.length ≤ cs.length := by
  unfold scan
  split
  all_goals try simp only [Nat.le_refl]
  · exact length_scanWord_le _ _ _
  · exact length_scanWord_le _ _ _
  · exact length_scanWord_le _ _ _
  · exact length_scanString_le _ _ _
  · exact length_scanNumber_le _ _
  · split
    · next h => exact length_scanNumber_lt h
    · simp

/-- The tokens of a text, up to the first fault. -/
def tokens : List Char → List Token
  | [] => []
  | c :: cs => if isSpace c then tokens cs else (scan c cs).1 :: tokens (scan c cs).2
termination_by cs => cs.length
decreasing_by
  · simp
  · have := length_scan_le c cs
    simp only [List.length_cons]
    omega

end Overworld.Json
