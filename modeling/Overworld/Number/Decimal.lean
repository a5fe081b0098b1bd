import Overworld.Number.Power

/-!
Decimal numbers as a text writes them, and the whole number that one stands for.

`Decimal.read?` accepts an optional sign, digits with at most one point among them, and an optional
exponent: `5`, `-3.`, `.5`, `+1.5e3`. `Decimal.whole?` is the whole part, clamped to 32 bits, of the
double nearest to the number. It is computed on natural numbers: below 2^31 the nearest double of a
number reaches the next whole number exactly when the number lies within half a unit in the last
place of it.
-/

namespace Overworld.Number

/-! ### Digits -/

/-- The value of a decimal digit. -/
def digit? (c : Char) : Option Nat :=
  if '0' ≤ c ∧ c ≤ '9' then some (c.toNat - '0'.toNat) else none

/-- The leading digits of a list of characters, and what follows them. -/
def takeDigits : List Char → List Nat × List Char
  | [] => ([], [])
  | c :: cs =>
    match digit? c with
    | some d => (d :: (takeDigits cs).1, (takeDigits cs).2)
    | none => ([], c :: cs)

/-- The number that a list of decimal digits writes, the first digit being the highest. -/
def ofDigits (digits : List Nat) : Nat :=
  digits.foldl (fun n d => 10 * n + d) 0

/-- The number that a text of nothing but digits writes. -/
def natural? (cs : List Char) : Option Nat :=
  match takeDigits cs with
  | ([], _) => none
  | (digits, []) => some (ofDigits digits)
  | (_, _ :: _) => none

/-- A natural number of 64 bits, with an optional plus sign. -/
def count? : List Char → Option Nat
  | '+' :: cs => (natural? cs).filter (· < word64)
  | cs => (natural? cs).filter (· < word64)

/-! ### Decimals -/

/-- A decimal number: its sign, its digits without leading zeros, and the power of ten that the
last digit counts. -/
structure Decimal where
  negative : Bool
  digits : List Nat
  exponent : Int
deriving DecidableEq, Repr

/-- An exponent mark with its number, at the end of a text; zero where there is none. -/
def exponent? : List Char → Option Int
  | [] => some 0
  | c :: cs =>
    if c = 'e' ∨ c = 'E' then
      match cs with
      | '-' :: ds => (natural? ds).map fun n => -(n : Int)
      | '+' :: ds => (natural? ds).map fun n => (n : Int)
      | ds => (natural? ds).map fun n => (n : Int)
    else none

/-- An unsigned decimal. -/
def Decimal.unsigned? (negative : Bool) (cs : List Char) : Option Decimal :=
  let (whole, rest) := takeDigits cs
  let (fraction, rest) :=
    match rest with
    | '.' :: tail => takeDigits tail
    | _ => ([], rest)
  if whole.isEmpty && fraction.isEmpty then none
  else
    (exponent? rest).map fun e =>
      { negative
        digits := (whole ++ fraction).dropWhile (· = 0)
        exponent := e - fraction.length }

/-- The decimal that a text writes, if the whole text writes one. -/
def Decimal.read? : List Char → Option Decimal
  | '-' :: cs => Decimal.unsigned? true cs
  | '+' :: cs => Decimal.unsigned? false cs
  | cs => Decimal.unsigned? false cs

/-! ### The whole number nearest by -/

/-- The least whole number that does not fit 32 bits. -/
def wordLimit : Nat := twoTo 31

/-- A number and its sign, clamped to the whole numbers of 32 bits. -/
def clampWord (negative : Bool) (n : Nat) : Int :=
  if negative then -(min n wordLimit : Nat) else (min n (wordLimit - 1) : Nat)

/-- Half a unit in the last place beyond the greatest finite double: from here on numbers round to
infinity. -/
def doubleLimit : Nat := twoTo 1024 - twoTo 970

/-- How many bits a natural number takes; none for zero. -/
def bitLength (n : Nat) : Nat :=
  if n = 0 then 0 else n.log2 + 1

/-- The whole part of the double nearest to `num / den`, where that whole part is below `2 ^ 53`.
The double is the next whole number, and not one below it, when `num / den` lies at most half a unit in
the last place below that number. -/
def wholeOfNearest (num den : Nat) : Nat :=
  let n := num / den
  if (n + 1) * twoTo 54 * den ≤ num * twoTo 54 + twoTo (bitLength n) * den then n + 1 else n

/-- The whole part of the nearest double, clamped to 32 bits. There is none for a number that rounds
to infinity. Numbers outside `10 ^ -1` to `10 ^ 310` are settled by their length alone. -/
def Decimal.whole? (d : Decimal) : Option Int :=
  let length : Int := d.digits.length + d.exponent
  if d.digits.isEmpty ∨ length < 0 then some 0
  else if 310 < length then none
  else
    let num := ofDigits d.digits * tenTo d.exponent.toNat
    let den := tenTo (-d.exponent).toNat
    if doubleLimit * den ≤ num then none
    else some (clampWord d.negative (wholeOfNearest num den))

/-! ### Laws of the digits -/

/-- Reading digits loses no character. -/
theorem length_takeDigits (cs : List Char) :
    (takeDigits cs).1.length + (takeDigits cs).2.length = cs.length := by
  induction cs with
  | nil => rfl
  | cons c cs ih =>
    simp only [takeDigits]
    cases digit? c with
    | none => simp
    | some d => simp only [List.length_cons]; omega

/-- Whole numbers are their own whole part. -/
theorem wholeOfNearest_one {n : Nat} (h : n < twoTo 53) : wholeOfNearest n 1 = n := by
  have bits : bitLength n ≤ 53 := by
    unfold bitLength
    split
    · omega
    · next hn =>
      have := (Nat.log2_lt hn).2 h
      omega
  have step : twoTo (bitLength n) < twoTo 54 :=
    Nat.lt_of_le_of_lt (twoTo_le_twoTo bits) (by decide)
  have succ_mul := Nat.add_mul n 1 (twoTo 54)
  simp only [wholeOfNearest, Nat.div_one, Nat.mul_one]
  split <;> omega

end Overworld.Number
