import Overworld.Json.Basic
import Overworld.Number.Decimal

/-!
Number literals and their values.

A literal without point and exponent is an integer while it fits 64 bits. Every other literal is a
double, computed in two steps: as many leading digits as fit 64 bits are converted to a double, and
that is multiplied or divided once by a power of ten. The digits beyond those 64 bits count for the
magnitude only. A literal beyond the greatest double has no value.
-/

namespace Overworld.Json

open Overworld.Number

/-- A number literal, part by part. -/
structure Literal where
  negative : Bool
  whole : List Nat
  /-- The digits after the point; none without a point. -/
  fraction : List Nat
  /-- Whether the exponent is negative, and its digits; there is no exponent without digits. -/
  exponent : Option (Bool × List Nat)
deriving DecidableEq, Repr

/-- `10 ^ n` as a double. -/
def powerOfTen (n : Nat) : Float := Float.ofScientific 1 false n

/-- Take digits onto a number while it stays below `word64`; the number, and the digits left. -/
def absorb : Nat → List Nat → Nat × List Nat
  | n, [] => (n, [])
  | n, d :: ds => if 10 * n + d < word64 then absorb (10 * n + d) ds else (n, d :: ds)

/-- Divide by a power of ten, in steps that each stay within the doubles. -/
def shrink (x : Float) (places : Nat) : Float :=
  if places ≤ 308 then x / powerOfTen places
  else if x == 0 then x
  else shrink (x / powerOfTen 308) (places - 308)
termination_by places

/-- `x * 10 ^ k`, unless it is beyond the doubles. -/
def scale? (x : Float) (k : Int) : Option Float :=
  if k < 0 then some (shrink x (-k).toNat)
  else if k ≤ 308 then
    let y := x * powerOfTen k.toNat
    if y.isInf then none else some y
  else if x == 0 then some x
  else none

/-- The double that a literal stands for. Exponents of 32 bits and more settle the outcome by their
sign. -/
def Literal.double? (l : Literal) : Option Float :=
  let (head, beyond) := absorb 0 l.whole
  let (significand, ignored) := absorb head l.fraction
  let places : Int := beyond.length - (l.fraction.length - ignored.length : Nat)
  let magnitude? : Option Float :=
    match l.exponent with
    | none => scale? (Float.ofNat significand) places
    | some (negative, digits) =>
      let e := ofDigits digits
      if 2 * e < word32 then
        scale? (Float.ofNat significand) (if negative then places - e else places + e)
      else if significand = 0 ∨ negative then some 0
      else none
  magnitude?.map fun x => if l.negative then -x else x

/-- The value of a literal, if it has one. -/
def Literal.number? (l : Literal) : Option Number :=
  let n := ofDigits l.whole
  if l.fraction.isEmpty && l.exponent.isNone then
    if l.negative then
      if 0 < n ∧ 2 * n ≤ word64 then some (.int (-n)) else l.double?.map .double
    else if n < word64 then some (.int n)
    else l.double?.map .double
  else l.double?.map .double

end Overworld.Json
