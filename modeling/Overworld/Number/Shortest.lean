import Overworld.Number.Power

/-!
The shortest decimal text of a double.

A double stands for an interval of reals, the ones that round to it. Its shortest decimal is the one
on the coarsest grid of powers of ten that has a point in that interval; of two such points the
nearer, and of two equally near the greater. The text is positional however long it gets.
-/

namespace Overworld.Number

/-- A finite positive double, `mantissa * 2 ^ exponent`. -/
structure Binary where
  mantissa : Nat
  exponent : Int
  /-- The gap to the double below is half the gap to the double above. -/
  narrowBelow : Bool
deriving DecidableEq, Repr

/-- How many patterns the fraction bits of a double have; also the weight of the leading one that is
not stored. -/
def fractionLimit : Nat := twoTo 52

/-- The binary form of a bit pattern whose sign is left out. -/
def Binary.ofBits (bits : Nat) : Binary :=
  let field : Nat := bits / fractionLimit
  let fraction : Nat := bits % fractionLimit
  if field = 0 then ⟨fraction, -1074, false⟩
  else ⟨fractionLimit + fraction, (field : Int) - 1075, fraction = 0 && field != 1⟩

/-- The point chosen on the grid of the multiples of `10 ^ k`: a multiple inside the interval of the
reals that round to `b`, ends included when the mantissa is even. -/
def Binary.gridPoint? (b : Binary) (k : Int) : Option Nat :=
  -- Everything is counted in quarters of a unit in the last place, over a common denominator.
  let unit := twoTo (b.exponent - 2).toNat * tenTo (-k).toNat
  let grid := tenTo k.toNat * twoTo (2 - b.exponent).toNat
  let value := 4 * b.mantissa * unit
  let low := (4 * b.mantissa - if b.narrowBelow then 1 else 2) * unit
  let high := (4 * b.mantissa + 2) * unit
  let inside (x : Nat) : Bool :=
    if b.mantissa % 2 = 0 then low ≤ x && x ≤ high else low < x && x < high
  let j := value / grid
  match inside (j * grid), inside ((j + 1) * grid) with
  | false, false => none
  | true, false => some j
  | false, true => some (j + 1)
  | true, true => some (if 2 * value < (2 * j + 1) * grid then j else j + 1)

/-- The digits of the shortest decimal as one number, and the power of ten they count. Every double
has one at `10 ^ -324` at the latest; the exact value stands after the search for completeness. -/
def Binary.shortest (b : Binary) : Nat × Int :=
  let grids := (List.range 633).map fun (n : Nat) => (308 : Int) - n
  match grids.findSome? fun k => (b.gridPoint? k).map fun j => (j, k) with
  | some found => found
  | none => (b.mantissa * twoTo b.exponent.toNat * Nat.pow 5 (-b.exponent).toNat, min b.exponent 0)

/-- `n * 10 ^ k` without an exponent mark. -/
def positional (n : Nat) (k : Int) : String :=
  let digits := Nat.toDigits 10 n
  if 0 ≤ k then String.ofList (digits ++ List.replicate k.toNat '0')
  else
    let places := (-k).toNat
    let padded := List.replicate (places + 1 - digits.length) '0' ++ digits
    let whole := padded.length - places
    String.ofList (padded.take whole ++ '.' :: padded.drop whole)

/-- The shortest decimal text that reads back as the double. Zero keeps its sign. -/
def shortestText (x : Float) : String :=
  let bits := x.toBits.toNat
  let sign := if bits / twoTo 63 = 1 then "-" else ""
  let magnitude := bits % twoTo 63
  if magnitude = 0 then sign ++ "0"
  else if 2047 * fractionLimit < magnitude then "NaN"
  else if magnitude = 2047 * fractionLimit then sign ++ "inf"
  else
    let (n, k) := (Binary.ofBits magnitude).shortest
    sign ++ positional n k

end Overworld.Number
