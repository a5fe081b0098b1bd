/-!
Powers of two and of ten, and the sizes of machine words.
-/

namespace Overworld.Number

/-- The power of two with an exponent. -/
def twoTo (n : Nat) : Nat := Nat.pow 2 n

/-- The power of ten with an exponent. -/
def tenTo (n : Nat) : Nat := Nat.pow 10 n

/-- How many numbers 32 bits count. -/
def word32 : Nat := 4294967296

/-- How many numbers 64 bits count. -/
def word64 : Nat := 18446744073709551616

/-- Greater exponents give greater powers. -/
theorem twoTo_le_twoTo {m n : Nat} (h : m ≤ n) : twoTo m ≤ twoTo n := by
  simp only [twoTo, Nat.pow_eq]
  exact Nat.pow_le_pow_right (by decide) h

/-- So it is for powers of ten. -/
theorem tenTo_le_tenTo {m n : Nat} (h : m ≤ n) : tenTo m ≤ tenTo n := by
  simp only [tenTo, Nat.pow_eq]
  exact Nat.pow_le_pow_right (by decide) h

end Overworld.Number
