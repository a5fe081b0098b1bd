import Mathlib.Data.Nat.Digits.Lemmas
import Mathlib.Tactic.IntervalCases
import Overworld.Json.Document
import Overworld.Proofs.Texts

/-!
Whole numbers as texts spell them.

A text spells a whole number (`Number.Spells`) if it is made of decimal digits, perhaps with a sign
in front, and blank characters around them; zeros in front do not matter. The decimal text of an
integer is one of its spellings. As a decimal number every spelling comes to the same, the number
clamped to 32 bits (`Number.Signed.whole?_eq`), however the double nearest to it is rounded; and in
a JSON text the decimal text of an integer is one token, the integer itself as long as it has 64
bits (`Json.ofText_toString`).
-/

namespace Overworld

namespace Number

/-! ### The digits of a number -/

/-- The decimal digits of a number, the highest one first. Zero has one digit as well. -/
def decimalDigits (n : Nat) : List Nat := if n = 0 then [0] else (Nat.digits 10 n).reverse

theorem decimalDigits_ne_nil (n : Nat) : decimalDigits n ≠ [] := by
  unfold decimalDigits
  split
  · exact List.cons_ne_nil _ _
  · rename_i some
    rw [ne_eq, List.reverse_eq_nil_iff]
    exact Nat.digits_ne_nil_iff_ne_zero.mpr some

theorem lt_of_mem_decimalDigits {n d : Nat} (mem : d ∈ decimalDigits n) : d < 10 := by
  unfold decimalDigits at mem
  split at mem
  · rw [List.mem_singleton.mp mem]
    decide
  · exact Nat.digits_lt_base (by decide) (List.mem_reverse.mp mem)

theorem ofDigits_decimalDigits (n : Nat) : Nat.ofDigits 10 (decimalDigits n).reverse = n := by
  unfold decimalDigits
  split
  · rename_i zero
    rw [zero]
    rfl
  · rw [List.reverse_reverse, Nat.ofDigits_digits]

/-- No number but zero begins with a zero. -/
theorem decimalDigits_ne_zero_cons (n d : Nat) (ds : List Nat) :
    decimalDigits n ≠ 0 :: d :: ds := by
  unfold decimalDigits
  split
  · exact fun is => nomatch is
  · rename_i some
    intro is
    have first : (Nat.digits 10 n).getLast? = .some 0 := by
      rw [← List.head?_reverse, is, List.head?_cons]
    have digits := Nat.digits_ne_nil_iff_ne_zero (b := 10).mpr some
    rw [List.getLast?_eq_some_getLast digits] at first
    exact Nat.getLast_digit_ne_zero 10 some (Option.some.inj first)

theorem decimalDigits_of_ten_le {n : Nat} (large : 10 ≤ n) :
    decimalDigits n = decimalDigits (n / 10) ++ [n % 10] := by
  have tens : n / 10 ≠ 0 := by omega
  have lowest := Nat.digits_def' (b := 10) (n := n) (by decide) (by omega)
  rw [decimalDigits, decimalDigits, if_neg (by omega), if_neg tens, lowest, List.reverse_cons]

theorem toDigits_eq_map (n : Nat) : Nat.toDigits 10 n = (decimalDigits n).map Nat.digitChar := by
  induction n using Nat.strongRecOn with
  | ind n ih =>
    rcases Nat.lt_or_ge n 10 with small | large
    · rw [Nat.toDigits_of_lt_base small]
      unfold decimalDigits
      split
      · rename_i zero
        rw [zero]
        rfl
      · rename_i some
        rw [Nat.digits_of_lt 10 n some small]
        rfl
    · rw [Nat.toDigits_of_base_le (by decide) large, ih (n / 10) (by omega),
        decimalDigits_of_ten_le large, List.map_append]
      rfl

/-- The decimal text of a number writes it. -/
theorem numeral_toDigits (n : Nat) : Numeral (Nat.toDigits 10 n) n :=
  ⟨decimalDigits n, decimalDigits_ne_nil n, fun _ => lt_of_mem_decimalDigits, toDigits_eq_map n,
    (ofDigits_decimalDigits n).symm⟩

/-- Zeros in front of a number do not matter. -/
theorem Numeral.replicate_zero_append {digits : List Char} {n : Nat} (numeral : Numeral digits n)
    (zeros : Nat) : Numeral (List.replicate zeros '0' ++ digits) n := by
  induction zeros with
  | zero => exact numeral
  | succ zeros ih =>
    obtain ⟨ds, -, small, written, value⟩ := ih
    refine ⟨0 :: ds, List.cons_ne_nil _ _, ?_, ?_, ?_⟩
    · exact List.forall_mem_cons.mpr ⟨by decide, small⟩
    · rw [List.replicate_succ, List.cons_append, written]
      rfl
    · rw [value, ← ofDigits_eq, ← ofDigits_eq]
      rfl

/-! ### Spellings -/

/-- Digits with a sign in front or without one, and the whole number that they write. -/
inductive Signed : List Char → Int → Prop
  | plain {digits : List Char} {n : Nat} (numeral : Numeral digits n) : Signed digits n
  | plus {digits : List Char} {n : Nat} (numeral : Numeral digits n) : Signed ('+' :: digits) n
  | minus {digits : List Char} {n : Nat} (numeral : Numeral digits n) : Signed ('-' :: digits) (-n)

/-- A text that spells a whole number, with blank characters around it. -/
def Spells (text : String) (n : Int) : Prop := ∃ core, Text.Trims text.toList core ∧ Signed core n

/-- The decimal text of an integer, with zeros in front of its digits. -/
def padded (zeros : Nat) (n : Int) : String :=
  (if n < 0 then "-" else "") ++ String.ofList (List.replicate zeros '0') ++ toString n.natAbs

theorem toList_padded (zeros : Nat) (n : Int) :
    (padded zeros n).toList =
      (if n < 0 then ['-'] else []) ++ (List.replicate zeros '0' ++ Nat.toDigits 10 n.natAbs) := by
  unfold padded
  rw [String.toList_append, String.toList_append, String.toList_ofList,
    Nat.toString_eq_ofList_toDigits, String.toList_ofList, List.append_assoc]
  split <;> rfl

theorem signed_padded (zeros : Nat) (n : Int) : Signed (padded zeros n).toList n := by
  have numeral := (numeral_toDigits n.natAbs).replicate_zero_append zeros
  rw [toList_padded]
  rcases Int.lt_or_le n 0 with negative | positive
  · have value : n = -(n.natAbs : Int) := by omega
    rw [if_pos negative]
    nth_rewrite 2 [value]
    exact .minus numeral
  · have value : n = (n.natAbs : Int) := by omega
    rw [if_neg (by omega)]
    nth_rewrite 2 [value]
    exact .plain numeral

theorem padded_zero (n : Int) : padded 0 n = toString n := by
  rw [padded, Int.toString_eq_repr, Int.repr_eq_if]
  rcases Int.lt_or_le n 0 with negative | positive
  · have size : (-n).toNat = n.natAbs := by omega
    rw [if_pos negative, if_neg (by omega), size]
    rfl
  · have size : n.toNat = n.natAbs := by omega
    rw [if_neg (by omega), if_pos positive, size]
    exact String.empty_append

theorem toList_toString (n : Int) :
    (toString n).toList = (if n < 0 then ['-'] else []) ++ Nat.toDigits 10 n.natAbs := by
  rw [← padded_zero, toList_padded, List.replicate_zero, List.nil_append]

theorem signed_toString (n : Int) : Signed (toString n).toList n :=
  padded_zero n ▸ signed_padded 0 n

theorem Numeral.bounds {cs : List Char} {n : Nat} (numeral : Numeral cs n) {c : Char}
    (mem : c ∈ cs) : 48 ≤ c.toNat ∧ c.toNat ≤ 57 := by
  obtain ⟨digits, -, small, rfl, -⟩ := numeral
  obtain ⟨d, mem', rfl⟩ := List.mem_map.mp mem
  have less := small d mem'
  rw [toNat_digitChar less]
  omega

namespace Signed

variable {core : List Char} {n : Int}

theorem isBlank_eq_false (signed : Signed core n) {c : Char} (mem : c ∈ core) :
    Text.isBlank c = false := by
  have digit {digits : List Char} {n : Nat} (numeral : Numeral digits n) (mem : c ∈ digits) :
      Text.isBlank c = false := by
    have bounds := numeral.bounds mem
    exact Text.isBlank_eq_false (by omega) (by omega)
  cases signed with
  | plain numeral => exact digit numeral mem
  | plus numeral | minus numeral =>
    rcases List.mem_cons.mp mem with rfl | mem
    · decide
    · exact digit numeral mem

/-- Blank characters around a number do not matter. -/
theorem spells (signed : Signed core n) {text : String} {before after : List Char}
    (is : text.toList = before ++ core ++ after) (blank : ∀ c ∈ before, Text.isBlank c = true)
    (blank' : ∀ c ∈ after, Text.isBlank c = true) : Spells text n := by
  refine ⟨core, ⟨⟨before, after, is, blank, blank'⟩, ?_, ?_⟩, signed⟩
  · exact fun c first => signed.isBlank_eq_false (List.mem_of_head? first)
  · exact fun c last => signed.isBlank_eq_false (List.mem_of_getLast? last)

end Signed

/-! ### What a spelling comes to -/

/-- An integer of 64 bits with a sign. -/
def Within64 (n : Int) : Prop := -9223372036854775808 ≤ n ∧ n ≤ 9223372036854775807

theorem Within64.natAbs_lt {n : Int} (fits : Within64 n) : n.natAbs < doubleLimit := by
  have limit : 9223372036854775808 < doubleLimit := by decide +kernel
  obtain ⟨low, high⟩ := fits
  omega

/-- The whole number of 32 bits that is nearest to a whole number. -/
def clamped (n : Int) : Int := max (-2147483648) (min n 2147483647)

theorem clamped_eq_zero_iff {n : Int} : clamped n = 0 ↔ n = 0 := by
  unfold clamped
  omega

theorem clamped_eq_self {n : Int} (low : -2147483648 ≤ n) (high : n ≤ 2147483647) :
    clamped n = n := by
  unfold clamped
  omega

theorem clampWord_eq (negative : Bool) (n : Nat) :
    clampWord negative n = clamped (if negative then -n else n) := by
  have limit : wordLimit = 2147483648 := by decide
  unfold clampWord clamped
  rw [limit]
  cases negative with
  | false =>
    rw [if_neg (by decide), if_neg (by decide)]
    omega
  | true =>
    rw [if_pos rfl, if_pos rfl]
    omega

/-- Rounding to a double changes no whole number that is not beyond 32 bits anyway. -/
theorem clampWord_wholeOfNearest (negative : Bool) (n : Nat) :
    clampWord negative (wholeOfNearest n 1) = clampWord negative n := by
  rcases Nat.lt_or_ge n (twoTo 53) with small | large
  · rw [wholeOfNearest_one small]
  · have beyond : wordLimit ≤ n := Nat.le_trans (by decide) large
    have near : n ≤ wholeOfNearest n 1 := by
      simp only [wholeOfNearest, Nat.div_one]
      split <;> omega
    have down : min (wholeOfNearest n 1) wordLimit = min n wordLimit := by omega
    have up : min (wholeOfNearest n 1) (wordLimit - 1) = min n (wordLimit - 1) := by omega
    rw [clampWord, down, up, clampWord]

theorem ofDigits_dropWhile_zero (ds : List Nat) :
    ofDigits (ds.dropWhile (· = 0)) = ofDigits ds := by
  induction ds with
  | nil => rfl
  | cons d ds ih =>
    rcases Nat.eq_zero_or_pos d with rfl | pos
    · rw [List.dropWhile_cons_of_pos (by decide), ih]
      rfl
    · rw [List.dropWhile_cons_of_neg (by simpa using Nat.ne_of_gt pos)]

/-- A number below the greatest double has not many digits. -/
theorem length_le_of_lt_doubleLimit {ds : List Nat} (first : ds.head? ≠ some 0)
    (small : ofDigits ds < doubleLimit) : ds.length ≤ 310 := by
  rcases eq_or_ne ds [] with rfl | some
  · decide
  · have reversed : ds.reverse ≠ [] := by rwa [ne_eq, List.reverse_eq_nil_iff]
    have highest : ds.reverse.getLast reversed ≠ 0 := by
      rwa [List.getLast_reverse, ne_eq, ← Option.some.injEq, ← List.head?_eq_some_head]
    have least : 10 ^ ds.reverse.length ≤ 10 * Nat.ofDigits 10 ds.reverse :=
      Nat.pow_length_le_mul_ofDigits reversed highest
    rw [List.length_reverse, ← ofDigits_eq] at least
    by_contra long
    have longer : tenTo 311 ≤ 10 ^ ds.length := tenTo_le_tenTo (by omega)
    have limit : 10 * doubleLimit ≤ tenTo 311 := by decide +kernel
    omega

namespace Decimal

theorem whole?_eq {negative : Bool} {ds : List Nat} (first : ds.head? ≠ some 0)
    (small : ofDigits ds < doubleLimit) :
    whole? ⟨negative, ds, 0⟩ = some (clampWord negative (ofDigits ds)) := by
  have few := length_le_of_lt_doubleLimit first small
  cases ds with
  | nil => cases negative <;> decide
  | cons d ds =>
    have num : ofDigits (d :: ds) * tenTo (0 : Int).toNat = ofDigits (d :: ds) := Nat.mul_one _
    have den : tenTo (-0 : Int).toNat = 1 := rfl
    have inside : ¬((d :: ds).isEmpty ∨ ((d :: ds).length : Int) + 0 < 0) := by
      rintro (none | under)
      · cases none
      · omega
    unfold whole?
    dsimp only
    rw [num, den, if_neg inside, if_neg (by omega), if_neg (by omega), clampWord_wholeOfNearest]

/-- Digits are a decimal number without an exponent. -/
theorem unsigned?_numeral (negative : Bool) {digits : List Char} {n : Nat}
    (numeral : Numeral digits n) :
    ∃ ds, unsigned? negative digits = some ⟨negative, ds, 0⟩ ∧ ds.head? ≠ some 0 ∧
      ofDigits ds = n := by
  obtain ⟨ds, some, small, written, rfl⟩ := numeral
  have taken : takeDigits digits = (ds, []) := takeDigits_eq_iff.mpr ⟨small, written⟩
  refine ⟨ds.dropWhile (· = 0), ?_, ?_, ?_⟩
  · simp [unsigned?, taken, some, exponent?]
  · intro first
    have stops := List.head?_dropWhile_not (· = 0) ds
    rw [first] at stops
    simp at stops
  · rw [ofDigits_dropWhile_zero, ofDigits_eq]

end Decimal

/-- A whole number is read as itself, however it is signed. -/
theorem Signed.read? {core : List Char} {n : Int} (signed : Signed core n) :
    ∃ negative ds, Decimal.read? core = some ⟨negative, ds, 0⟩ ∧ ds.head? ≠ some 0 ∧
      n = if negative then -(ofDigits ds : Int) else ofDigits ds := by
  cases signed with
  | plain numeral =>
    obtain ⟨ds, read, first, rfl⟩ := Decimal.unsigned?_numeral false numeral
    refine ⟨false, ds, ?_, first, rfl⟩
    unfold Decimal.read?
    split
    · have bounds := numeral.bounds List.mem_cons_self
      exact absurd bounds (by decide)
    · have bounds := numeral.bounds List.mem_cons_self
      exact absurd bounds (by decide)
    · exact read
  | plus numeral =>
    obtain ⟨ds, read, first, rfl⟩ := Decimal.unsigned?_numeral false numeral
    exact ⟨false, ds, read, first, rfl⟩
  | minus numeral =>
    obtain ⟨ds, read, first, rfl⟩ := Decimal.unsigned?_numeral true numeral
    exact ⟨true, ds, read, first, rfl⟩

/-- What a whole number is read as comes to that number, clamped to 32 bits. -/
theorem Signed.whole?_eq {core : List Char} {n : Int} (signed : Signed core n)
    (small : n.natAbs < doubleLimit) :
    ∃ d, Decimal.read? core = some d ∧ d.whole? = some (clamped n) := by
  obtain ⟨negative, ds, read, first, rfl⟩ := signed.read?
  have small' : ofDigits ds < doubleLimit := by
    cases negative with
    | false => simpa using small
    | true => simpa using small
  exact ⟨_, read, by rw [Decimal.whole?_eq first small', clampWord_eq]⟩

/-- Digits are read up to the first character that is none. -/
theorem takeDigits_append {ds : List Nat} {rest : List Char} (small : ∀ d ∈ ds, d < 10)
    (stops : ∀ c, rest.head? = some c → digit? c = none) :
    takeDigits (ds.map Nat.digitChar ++ rest) = (ds, rest) := by
  induction ds with
  | nil =>
    cases rest with
    | nil => rfl
    | cons c rest => simp [takeDigits, stops c rfl]
  | cons d ds ih =>
    have digit : digit? d.digitChar = some d :=
      digit?_eq_some_iff.mpr ⟨small d List.mem_cons_self, rfl⟩
    rw [List.map_cons, List.cons_append, takeDigits, digit,
      ih fun d mem => small d (List.mem_cons_of_mem _ mem)]

end Number

/-! ### Integers in a JSON text -/

open Number

namespace Json

theorem tokens_append_of_isSpace {before cs : List Char} (spaces : ∀ c ∈ before, isSpace c = true) :
    tokens (before ++ cs) = tokens cs := by
  induction before with
  | nil => rfl
  | cons c before ih =>
    rw [List.cons_append, tokens, if_pos (spaces c List.mem_cons_self),
      ih fun c mem => spaces c (List.mem_cons_of_mem _ mem)]

theorem tokens_of_isSpace {cs : List Char} (spaces : ∀ c ∈ cs, isSpace c = true) :
    tokens cs = [] := by
  rw [← List.append_nil cs, tokens_append_of_isSpace spaces, tokens]

theorem isSpace_eq_true_iff {c : Char} :
    isSpace c = true ↔ c = ' ' ∨ c = '\n' ∨ c = '\t' ∨ c = '\r' := by
  simp [isSpace, or_assoc]

variable {after : List Char}

/-- A number without point and exponent ends with its digits. -/
theorem scanExponent_of_isSpace (negative : Bool) (ds : List Nat)
    (spaces : ∀ c ∈ after, isSpace c = true) :
    scanExponent negative ds [] after =
      (.number (Literal.mk negative ds [] none).number?, after) := by
  cases after with
  | nil => rfl
  | cons c after =>
    have space := isSpace_eq_true_iff.mp (spaces c List.mem_cons_self)
    have other : ¬(c = 'e' ∨ c = 'E') := by
      rcases space with rfl | rfl | rfl | rfl <;> decide
    simp only [scanExponent, if_neg other]

theorem scanNumber_decimalDigits (negative : Bool) (n : Nat)
    (spaces : ∀ c ∈ after, isSpace c = true) :
    scanNumber negative (Nat.toDigits 10 n ++ after) =
      (.number (Literal.mk negative (decimalDigits n) [] none).number?, after) := by
  have stops (c : Char) (is : after.head? = some c) : digit? c = none := by
    have space := isSpace_eq_true_iff.mp (spaces c (List.mem_of_head? is))
    rcases space with rfl | rfl | rfl | rfl <;> decide
  have taken := takeDigits_append (fun _ => lt_of_mem_decimalDigits (n := n)) stops
  rw [toDigits_eq_map, scanNumber, taken]
  split
  · rename_i is
    exact absurd (congrArg Prod.fst is) (decimalDigits_ne_nil n)
  · rename_i is
    exact absurd (congrArg Prod.fst is) (decimalDigits_ne_zero_cons n _ _)
  · rename_i tail _ _ is
    have point : isSpace '.' = true := by
      refine spaces '.' ?_
      rw [show after = '.' :: tail from congrArg Prod.snd is]
      exact List.mem_cons_self
    exact absurd point (by decide)
  · rename_i is
    cases is
    exact scanExponent_of_isSpace negative _ spaces

/-- An integer of 64 bits is the number that its decimal text writes. -/
theorem number?_decimalDigits {n : Int} (fits : Within64 n) :
    (Literal.mk (n < 0) (decimalDigits n.natAbs) [] none).number? = some (.int n) := by
  have value : ofDigits (decimalDigits n.natAbs) = n.natAbs := by
    rw [ofDigits_eq, ofDigits_decimalDigits]
  obtain ⟨low, high⟩ := fits
  rcases Int.lt_or_le n 0 with negative | positive
  · have word : 0 < n.natAbs ∧ 2 * n.natAbs ≤ word64 := by
      unfold word64
      omega
    have sign : -(n.natAbs : Int) = n := by omega
    simp only [Literal.number?, value, decide_eq_true negative, List.isEmpty_nil,
      Option.isNone_none, Bool.and_self, if_true, if_pos word, sign]
  · have word : n.natAbs < word64 := by
      unfold word64
      omega
    have sign : (n.natAbs : Int) = n := by omega
    simp only [Literal.number?, value, decide_eq_false (Int.not_lt.mpr positive), List.isEmpty_nil,
      Option.isNone_none, Bool.and_self, if_true, Bool.false_eq_true, if_false, if_pos word, sign]

theorem scan_digitChar {d : Nat} (small : d < 10) (cs : List Char) :
    scan d.digitChar cs = scanNumber false (d.digitChar :: cs) := by
  interval_cases d <;> rfl

/-- The decimal text of an integer is one token. -/
theorem tokens_toString {n : Int} (fits : Within64 n) (spaces : ∀ c ∈ after, isSpace c = true) :
    tokens ((toString n).toList ++ after) = [.number (some (.int n))] := by
  have number := number?_decimalDigits fits
  rw [toList_toString]
  rcases Int.lt_or_le n 0 with negative | positive
  · have scanned : scan '-' (Nat.toDigits 10 n.natAbs ++ after) =
        (.number (some (.int n)), after) := by
      rw [← number, decide_eq_true negative]
      exact scanNumber_decimalDigits true _ spaces
    rw [if_pos negative, List.cons_append, List.nil_append, List.cons_append, tokens,
      if_neg (by decide), scanned, tokens_of_isSpace spaces]
  · obtain ⟨d, ds, digits⟩ := List.exists_cons_of_ne_nil (decimalDigits_ne_nil n.natAbs)
    have small : d < 10 := lt_of_mem_decimalDigits (digits ▸ List.mem_cons_self)
    have written : Nat.toDigits 10 n.natAbs = d.digitChar :: ds.map Nat.digitChar := by
      rw [toDigits_eq_map, digits, List.map_cons]
    have scanned : scan d.digitChar (ds.map Nat.digitChar ++ after) =
        (.number (some (.int n)), after) := by
      rw [← number, decide_eq_false (Int.not_lt.mpr positive), scan_digitChar small,
        ← List.cons_append, ← written]
      exact scanNumber_decimalDigits false _ spaces
    have solid : ¬isSpace d.digitChar = true := by interval_cases d <;> decide
    rw [if_neg (Int.not_lt.mpr positive), List.nil_append, written, List.cons_append, tokens,
      if_neg solid, scanned, tokens_of_isSpace spaces]

/-- A text that holds the decimal text of an integer is read as that integer, nothing is left. -/
theorem ofText_toString {n : Int} (fits : Within64 n) {text before after : String}
    (is : text = before ++ toString n ++ after) (spaces : ∀ c ∈ before.toList, isSpace c = true)
    (spaces' : ∀ c ∈ after.toList, isSpace c = true) : ofText text = (.number (.int n), false) := by
  have one : tokens text.toList = [.number (some (.int n))] := by
    rw [is, String.toList_append, String.toList_append, List.append_assoc,
      tokens_append_of_isSpace spaces, tokens_toString fits spaces']
  rw [ofText, one]
  rfl

end Json

end Overworld
