import Mathlib.Data.Nat.Digits.Defs
import Overworld.Number.Decimal
import Overworld.Text.Blank

/-!
Texts taken apart.

What trimming, splitting and reading a count give is said here without them: a text without the blank
characters around it (`Text.Trims`), the pieces of a text between separators (`Text.Pieces`), and the
number that digits write (`Number.Numeral`, `Number.Count`). Each of these determines the other side,
and the functions that take texts apart compute it.
-/

namespace Overworld

namespace Text

/-! ### Trimming -/

/-- A text is another one with blank characters around it, which itself neither begins nor ends with
one. -/
structure Trims (cs core : List Char) : Prop where
  padded : ∃ before after, cs = before ++ core ++ after ∧
    (∀ c ∈ before, isBlank c = true) ∧ ∀ c ∈ after, isBlank c = true
  first : ∀ c, core.head? = some c → isBlank c = false
  last : ∀ c, core.getLast? = some c → isBlank c = false

/-- Blank characters before a text that does not begin with one are dropped, and no others. -/
theorem dropWhile_isBlank {before rest : List Char} (blank : ∀ c ∈ before, isBlank c = true)
    (first : ∀ c, rest.head? = some c → isBlank c = false) :
    (before ++ rest).dropWhile isBlank = rest := by
  rw [List.dropWhile_append_of_pos blank]
  cases rest with
  | nil => rfl
  | cons c rest => exact List.dropWhile_cons_of_neg (by simp [first c rfl])

theorem isBlank_of_mem_takeWhile {cs : List Char} {c : Char} (mem : c ∈ cs.takeWhile isBlank) :
    isBlank c = true :=
  List.all_eq_true.mp List.all_takeWhile c mem

theorem head?_dropWhile_isBlank {cs : List Char} {c : Char}
    (is : (cs.dropWhile isBlank).head? = some c) : isBlank c = false := by
  have stops := List.head?_dropWhile_not isBlank cs
  rw [is] at stops
  simpa using stops

/-- No printable character of ASCII is blank. -/
theorem isBlank_eq_false {c : Char} (low : 0x20 < c.toNat) (high : c.toNat < 0x85) :
    isBlank c = false := by
  simp only [isBlank, blankRanges, List.any_cons, List.any_nil, Bool.or_eq_false_iff,
    Bool.and_eq_false_iff, decide_eq_false_iff_not, and_true]
  omega

/-- The case of a letter does not matter for it. -/
theorem isBlank_toLower (c : Char) : isBlank c.toLower = isBlank c := by
  unfold Char.toLower
  split
  · rename_i upper
    have bounds : 65 ≤ c.toNat ∧ c.toNat ≤ 90 := upper
    have lower : (c.val + ('a'.val - 'A'.val)).toNat = c.toNat + 32 := by
      rw [UInt32.toNat_add]
      change (c.toNat + 32) % _ = _
      omega
    rw [isBlank_eq_false, isBlank_eq_false (by omega) (by omega)]
    · change 0x20 < (c.val + ('a'.val - 'A'.val)).toNat
      omega
    · change (c.val + ('a'.val - 'A'.val)).toNat < 0x85
      omega
  · rfl

theorem trims_trimChars (cs : List Char) : Trims cs (trimChars cs) := by
  have split : cs = cs.takeWhile isBlank ++ trimChars cs ++
      ((cs.dropWhile isBlank).reverse.takeWhile isBlank).reverse := by
    rw [trimChars, List.append_assoc, ← List.reverse_append, List.takeWhile_append_dropWhile,
      List.reverse_reverse, List.takeWhile_append_dropWhile]
  constructor
  case padded =>
    refine ⟨_, _, split, fun c mem => isBlank_of_mem_takeWhile mem, ?_⟩
    intro c mem
    exact isBlank_of_mem_takeWhile (List.mem_reverse.mp mem)
  case first =>
    intro c is
    have rest : cs.dropWhile isBlank = trimChars cs ++
        ((cs.dropWhile isBlank).reverse.takeWhile isBlank).reverse := by
      rw [trimChars, ← List.reverse_append, List.takeWhile_append_dropWhile, List.reverse_reverse]
    have begins : (cs.dropWhile isBlank).head? = some c := by
      rw [rest, List.head?_append, is, Option.some_or]
    exact head?_dropWhile_isBlank begins
  case last =>
    intro c is
    rw [trimChars, List.getLast?_reverse] at is
    exact head?_dropWhile_isBlank is

theorem Trims.trimChars_eq {cs core : List Char} (trims : Trims cs core) : trimChars cs = core := by
  obtain ⟨⟨before, after, rfl, blank, blank'⟩, first, last⟩ := trims
  cases core with
  | nil =>
    have all : ∀ c ∈ before ++ [] ++ after, isBlank c = true := by
      intro c mem
      rcases List.mem_append.mp mem with mem | mem
      · exact blank c (List.append_nil before ▸ mem)
      · exact blank' c mem
    have none : (before ++ [] ++ after ++ []).dropWhile isBlank = [] := dropWhile_isBlank all nofun
    rw [List.append_nil] at none
    rw [trimChars, none]
    rfl
  | cons c core =>
    have front : (before ++ (c :: core) ++ after).dropWhile isBlank = (c :: core) ++ after := by
      rw [List.append_assoc]
      exact dropWhile_isBlank blank first
    have back : ((c :: core) ++ after).reverse.dropWhile isBlank = (c :: core).reverse := by
      rw [List.reverse_append]
      refine dropWhile_isBlank (fun c mem => blank' c (List.mem_reverse.mp mem)) fun d is => ?_
      rw [List.head?_reverse] at is
      exact last d is
    rw [trimChars, front, back, List.reverse_reverse]

/-- Trimming leaves what stands between the blank characters at both ends. -/
theorem trimChars_eq_iff {cs core : List Char} : trimChars cs = core ↔ Trims cs core := by
  constructor
  · rintro rfl
    exact trims_trimChars cs
  · exact Trims.trimChars_eq

/-- There is nothing to trim from a text that neither begins nor ends with a blank character. -/
theorem trimChars_eq_self {cs : List Char} (first : ∀ c, cs.head? = some c → isBlank c = false)
    (last : ∀ c, cs.getLast? = some c → isBlank c = false) : trimChars cs = cs :=
  Trims.trimChars_eq ⟨⟨[], [], by simp, nofun, nofun⟩, first, last⟩

theorem trimChars_trimChars (cs : List Char) : trimChars (trimChars cs) = trimChars cs := by
  have trims := trims_trimChars cs
  exact trimChars_eq_self trims.first trims.last

/-! ### Splitting -/

/-- The pieces of a text between the occurrences of a separator. -/
structure Pieces (separator : Char) (cs : List Char) (pieces : List (List Char)) : Prop where
  some : pieces ≠ []
  apart : ∀ piece ∈ pieces, separator ∉ piece
  joined : List.intercalate [separator] pieces = cs

theorem splitChars_of_not_mem {separator : Char} {cs : List Char} (plain : separator ∉ cs) :
    splitChars separator cs = [cs] := by
  induction cs with
  | nil => rfl
  | cons c cs ih =>
    obtain ⟨other, plain⟩ := List.ne_and_not_mem_of_not_mem_cons plain
    simp [splitChars, Ne.symm other, ih plain]

theorem splitChars_append (separator : Char) (first second : List Char) :
    splitChars separator (first ++ separator :: second) =
      splitChars separator first ++ splitChars separator second := by
  induction first with
  | nil => simp [splitChars]
  | cons c first ih =>
    rw [List.cons_append, splitChars, splitChars, ih]
    by_cases is : c = separator
    · simp [is]
    · simp only [if_neg is]
      cases pieces : splitChars separator first with
      | nil => exact absurd pieces (splitChars_ne_nil separator first)
      | cons piece pieces => rfl

theorem not_mem_of_mem_splitChars {separator : Char} {cs piece : List Char}
    (mem : piece ∈ splitChars separator cs) : separator ∉ piece := by
  induction cs generalizing piece with
  | nil =>
    cases List.mem_singleton.mp mem
    exact List.not_mem_nil
  | cons c cs ih =>
    rw [splitChars] at mem
    by_cases is : c = separator
    · rw [if_pos is] at mem
      rcases List.mem_cons.mp mem with rfl | mem
      · exact List.not_mem_nil
      · exact ih mem
    · rw [if_neg is] at mem
      cases pieces : splitChars separator cs with
      | nil => exact absurd pieces (splitChars_ne_nil separator cs)
      | cons first pieces' =>
        rw [pieces] at mem ih
        rcases List.mem_cons.mp mem with rfl | mem
        · intro inside
          rcases List.mem_cons.mp inside with same | inside
          · exact is same.symm
          · exact ih List.mem_cons_self inside
        · exact ih (List.mem_cons_of_mem _ mem)

theorem Pieces.splitChars_eq {separator : Char} {cs : List Char} {pieces : List (List Char)}
    (are : Pieces separator cs pieces) : splitChars separator cs = pieces := by
  obtain ⟨some, apart, rfl⟩ := are
  induction pieces with
  | nil => exact absurd rfl some
  | cons piece pieces ih =>
    have plain := apart piece List.mem_cons_self
    cases pieces with
    | nil => rw [List.intercalate_singleton, splitChars_of_not_mem plain]
    | cons next pieces =>
      have later := ih (List.cons_ne_nil _ _) fun p mem => apart p (List.mem_cons_of_mem _ mem)
      rw [List.intercalate_cons_cons, List.append_assoc, List.singleton_append, splitChars_append,
        splitChars_of_not_mem plain, later, List.singleton_append]

/-- Splitting gives the pieces between the separators. -/
theorem splitChars_eq_iff {separator : Char} {cs : List Char} {pieces : List (List Char)} :
    splitChars separator cs = pieces ↔ Pieces separator cs pieces := by
  constructor
  · rintro rfl
    exact ⟨splitChars_ne_nil separator cs, fun _ => not_mem_of_mem_splitChars,
      intercalate_splitChars separator cs⟩
  · exact Pieces.splitChars_eq

end Text

namespace Number

/-! ### Counts -/

/-- A text of decimal digits, the highest one first, and the number that it writes. -/
def Numeral (cs : List Char) (n : Nat) : Prop :=
  ∃ digits, digits ≠ [] ∧ (∀ d ∈ digits, d < 10) ∧ cs = digits.map Nat.digitChar ∧
    n = Nat.ofDigits 10 digits.reverse

/-- The number of a text, of 64 bits and with an optional plus sign. -/
def Count (cs : List Char) (n : Nat) : Prop :=
  (∃ digits, (cs = digits ∨ cs = '+' :: digits) ∧ Numeral digits n) ∧ n < word64

theorem ofDigits_eq (digits : List Nat) : ofDigits digits = Nat.ofDigits 10 digits.reverse := by
  rw [Nat.ofDigits_eq_foldr, List.foldr_reverse, ofDigits]
  congr 1
  funext n d
  simp [Nat.add_comm]

theorem toNat_digitChar {d : Nat} (small : d < 10) : d.digitChar.toNat = 48 + d := by
  have all : ∀ d < 10, d.digitChar.toNat = 48 + d := by decide
  exact all d small

theorem digit?_eq_some_iff {c : Char} {d : Nat} : digit? c = some d ↔ d < 10 ∧ c = d.digitChar := by
  have bounds : ('0' ≤ c ∧ c ≤ '9') ↔ 48 ≤ c.toNat ∧ c.toNat ≤ 57 := by
    rw [Char.le_def, Char.le_def, UInt32.le_iff_toNat_le, UInt32.le_iff_toNat_le]
    exact Iff.rfl
  have zero : '0'.toNat = 48 := rfl
  unfold digit?
  rw [zero]
  constructor
  · intro is
    split at is
    · rename_i inside
      obtain ⟨low, high⟩ := bounds.mp inside
      cases is
      refine ⟨by omega, Char.toNat_inj.mp ?_⟩
      rw [toNat_digitChar (by omega)]
      omega
    · exact nomatch is
  · rintro ⟨small, rfl⟩
    have place := toNat_digitChar small
    rw [if_pos (bounds.mpr (by omega)), place]
    congr 1
    omega

theorem takeDigits_eq_iff {cs : List Char} {digits : List Nat} :
    takeDigits cs = (digits, []) ↔ (∀ d ∈ digits, d < 10) ∧ cs = digits.map Nat.digitChar := by
  induction cs generalizing digits with
  | nil =>
    cases digits with
    | nil => simp [takeDigits]
    | cons d digits => simp [takeDigits]
  | cons c cs ih =>
    rw [takeDigits]
    cases is : digit? c with
    | none =>
      simp only [Prod.mk.injEq, reduceCtorEq, and_false, false_iff, not_and]
      intro small same
      cases digits with
      | nil => cases same
      | cons d digits =>
        have digit : digit? c = some d := digit?_eq_some_iff.mpr
          ⟨small d List.mem_cons_self, (List.cons.inj same).1⟩
        rw [is] at digit
        cases digit
    | some d =>
      obtain ⟨small, rfl⟩ := digit?_eq_some_iff.mp is
      cases digits with
      | nil => simp
      | cons d' digits =>
        rw [Prod.mk.injEq, List.cons.injEq, and_assoc, ← Prod.mk.injEq, Prod.mk.eta, ih,
          List.map_cons, List.cons.injEq, List.forall_mem_cons]
        constructor
        · rintro ⟨rfl, smalls, written⟩
          exact ⟨⟨small, smalls⟩, rfl, written⟩
        · rintro ⟨⟨small', smalls⟩, same, written⟩
          refine ⟨?_, smalls, written⟩
          have place := congrArg Char.toNat same
          rw [toNat_digitChar small, toNat_digitChar small'] at place
          omega

/-- Nothing but digits is a number. -/
theorem natural?_eq_some_iff {cs : List Char} {n : Nat} : natural? cs = some n ↔ Numeral cs n := by
  unfold natural? Numeral
  constructor
  · intro is
    split at is
    · exact nomatch is
    · rename_i digits some taken
      obtain ⟨small, written⟩ := takeDigits_eq_iff.mp taken
      cases is
      exact ⟨digits, some, small, written, ofDigits_eq digits⟩
    · exact nomatch is
  · rintro ⟨digits, some, small, written, rfl⟩
    have taken := takeDigits_eq_iff.mpr ⟨small, written⟩
    rw [taken, ← ofDigits_eq]
    cases digits with
    | nil => exact absurd rfl some
    | cons d digits => rfl

theorem not_numeral_plus {cs : List Char} {n : Nat} : ¬Numeral ('+' :: cs) n := by
  rintro ⟨digits, some, small, written, -⟩
  cases digits with
  | nil => exact some rfl
  | cons d digits =>
    have plus : 43 = d.digitChar.toNat := congrArg Char.toNat (List.cons.inj written).1
    rw [toNat_digitChar (small d List.mem_cons_self)] at plus
    omega

theorem filter_natural?_eq_some_iff {cs : List Char} {n : Nat} :
    (natural? cs).filter (· < word64) = some n ↔ Numeral cs n ∧ n < word64 := by
  rw [Option.filter_eq_some_iff, natural?_eq_some_iff, decide_eq_true_eq]

theorem count?_eq_some_iff {cs : List Char} {n : Nat} : count? cs = some n ↔ Count cs n := by
  unfold count? Count
  split
  · rename_i cs
    rw [filter_natural?_eq_some_iff]
    refine and_congr_left fun _ => ?_
    constructor
    · intro is
      exact ⟨cs, .inr rfl, is⟩
    · rintro ⟨digits, rfl | same, is⟩
      · exact absurd is not_numeral_plus
      · cases same
        exact is
  · rename_i other
    rw [filter_natural?_eq_some_iff]
    refine and_congr_left fun _ => ?_
    constructor
    · intro is
      exact ⟨cs, .inl rfl, is⟩
    · rintro ⟨digits, rfl | rfl, is⟩
      · exact is
      · exact absurd rfl (other digits)

end Number

end Overworld
