import Overworld.Format.Expression
import Overworld.Proofs.RoundTrip
import Overworld.Proofs.Simulation.Scenes
import Overworld.Proofs.Spellings

/-!
The readings of values.

A value is its text, and whatever is read from it is read from that text. So its truth and its
integer go together for every text (`Value.flag_eq_true_iff`), every spelling of an integer reads as
that integer, clamped to 32 bits (`Value.ReadsAs`), and an integer in a file becomes the value of
its decimal text. But values are compared by their texts, and so are the sides of a condition: two
spellings of the same integer are different values.
-/

namespace Overworld

open Number Text

/-! ### Truth and integer -/

namespace Value

variable {v w : Value} {n : Int}

/-- A text that writes no number reads as zero, but for `true`. -/
theorem int_of_read?_eq_none {core : List Char} (trimmed : trimChars v.text.toList = core)
    (unread : Decimal.read? core = none) :
    v.int = if core = ['t', 'r', 'u', 'e'] then 1 else 0 := by
  unfold int
  simp only [trimmed, unread]

/-- The truth of a value is that of its integer, also for the texts that write no number. -/
theorem flag_eq_true_iff (v : Value) : v.flag = true ↔ v.int ≠ 0 := by
  unfold flag
  split
  · rename_i trimmed
    simp [int_of_read?_eq_none trimmed rfl]
  · rename_i trimmed
    simp [int_of_read?_eq_none trimmed rfl]
  · rename_i trimmed
    simp [int_of_read?_eq_none trimmed rfl]
  · exact bne_iff_ne

/-- A value that reads as a whole number, as far as 32 bits go. -/
structure ReadsAs (v : Value) (n : Int) : Prop where
  int : v.int = clamped n
  flag : v.flag = true ↔ n ≠ 0

/-- Every spelling of a whole number that is not beyond the doubles reads as that number. -/
theorem readsAs_of_spells (spells : Spells v.text n) (small : n.natAbs < doubleLimit) :
    v.ReadsAs n := by
  obtain ⟨core, trims, signed⟩ := spells
  obtain ⟨d, read, whole⟩ := signed.whole?_eq small
  have int : v.int = clamped n := by
    unfold Value.int
    rw [trims.trimChars_eq]
    simp only [read, whole, Option.getD_some]
  exact ⟨int, by rw [flag_eq_true_iff, int, ne_eq, clamped_eq_zero_iff]⟩

/-- Two values are the same if their texts are. -/
theorem text_inj : v.text = w.text ↔ v = w := by
  cases v
  cases w
  rw [mk.injEq]

end Value

/-! ### Conditions -/

namespace Play.Reads

theorem textOf (e : Expression) : Reads (Play.textOf e) fun vars => e.text vars :=
  (valueOf e).bind fun _ => .pure _

theorem conditionHolds (c : Condition) : Reads (Play.conditionHolds c) fun vars => c.holds vars :=
  (textOf c.left).bind fun _ => (textOf c.right).bind fun _ => .pure _

theorem allHold (conditions : List Condition) :
    Reads (Play.allHold conditions) fun vars => conditions.all (·.holds vars) := by
  induction conditions with
  | nil => exact .pure _
  | cons c conditions ih =>
    have next (b : Bool) : Reads (if b then Play.allHold conditions else Pure.pure false)
        fun vars => b && conditions.all (·.holds vars) := by
      cases b with
      | false => exact .pure _
      | true => exact ih
    exact (conditionHolds c).bind next

end Play.Reads

/-- A condition compares the texts of its sides as asked. -/
def Condition.Compares (c : Condition) (vars : Variables) : Prop :=
  match c.comparison with
  | .equal => c.left.text vars = c.right.text vars
  | .different => c.left.text vars ≠ c.right.text vars

theorem Condition.holds_eq_true_iff {c : Condition} {vars : Variables} :
    c.holds vars = true ↔ c.Compares vars := by
  unfold holds Compares Comparison.holds
  cases c.comparison with
  | equal => exact beq_iff_eq
  | different => exact bne_iff_ne

/-- Sides that have values compare as these values do. -/
theorem Condition.compares_iff {c : Condition} {vars : Variables} {v w : Value}
    (left : c.left.value? vars = some v) (right : c.right.value? vars = some w) :
    c.Compares vars ↔ (c.comparison = .equal ↔ v = w) := by
  have texts : c.left.text vars = c.right.text vars ↔ v = w := by
    rw [Expression.text, Expression.text, left, right, Option.map_some, Option.map_some,
      Option.getD_some, Option.getD_some, Value.text_inj]
  unfold Compares
  cases c.comparison <;> simp [texts]

/-- A branch goes on with its first list if all conditions compare as asked, and with its second
list otherwise. -/
theorem Play.enact_branch (game : Game) (inFrame : Bool) (conditions : List Condition)
    (yes no : Handle) (s : Session) :
    ∃ notices list, enact game inFrame (.branch conditions yes no) s =
        .ok (some (list, inFrame)) { s with notices := notices } ∧
      ((∀ c ∈ conditions, c.Compares s.vars) ∧ list = yes ∨
        (¬∀ c ∈ conditions, c.Compares s.vars) ∧ list = no) := by
  obtain ⟨notices, held⟩ := Reads.allHold conditions s
  have all : conditions.all (·.holds s.vars) = true ↔ ∀ c ∈ conditions, c.Compares s.vars := by
    simp only [List.all_eq_true, Condition.holds_eq_true_iff]
  refine ⟨notices, if conditions.all (·.holds s.vars) then yes else no, ?_, ?_⟩
  · rw [enact, bind_apply, held]
    dsimp only
    split <;> rfl
  · rw [← all]
    cases conditions.all (·.holds s.vars) <;> simp

/-! ### Integers as values -/

namespace Value

variable {n : Int}

/-- Zeros in front of an integer do not matter to its value. -/
theorem readsAs_padded (fits : Within64 n) (zeros : Nat) : ReadsAs ⟨padded zeros n⟩ n := by
  have bare : (padded zeros n).toList = [] ++ (padded zeros n).toList ++ [] :=
    (List.append_nil _).symm
  exact readsAs_of_spells ((signed_padded zeros n).spells bare nofun nofun) fits.natAbs_lt

/-- Nor do blank characters around it. -/
theorem readsAs_blank (fits : Within64 n) {before after : String}
    (blank : ∀ c ∈ before.toList, isBlank c = true)
    (blank' : ∀ c ∈ after.toList, isBlank c = true) :
    ReadsAs ⟨before ++ toString n ++ after⟩ n := by
  have text : (before ++ toString n ++ after).toList =
      before.toList ++ (toString n).toList ++ after.toList := by
    rw [String.toList_append, String.toList_append]
  exact readsAs_of_spells ((signed_toString n).spells text blank blank') fits.natAbs_lt

theorem ofNumber_int (fits : Within64 n) : ofNumber (.int n) = .ofInt n := by
  have word : 2 * n < word64 := by
    obtain ⟨low, high⟩ := fits
    unfold word64
    omega
  exact if_pos word

theorem readWhole_toString (fits : Within64 n) {before after : String}
    (spaces : ∀ c ∈ before.toList, Json.isSpace c = true)
    (spaces' : ∀ c ∈ after.toList, Json.isSpace c = true) :
    Json.readWhole reader (before ++ toString n ++ after) = .ok (.ofInt n) := by
  rw [Json.readWhole, Json.ofText_toString fits rfl spaces spaces', ← ofNumber_int fits]
  rfl

theorem padded_inj {zeros zeros' : Nat} (same : padded zeros n = padded zeros' n) :
    zeros = zeros' := by
  have lengths := congrArg (fun text => text.toList.length) same
  simp only [toList_padded, List.length_append, List.length_replicate] at lengths
  omega

end Value

/-! ### The law of readings -/

/-- What is read from a value, and what it is compared by. -/
structure Value.Coherent (v : Value) : Prop where
  /-- Its text is kept as it was written in a file, and written back so. -/
  kept (place : Json.Place) : reader place (.string v.text) = .ok v ∧ v.toJson = .string v.text
  flag : v.flag = true ↔ v.int ≠ 0
  /-- It is the same as another value if their texts are the same, and then all readings are. -/
  same (w : Value) : v = w ↔ v.text = w.text
  readings (w : Value) : v = w ↔ v.text = w.text ∧ v.int = w.int ∧ v.flag = w.flag
  /-- Another text is another value for every condition, whatever is read from both. -/
  apart (w : Value) (other : v.text ≠ w.text) (vars : Variables) :
    ¬Condition.Compares ⟨.equal, .literal v, .literal w⟩ vars ∧
      Condition.Compares ⟨.different, .literal v, .literal w⟩ vars

/-- How an integer becomes a value, and what is read from it then. -/
structure Value.CarriesInteger (n : Int) : Prop where
  /-- A file that holds an integer holds the value of its decimal text, -/
  file {before after : String} (spaces : ∀ c ∈ before.toList, Json.isSpace c = true)
    (spaces' : ∀ c ∈ after.toList, Json.isSpace c = true) :
    Json.readWhole reader (before ++ toString n ++ after) = .ok (.ofInt n)
  /-- and so does every place in a file with an integer. -/
  place (place : Json.Place) : reader place (.ofInt n) = .ok (.ofInt n)
  value : (ofInt n).ReadsAs n
  /-- It is read from every text that spells it, -/
  spelled {v : Value} (spells : Spells v.text n) : v.ReadsAs n
  /-- so whatever blank characters stand around its decimal text, -/
  blank {before after : String} (blank : ∀ c ∈ before.toList, isBlank c = true)
    (blank' : ∀ c ∈ after.toList, isBlank c = true) : ReadsAs ⟨before ++ toString n ++ after⟩ n
  /-- and whatever zeros in front of its digits, but these make another value of it. -/
  zeros (zeros : Nat) :
    ReadsAs ⟨padded zeros n⟩ n ∧ (Value.mk (padded zeros n) = ofInt n ↔ zeros = 0)
  /-- An integer of 32 bits is read as it is. -/
  unclamped (within : Within32 n) : (ofInt n).int = n

/-- Conditions are decided by the texts of their sides alone. -/
structure Game.DecidesByTexts (game : Game) : Prop where
  condition (c : Condition) (s : Session) : ∃ notices holds,
    Play.conditionHolds c s = .ok holds { s with notices := notices } ∧
      (holds = true ↔ c.Compares s.vars)
  /-- Sides that have values are compared as values, -/
  values {c : Condition} {vars : Variables} {v w : Value} (left : c.left.value? vars = some v)
    (right : c.right.value? vars = some w) : c.Compares vars ↔ (c.comparison = .equal ↔ v = w)
  /-- and the list that a branch goes on with depends on nothing else. -/
  branch (inFrame : Bool) (conditions : List Condition) (yes no : Handle) (s : Session) :
    ∃ notices list, Play.enact game inFrame (.branch conditions yes no) s =
        .ok (some (list, inFrame)) { s with notices := notices } ∧
      ((∀ c ∈ conditions, c.Compares s.vars) ∧ list = yes ∨
        (¬∀ c ∈ conditions, c.Compares s.vars) ∧ list = no)

theorem Value.coherent (v : Value) : v.Coherent := by
  constructor
  case kept => exact fun _ => ⟨rfl, rfl⟩
  case flag => exact v.flag_eq_true_iff
  case same => exact fun w => text_inj.symm
  case readings =>
    intro w
    constructor
    · rintro rfl
      exact ⟨rfl, rfl, rfl⟩
    · exact fun same => text_inj.mp same.1
  case apart => exact fun w other vars => ⟨other, other⟩

theorem Value.carriesInteger {n : Int} (fits : Within64 n) : CarriesInteger n := by
  have value : (ofInt n).ReadsAs n := by
    have reads := readsAs_padded fits 0
    rwa [padded_zero] at reads
  constructor
  case file => exact readWhole_toString fits
  case place => exact fun _ => congrArg Except.ok (ofNumber_int fits)
  case value => exact value
  case spelled => exact fun spells => readsAs_of_spells spells fits.natAbs_lt
  case blank => exact readsAs_blank fits
  case zeros =>
    intro zeros
    refine ⟨readsAs_padded fits zeros, ?_⟩
    rw [ofInt, ← padded_zero, mk.injEq]
    exact ⟨padded_inj, fun none => none ▸ rfl⟩
  case unclamped => exact fun within => value.int.trans (clamped_eq_self within.1 within.2)

theorem Game.decidesByTexts (game : Game) : game.DecidesByTexts := by
  constructor
  case condition =>
    intro c s
    obtain ⟨notices, held⟩ := Play.Reads.conditionHolds c s
    exact ⟨notices, _, held, Condition.holds_eq_true_iff⟩
  case values => exact Condition.compares_iff
  case branch => exact Play.enact_branch game

/-- **Values are read coherently.** What is read from a value agrees for every text; an integer of
64 bits is read from its decimal text, also in a file; and values, and the sides of conditions, are
compared by their texts alone. -/
theorem readsCoherently (v : Value) (n : Int) (game : Game) :
    v.Coherent ∧ (Within64 n → Value.CarriesInteger n) ∧ game.DecidesByTexts :=
  ⟨v.coherent, Value.carriesInteger, game.decidesByTexts⟩

/-- The least integer of 64 bits, beside a five with a zero and blank characters around it. -/
theorem readsCoherently_least :
    let least : Int := -9223372036854775808
    let five : Value := ⟨"\u3000 05\n"⟩
    Within64 least ∧ Value.CarriesInteger least ∧ (Value.ofInt least).int = -2147483648 ∧
      five.Coherent ∧ five.int = 5 ∧ five.flag = true ∧ five ≠ .ofInt 5 := by
  intro least five
  have fits : Within64 least := ⟨by decide, by decide⟩
  have law := readsCoherently five least default
  exact ⟨fits, law.2.1 fits, by decide +kernel, law.1, by decide +kernel, by decide +kernel,
    by decide +kernel⟩

end Overworld
