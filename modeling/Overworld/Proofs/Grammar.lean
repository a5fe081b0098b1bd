import Mathlib.Data.List.Forall2
import Overworld.InputScript
import Overworld.Proofs.Texts

/-!
The grammar of input scripts.

A script is a sequence of steps between commas, and each of them is read on its own
(`InputScript.readSteps_eq`). So a text is a script exactly if all its steps are steps of the
grammar (`InputScript.Step`), its frames are those of its steps one after the other, and otherwise
the error is the one of the first step that is none (`InputScript.Refused`).
-/

namespace Overworld

open Text Number

/-! ### Readings one after the other -/

section

variable {α β ε : Type} {f : α → Except ε β}

/-- All elements of a list can be read exactly if each of them can. -/
theorem mapM_eq_ok_iff {xs : List α} {ys : List β} :
    xs.mapM f = .ok ys ↔ List.Forall₂ (fun x y => f x = .ok y) xs ys := by
  induction xs generalizing ys with
  | nil =>
    rw [List.mapM_nil, List.forall₂_nil_left_iff]
    exact ⟨fun is => (Except.ok.inj is).symm, fun is => congrArg _ is.symm⟩
  | cons x xs ih =>
    rw [List.mapM_cons, List.forall₂_cons_left_iff]
    cases first : f x with
    | error e =>
      constructor
      · intro is
        exact nomatch is
      · rintro ⟨y, ys', is, -⟩
        exact nomatch is
    | ok y =>
      cases later : xs.mapM f with
      | error e =>
        constructor
        · intro is
          exact nomatch is
        · rintro ⟨y', ys', -, each, -⟩
          exact nomatch later.symm.trans (ih.mpr each)
      | ok ys' =>
        constructor
        · intro is
          exact ⟨y, ys', rfl, ih.mp later, (Except.ok.inj is).symm⟩
        · rintro ⟨y', ys'', is, each, rfl⟩
          cases is
          cases later.symm.trans (ih.mpr each)
          rfl

/-- Otherwise the first that cannot be read says why. -/
theorem mapM_eq_error_iff {xs : List α} {e : ε} :
    xs.mapM f = .error e ↔
      ∃ before x after, xs = before ++ x :: after ∧ (∀ y ∈ before, ∃ z, f y = .ok z) ∧
        f x = .error e := by
  induction xs with
  | nil =>
    constructor
    · intro is
      exact nomatch is
    · rintro ⟨before, x, after, is, -⟩
      simp at is
  | cons x xs ih =>
    rw [List.mapM_cons]
    cases first : f x with
    | error e' =>
      constructor
      · intro is
        cases is
        exact ⟨[], x, xs, rfl, List.forall_mem_nil _, first⟩
      · rintro ⟨_ | ⟨y, before⟩, x', after, is, fine, stops⟩
        · cases is
          rw [first] at stops
          exact congrArg _ (Except.error.inj stops)
        · cases is
          obtain ⟨z, ok⟩ := fine x List.mem_cons_self
          exact nomatch first.symm.trans ok
    | ok y =>
      have later : (Except.ok y >>= fun y => xs.mapM f >>= fun ys => pure (y :: ys)) =
          (.error e : Except ε (List β)) ↔ xs.mapM f = .error e := by
        change (xs.mapM f >>= fun ys => pure (y :: ys)) = .error e ↔ _
        cases xs.mapM f with
        | error e' => exact Iff.rfl
        | ok ys => exact ⟨nofun, nofun⟩
      rw [later, ih]
      constructor
      · rintro ⟨before, x', after, rfl, fine, stops⟩
        refine ⟨x :: before, x', after, rfl, ?_, stops⟩
        intro z mem
        rcases List.mem_cons.mp mem with rfl | mem
        · exact ⟨y, first⟩
        · exact fine z mem
      · rintro ⟨_ | ⟨z, before⟩, x', after, is, fine, stops⟩
        · cases is
          exact nomatch first.symm.trans stops
        · cases is
          exact ⟨before, x', after, rfl, fun w mem => fine w (List.mem_cons_of_mem _ mem), stops⟩

theorem exists_forall₂_iff {R : α → β → Prop} {xs : List α} :
    (∃ ys, List.Forall₂ R xs ys) ↔ ∀ x ∈ xs, ∃ y, R x y := by
  induction xs with
  | nil => simp
  | cons x xs ih =>
    rw [List.forall_mem_cons, ← ih]
    constructor
    · rintro ⟨_, _ | ⟨first, later⟩⟩
      exact ⟨⟨_, first⟩, _, later⟩
    · rintro ⟨⟨y, first⟩, ys, later⟩
      exact ⟨y :: ys, .cons first later⟩

end

/-! ### Buttons -/

/-- The names of a button in scripts. -/
def Button.GoesBy (b : Button) (word : String) : Prop :=
  word = b.name ∨ (b = .activate ∧ word = "a") ∨ (b = .cancel ∧ word = "b")

instance (b : Button) (word : String) : Decidable (b.GoesBy word) :=
  inferInstanceAs (Decidable (_ ∨ _))

/-- A text names a button, with blanks around it and in any case. -/
def Button.Token (token : List Char) (b : Button) : Prop :=
  ∃ word, Trims token word ∧ b.GoesBy (String.ofList (word.map Char.toLower))

namespace Button

theorem lookup_byName_eq_some_iff {word : String} {b : Button} :
    byName.lookup word = some b ↔ b.GoesBy word := by
  constructor
  · intro found
    obtain ⟨before, after, is, -⟩ := List.lookup_eq_some_iff.mp found
    have mem : (word, b) ∈ byName := by
      rw [is]
      simp
    have all : ∀ entry ∈ byName, entry.2.GoesBy entry.1 := by decide
    exact all _ mem
  · rintro (rfl | ⟨rfl, rfl⟩ | ⟨rfl, rfl⟩)
    · cases b <;> decide
    · decide
    · decide

theorem ofWord?_eq_some_iff {token : List Char} {b : Button} :
    ofWord? token = some b ↔ Token token b := by
  rw [ofWord?, lookup_byName_eq_some_iff]
  constructor
  · intro goes
    exact ⟨_, trims_trimChars token, goes⟩
  · rintro ⟨word, trims, goes⟩
    rwa [trims.trimChars_eq]

theorem ofWord?_trimChars (token : List Char) : ofWord? (trimChars token) = ofWord? token := by
  rw [ofWord?, ofWord?, trimChars_trimChars]

end Button

namespace InputScript

/-! ### The grammar of a step -/

/-- The steps of a text are its pieces between commas, trimmed, without those that are blank. -/
def StepsOf (cs : List Char) (steps : List (List Char)) : Prop :=
  ∃ pieces trimmed, Pieces ',' cs pieces ∧ List.Forall₂ Trims pieces trimmed ∧
    steps = trimmed.filter (· ≠ [])

/-- The word for a step that holds nothing, in any case. -/
def Idle (names : List Char) : Prop := names.map Char.toLower = ['i', 'd', 'l', 'e']

instance (names : List Char) : Decidable (Idle names) := inferInstanceAs (Decidable (_ = _))

/-- The name part of a step, and the buttons that it names. -/
inductive Names (names : List Char) : List Button → Prop where
  | idle (idle : Idle names) : Names names []
  | buttons {tokens : List (List Char)} {buttons : List Button} (pieces : Pieces '+' names tokens)
    (each : List.Forall₂ Button.Token tokens buttons) : Names names buttons

/-- The name part of a step, and its count if it has a colon. -/
inductive Parts (step : List Char) : List Char → Option (List Char) → Prop where
  | bare (plain : ':' ∉ step) : Parts step step none
  | counted {left right names count : List Char} (split : step = left ++ ':' :: right)
    (first : ':' ∉ left) (name : Trims left names) (trims : Trims right count) :
    Parts step names (some count)

/-- How many frames a count gives, one if there is none. -/
def Lasts : Option (List Char) → Nat → Prop
  | none, frames => frames = 1
  | some count, frames => Count count frames

/-- A step of the grammar holds some buttons for some frames. -/
inductive Step (step : List Char) (buttons : List Button) (frames : Nat) : Prop where
  | intro {names : List Char} {count : Option (List Char)} (parts : Parts step names count)
    (lasts : Lasts count frames) (named : Names names buttons)

/-- What is wrong with a step that is none of the grammar: its count if it has a bad one, or else its
name part if that is blank, or else its first name of no button. -/
inductive Refused (step : List Char) : InputScriptError → Prop where
  | count {names : List Char} {count : Option (List Char)} (parts : Parts step names count)
    (bad : ∀ frames, ¬Lasts count frames) : Refused step (.badCount (String.ofList step))
  | blank {count : Option (List Char)} {frames : Nat} (parts : Parts step [] count)
    (lasts : Lasts count frames) : Refused step (.malformedStep (String.ofList step))
  | button {names : List Char} {count : Option (List Char)} {frames : Nat}
    {known unknown : List (List Char)} {token name : List Char} (parts : Parts step names count)
    (lasts : Lasts count frames) (some : names ≠ []) (busy : ¬Idle names)
    (pieces : Pieces '+' names (known ++ token :: unknown))
    (fine : ∀ t ∈ known, ∃ b, Button.Token t b) (trims : Trims token name)
    (stray : ∀ b, ¬Button.Token token b) :
    Refused step (.unknownButton (String.ofList name) (String.ofList step))

/-! ### Reading names -/

section

variable {step names token left right : List Char} {buttons : List Button} {b : Button}
  {count : Option (List Char)} {frames : Nat} {e : InputScriptError}

/-- The buttons of a name part, or what is wrong with it. -/
def readNames (step names : List Char) : Except InputScriptError (List Button) :=
  if names.isEmpty then .error (.malformedStep (String.ofList step))
  else if Idle names then .ok []
  else (splitChars '+' names).mapM fun token => buttonNamed step (trimChars token)

theorem buttonNamed_eq_ok_iff : buttonNamed step (trimChars token) = .ok b ↔ Button.Token token b := by
  rw [buttonNamed, Button.ofWord?_trimChars, ← Button.ofWord?_eq_some_iff]
  cases Button.ofWord? token <;> simp

theorem buttonNamed_eq_error_iff :
    buttonNamed step (trimChars token) = .error e ↔
      (∀ b, ¬Button.Token token b) ∧
        e = .unknownButton (String.ofList (trimChars token)) (String.ofList step) := by
  simp only [buttonNamed, Button.ofWord?_trimChars, ← Button.ofWord?_eq_some_iff]
  cases Button.ofWord? token <;> simp [eq_comm]

theorem Idle.mem (idle : Idle names) {c : Char} (mem : c ∈ names) :
    c.toLower ∈ ['i', 'd', 'l', 'e'] := by
  rw [← idle]
  exact List.mem_map_of_mem mem

/-- The word for nothing has no blanks around it. -/
theorem Idle.trimChars_eq (idle : Idle names) : trimChars names = names := by
  have letters : ∀ c ∈ ['i', 'd', 'l', 'e'], 0x20 < c.toNat ∧ c.toNat < 0x85 := by simp
  have visible {c : Char} (mem : c ∈ names) : isBlank c = false := by
    obtain ⟨low, high⟩ := letters _ (idle.mem mem)
    rw [← isBlank_toLower, isBlank_eq_false low high]
  apply trimChars_eq_self
  · intro c is
    exact visible (List.mem_of_head? is)
  · intro c is
    exact visible (List.mem_of_getLast? is)

/-- The word for nothing names no button, and has no plus sign. -/
theorem Idle.not_names (idle : Idle names) {tokens : List (List Char)}
    (pieces : Pieces '+' names tokens) : ¬List.Forall₂ Button.Token tokens buttons := by
  have plain : '+' ∉ names := by
    intro mem
    have bad : Char.toLower '+' ∉ ['i', 'd', 'l', 'e'] := by decide
    exact bad (idle.mem mem)
  have one : [names] = tokens := by rw [← pieces.splitChars_eq, splitChars_of_not_mem plain]
  cases one
  intro each
  cases each with
  | cons first later =>
    have found := Button.ofWord?_eq_some_iff.mpr first
    rw [Button.ofWord?, idle.trimChars_eq, idle] at found
    have nobody : Button.byName.lookup (String.ofList ['i', 'd', 'l', 'e']) = none := by decide
    exact nomatch nobody.symm.trans found

theorem not_names_nil {tokens : List (List Char)} (pieces : Pieces '+' [] tokens) :
    ¬List.Forall₂ Button.Token tokens buttons := by
  have one : [[]] = tokens := splitChars_eq_iff.mpr pieces
  cases one
  intro each
  cases each with
  | cons first later =>
    have found := Button.ofWord?_eq_some_iff.mpr first
    have none : Button.ofWord? [] = .none := by decide
    exact nomatch none.symm.trans found

theorem readNames_eq_ok_iff : readNames step names = .ok buttons ↔ Names names buttons := by
  unfold readNames
  by_cases blank : names = []
  · subst blank
    constructor
    · intro is
      exact nomatch is
    · rintro (idle | ⟨pieces, each⟩)
      · exact nomatch idle
      · exact absurd each (not_names_nil pieces)
  · rw [if_neg (by simpa using blank)]
    by_cases idle : Idle names
    · rw [if_pos idle]
      constructor
      · intro is
        cases is
        exact .idle idle
      · rintro (_ | ⟨pieces, each⟩)
        · rfl
        · exact absurd each (idle.not_names pieces)
    · rw [if_neg idle, mapM_eq_ok_iff]
      simp only [buttonNamed_eq_ok_iff]
      constructor
      · intro each
        exact .buttons (splitChars_eq_iff.mp rfl) each
      · rintro (idle' | ⟨pieces, each⟩)
        · exact absurd idle' idle
        · rwa [pieces.splitChars_eq]

/-- A name part is bad if it is blank, or if one of its names is that of no button. -/
theorem readNames_eq_error_iff :
    readNames step names = .error e ↔
      (names = [] ∧ e = .malformedStep (String.ofList step)) ∨
        (names ≠ [] ∧ ¬Idle names ∧ ∃ known token unknown,
          Pieces '+' names (known ++ token :: unknown) ∧
            (∀ t ∈ known, ∃ b, Button.Token t b) ∧ (∀ b, ¬Button.Token token b) ∧
              e = .unknownButton (String.ofList (trimChars token)) (String.ofList step)) := by
  unfold readNames
  by_cases blank : names = []
  · simp [blank, eq_comm]
  · rw [if_neg (by simpa using blank)]
    by_cases idle : Idle names
    · simp [blank, idle]
    · rw [if_neg idle, mapM_eq_error_iff]
      simp only [buttonNamed_eq_ok_iff, buttonNamed_eq_error_iff, blank, idle, false_and, false_or,
        ne_eq, not_false_eq_true, true_and, splitChars_eq_iff]

/-! ### Reading steps -/

theorem exists_parts (step : List Char) : ∃ names count, Parts step names count := by
  by_cases colon : ':' ∈ step
  · obtain ⟨left, right, split, first⟩ := List.eq_append_cons_of_mem colon
    exact ⟨_, _, .counted split first (trims_trimChars left) (trims_trimChars right)⟩
  · exact ⟨step, none, .bare colon⟩

theorem lasts_iff : Lasts count frames ↔ count.elim (some 1) count? = some frames := by
  cases count with
  | none => exact ⟨fun is => congrArg some is.symm, fun is => (Option.some.inj is).symm⟩
  | some count => exact count?_eq_some_iff.symm

theorem Parts.nameAndCount_eq (parts : Parts step names count) :
    nameAndCount step = (names, count.elim (some 1) count?) := by
  have other {left : List Char} (plain : ':' ∉ left) : ∀ c ∈ left, (c != ':') = true := by
    intro c mem
    rw [bne_iff_ne]
    rintro rfl
    exact plain mem
  unfold nameAndCount
  cases parts with
  | bare plain =>
    have none : step.dropWhile (· != ':') = [] := by
      have past : (step ++ []).dropWhile (· != ':') = [] :=
        List.dropWhile_append_of_pos (other plain)
      rwa [List.append_nil] at past
    rw [none]
    rfl
  | @counted left right names count split first name trims =>
    subst split
    have after : (left ++ ':' :: right).dropWhile (· != ':') = ':' :: right := by
      rw [List.dropWhile_append_of_pos (other first)]
      rfl
    have before : (left ++ ':' :: right).takeWhile (· != ':') = left := by
      rw [List.takeWhile_append_of_pos (other first)]
      simp
    rw [after, before, name.trimChars_eq]
    change (names, count? (trimChars right)) = (names, count? count)
    rw [trims.trimChars_eq]

/-- A step is read by its count first, and then by its name part. -/
theorem Parts.readStep_eq (parts : Parts step names count) :
    readStep step =
      match count.elim (some 1) count? with
      | none => .error (.badCount (String.ofList step))
      | some frames => (readNames step names).map (·, frames) := by
  rw [readStep, parts.nameAndCount_eq]
  cases count.elim (some 1) count? with
  | none => rfl
  | some frames =>
    unfold readNames
    by_cases blank : names.isEmpty
    · simp [blank, Except.map]
    · by_cases idle : Idle names
      · have word : names.map Char.toLower = ['i', 'd', 'l', 'e'] := idle
        simp [blank, idle, word, Except.map]
      · have word : names.map Char.toLower ≠ ['i', 'd', 'l', 'e'] := idle
        simp only [if_neg blank, if_neg idle, if_neg word, List.mapM_map, Function.comp_def]
        cases (splitChars '+' names).mapM fun token => buttonNamed step (trimChars token) <;> rfl

theorem readStep_eq_ok_iff : readStep step = .ok (buttons, frames) ↔ Step step buttons frames := by
  constructor
  · intro is
    obtain ⟨names, count, parts⟩ := exists_parts step
    rw [parts.readStep_eq] at is
    cases lasts : count.elim (some 1) count? with
    | none => simp [lasts] at is
    | some n =>
      cases named : readNames step names with
      | error e => simp [lasts, named, Except.map] at is
      | ok found =>
        simp only [lasts, named, Except.map] at is
        cases is
        exact ⟨parts, lasts_iff.mpr lasts, readNames_eq_ok_iff.mp named⟩
  · rintro ⟨parts, lasts, named⟩
    rw [parts.readStep_eq, lasts_iff.mp lasts]
    simp [readNames_eq_ok_iff.mpr named, Except.map]

theorem readStep_eq_error_iff : readStep step = .error e ↔ Refused step e := by
  constructor
  · intro is
    obtain ⟨names, count, parts⟩ := exists_parts step
    rw [parts.readStep_eq] at is
    cases lasts : count.elim (some 1) count? with
    | none =>
      simp only [lasts] at is
      cases is
      apply Refused.count parts
      intro frames good
      exact nomatch lasts.symm.trans (lasts_iff.mp good)
    | some n =>
      have good := lasts_iff.mpr lasts
      cases named : readNames step names with
      | ok found => simp [lasts, named, Except.map] at is
      | error e' =>
        simp only [lasts, named, Except.map] at is
        cases is
        rcases readNames_eq_error_iff.mp named with
          ⟨rfl, rfl⟩ | ⟨some, busy, known, token, unknown, pieces, fine, stray, rfl⟩
        · exact .blank parts good
        · exact .button parts good some busy pieces fine (trims_trimChars token) stray
  · rintro (⟨parts, bad⟩ | ⟨parts, lasts⟩ | ⟨parts, lasts, some, busy, pieces, fine, trims, stray⟩)
    · have none : Option.elim _ (Option.some 1) count? = .none :=
        Option.eq_none_iff_forall_ne_some.mpr fun frames is => bad frames (lasts_iff.mpr is)
      rw [parts.readStep_eq, none]
    · rw [parts.readStep_eq, lasts_iff.mp lasts]
      simp [readNames_eq_error_iff.mpr (.inl ⟨rfl, rfl⟩), Except.map]
    · rw [parts.readStep_eq, lasts_iff.mp lasts]
      have wrong : readNames step _ = .error _ := readNames_eq_error_iff.mpr
        (.inr ⟨some, busy, _, _, _, pieces, fine, stray, rfl⟩)
      simp [wrong, trims.trimChars_eq, Except.map]

end

/-! ### Reading scripts -/

theorem steps_eq_iff {cs : List Char} {found : List (List Char)} :
    steps cs = found ↔ StepsOf cs found := by
  have keeps : (fun step : List Char => !step.isEmpty) = fun step => decide (step ≠ []) := by
    funext step
    cases step <;> rfl
  have trimmed_iff {pieces trimmed : List (List Char)} :
      pieces.map trimChars = trimmed ↔ List.Forall₂ Trims pieces trimmed := by
    have each : Trims = fun piece core => trimChars piece = core := by
      funext piece core
      rw [trimChars_eq_iff]
    rw [each, ← List.forall₂_map_left_iff (R := (· = ·)), List.forall₂_eq_eq_eq]
  rw [steps, keeps]
  constructor
  · rintro rfl
    exact ⟨_, _, splitChars_eq_iff.mp rfl, trimmed_iff.mp rfl, rfl⟩
  · rintro ⟨pieces, trimmed, are, each, rfl⟩
    rw [are.splitChars_eq, trimmed_iff.mpr each]

theorem steps_append (first second : List Char) :
    steps (first ++ ',' :: second) = steps first ++ steps second := by
  rw [steps, splitChars_append, List.map_append, List.filter_append, steps, steps]

/-- The script of some sets of buttons, each held for a number of frames. -/
def ofHolds (holds : List (List Button × Nat)) : InputScript :=
  ⟨(holds.flatMap fun held => List.replicate held.2 held.1).toArray⟩

theorem readSteps_eq (script : InputScript) (steps : List (List Char)) :
    readSteps script steps =
      (steps.mapM readStep).map fun holds => ⟨script.frames ++ (ofHolds holds).frames⟩ := by
  induction steps generalizing script with
  | nil => simp [readSteps, ofHolds, Except.map, pure, Except.pure]
  | cons step steps ih =>
    rw [readSteps, List.mapM_cons]
    cases readStep step with
    | error e => rfl
    | ok held =>
      change readSteps (script.hold held.1 held.2) steps = _
      rw [ih]
      cases later : steps.mapM readStep with
      | error e => rfl
      | ok holds =>
        simp [ofHolds, hold, Except.map, pure, Except.pure, bind, Except.bind, ← List.toArray_replicate]

/-- The steps of a text are read each on its own. -/
theorem read_eq (text : String) :
    read text = ((steps text.toList).mapM readStep).map ofHolds := by
  simp [read, readSteps_eq, empty]

theorem read_eq_ok_iff {text : String} {script : InputScript} :
    read text = .ok script ↔
      ∃ holds, List.Forall₂ (fun step held => Step step held.1 held.2) (steps text.toList) holds ∧
        script = ofHolds holds := by
  have each (holds : List (List Button × Nat)) : (steps text.toList).mapM readStep = .ok holds ↔
      List.Forall₂ (fun step held => Step step held.1 held.2) (steps text.toList) holds := by
    simp only [mapM_eq_ok_iff, ← readStep_eq_ok_iff]
  simp only [read_eq, ← each]
  cases (steps text.toList).mapM readStep <;> simp [Except.map, eq_comm]

theorem read_eq_error_iff {text : String} {e : InputScriptError} :
    read text = .error e ↔
      ∃ earlier step later, steps text.toList = earlier ++ step :: later ∧
        (∀ s ∈ earlier, ∃ buttons frames, Step s buttons frames) ∧ Refused step e := by
  have first : read text = .error e ↔ (steps text.toList).mapM readStep = .error e := by
    rw [read_eq]
    cases (steps text.toList).mapM readStep <;> simp [Except.map]
  simp only [first, mapM_eq_error_iff, readStep_eq_error_iff, ← readStep_eq_ok_iff, Prod.exists]

/-- Two texts with a comma between them are read one after the other. -/
theorem read_append (text other : String) :
    read (text ++ "," ++ other) = do
      let script ← read text
      let rest ← read other
      return ⟨script.frames ++ rest.frames⟩ := by
  have comma : (text ++ "," ++ other).toList = text.toList ++ ',' :: other.toList := by
    simp [String.toList_append]
  rw [read_eq, comma, steps_append, List.mapM_append, read_eq, read_eq]
  cases (steps text.toList).mapM readStep with
  | error e => rfl
  | ok holds =>
    cases (steps other.toList).mapM readStep with
    | error e => rfl
    | ok holds' => simp [ofHolds, Except.map, pure, Except.pure, bind, Except.bind]

/-- A text is read by the grammar of scripts. -/
structure ReadsByGrammar (text : String) : Prop where
  /-- Its steps are the trimmed pieces between its commas, without the blank ones. -/
  steps {found : List (List Char)} : steps text.toList = found ↔ StepsOf text.toList found
  /-- It is a script if and only if each of them is a step of the grammar. -/
  accepted : (∃ script, read text = .ok script) ↔
    ∀ step ∈ InputScript.steps text.toList, ∃ buttons frames, Step step buttons frames
  /-- The script then holds the buttons of each step for its count of frames, step after step. -/
  result {script : InputScript} : read text = .ok script ↔
    ∃ holds, List.Forall₂ (fun step held => Step step held.1 held.2)
      (InputScript.steps text.toList) holds ∧ script = ofHolds holds
  /-- Otherwise the error is that of the first step that is none. -/
  refused {e : InputScriptError} : read text = .error e ↔
    ∃ earlier step later, InputScript.steps text.toList = earlier ++ step :: later ∧
      (∀ s ∈ earlier, ∃ buttons frames, Step s buttons frames) ∧ Refused step e
  /-- With a comma and another text after it, it is read before the other one, and the frames of
  both follow one another. -/
  joined (other : String) : read (text ++ "," ++ other) = do
    let script ← read text
    let rest ← read other
    return ⟨script.frames ++ rest.frames⟩

/-- **Scripts are read by their grammar**: every text is, whatever its blanks, cases, colons, plus
signs and commas. -/
theorem readsByGrammar (text : String) : ReadsByGrammar text := by
  constructor
  case steps => exact steps_eq_iff
  case accepted =>
    have held (step : List Char) : (∃ buttons frames, Step step buttons frames) ↔
        ∃ held : List Button × Nat, Step step held.1 held.2 := Prod.exists'.symm
    simp only [read_eq_ok_iff, held, ← exists_forall₂_iff]
    constructor
    · rintro ⟨script, holds, each, -⟩
      exact ⟨holds, each⟩
    · rintro ⟨holds, each⟩
      exact ⟨_, holds, each, rfl⟩
  case result => exact read_eq_ok_iff
  case refused => exact read_eq_error_iff
  case joined => exact read_append text

/-- Blanks and cases do not matter, a blank step counts for nothing, and one without a count lasts
for one frame. -/
example : (read " right:2, ,IDLE, a + Up : +1").toOption.map (·.frames.toList) =
    some [[.right], [.right], [], [.activate, .up]] := by cbv

/-- A bad count comes before the name that is missing. -/
example : read "up, :x, jump" = .error (.badCount ":x") := by cbv

end InputScript

end Overworld
