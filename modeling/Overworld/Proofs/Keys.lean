import Mathlib.Data.List.Induction
import Overworld.Keyboard

/-!
What a keyboard says of its keys.

The keyboard remembers of a button whether it is down, and not which of its keys are. So a button is
held from the moment one of its keys goes down until any of them comes up, and pressed in a frame
when one of its keys went down while it was not held. As long as no key of a button comes up while
another one of it is down, that is what the keys themselves say; otherwise the button is let go too
soon, and the next repeat of the key that is still down presses it again.
-/

namespace Overworld

/-! ### What happens to a keyboard -/

/-- Something that happens to a keyboard: a key goes down, or repeats while it is down, or comes up,
or a frame begins. -/
inductive KeyEvent where
  | down (key : String)
  | up (key : String)
  | frame
deriving DecidableEq, Repr

namespace KeyEvent

/-- A key of a button goes down, or repeats. -/
def presses (b : Button) : KeyEvent → Prop
  | down key => Button.ofKey? key = some b
  | _ => False

/-- A key of a button comes up. -/
def releases (b : Button) : KeyEvent → Prop
  | up key => Button.ofKey? key = some b
  | _ => False

end KeyEvent

namespace Keyboard

/-- The keyboard after something that happens to it. -/
def step (keyboard : Keyboard) : KeyEvent → Keyboard
  | .down key => keyboard.keyDown key
  | .up key => keyboard.keyUp key
  | .frame => keyboard.frame.2

/-- An untouched keyboard after events. -/
def after (events : List KeyEvent) : Keyboard := events.foldl step untouched

/-- What the keyboard says of the buttons when a frame begins after events. -/
def snapshot (events : List KeyEvent) : ButtonStates := (after events).frame.1

theorem after_concat (events : List KeyEvent) (e : KeyEvent) :
    after (events ++ [e]) = (after events).step e := by
  simp [after, List.foldl_append]

end Keyboard

/-! ### Since when -/

/-- Something has begun among events, after those before it, and has not ended since. -/
def Since (begins : List KeyEvent → KeyEvent → Prop) (ends : KeyEvent → Prop)
    (events : List KeyEvent) : Prop :=
  ∃ earlier e later, events = earlier ++ e :: later ∧ begins earlier e ∧ ∀ x ∈ later, ¬ends x

section

variable {begins begins' : List KeyEvent → KeyEvent → Prop} {ends : KeyEvent → Prop}

theorem not_since_nil : ¬Since begins ends [] := by
  rintro ⟨earlier, e, later, is, -⟩
  simp at is

/-- With the last event something begins, or it goes on. -/
theorem since_concat {events : List KeyEvent} {e : KeyEvent} :
    Since begins ends (events ++ [e]) ↔ begins events e ∨ ¬ends e ∧ Since begins ends events := by
  constructor
  · rintro ⟨earlier, first, later, is, begun, lasts⟩
    rcases List.eq_nil_or_concat later with rfl | ⟨between, last, rfl⟩
    · obtain ⟨rfl, same⟩ := List.append_inj' is rfl
      cases same
      exact .inl begun
    · have split : events ++ [e] = (earlier ++ first :: between) ++ [last] := by simpa using is
      obtain ⟨rfl, same⟩ := List.append_inj' split rfl
      cases same
      exact .inr ⟨lasts e (by simp), earlier, first, between, rfl, begun, fun x mem =>
        lasts x (by simp [mem])⟩
  · rintro (begun | ⟨on, earlier, first, later, rfl, begun, lasts⟩)
    · exact ⟨events, e, [], rfl, begun, by simp⟩
    · refine ⟨earlier, first, later ++ [e], by simp, begun, fun x mem => ?_⟩
      rcases List.mem_append.mp mem with mem | mem
      · exact lasts x mem
      · cases List.mem_singleton.mp mem
        exact on

/-- It depends only on what begins after the events that there are. -/
theorem since_congr {events : List KeyEvent}
    (same : ∀ earlier e later, events = earlier ++ e :: later →
      (begins earlier e ↔ begins' earlier e)) :
    Since begins ends events ↔ Since begins' ends events := by
  constructor
  · rintro ⟨earlier, e, later, is, begun, lasts⟩
    exact ⟨earlier, e, later, is, (same earlier e later is).mp begun, lasts⟩
  · rintro ⟨earlier, e, later, is, begun, lasts⟩
    exact ⟨earlier, e, later, is, (same earlier e later is).mpr begun, lasts⟩

end

/-! ### What the keys say -/

/-- A key is down. -/
def KeyDown (key : String) : List KeyEvent → Prop :=
  Since (fun _ e => e = .down key) fun e => e = .up key

/-- Some key of a button is down. -/
def SomeKeyDown (b : Button) (events : List KeyEvent) : Prop :=
  ∃ key, Button.ofKey? key = some b ∧ KeyDown key events

/-- After the last frame the first of the keys of a button went down. -/
def FirstKeyWentDown (b : Button) : List KeyEvent → Prop :=
  Since (fun earlier e => e.presses b ∧ ¬SomeKeyDown b earlier) fun e => e = .frame

/-- No key of a button comes up while another one is down. -/
def Untangled (b : Button) (events : List KeyEvent) : Prop :=
  ∀ earlier key later, events = earlier ++ .up key :: later → Button.ofKey? key = some b →
    ∀ other, Button.ofKey? other = some b → KeyDown other earlier → other = key

/-- What the keyboard goes by: one of the keys of a button went down, and none came up since. -/
def HeldSince (b : Button) : List KeyEvent → Prop :=
  Since (fun _ e => e.presses b) fun e => e.releases b

/-- After the last frame a key of a button went down while the button was not held. -/
def PressedSince (b : Button) : List KeyEvent → Prop :=
  Since (fun earlier e => e.presses b ∧ ¬HeldSince b earlier) fun e => e = .frame

section

variable {b : Button} {key : String} {events : List KeyEvent} {e : KeyEvent}

theorem keyDown_concat :
    KeyDown key (events ++ [e]) ↔ e = .down key ∨ ¬e = .up key ∧ KeyDown key events := since_concat

theorem heldSince_concat :
    HeldSince b (events ++ [e]) ↔ e.presses b ∨ ¬e.releases b ∧ HeldSince b events := since_concat

theorem pressedSince_concat :
    PressedSince b (events ++ [e]) ↔
      (e.presses b ∧ ¬HeldSince b events) ∨ ¬e = .frame ∧ PressedSince b events := since_concat

theorem firstKeyWentDown_concat :
    FirstKeyWentDown b (events ++ [e]) ↔
      (e.presses b ∧ ¬SomeKeyDown b events) ∨ ¬e = .frame ∧ FirstKeyWentDown b events :=
  since_concat

end

namespace Untangled

variable {b : Button} {events : List KeyEvent} {e : KeyEvent}

theorem earlier {later : List KeyEvent} (h : Untangled b (events ++ later)) : Untangled b events :=
  fun before key after is => h before key (after ++ later) (by rw [is]; simp)

theorem last {key : String} (h : Untangled b (events ++ [.up key]))
    (bound : Button.ofKey? key = some b) {other : String} (bound' : Button.ofKey? other = some b)
    (isDown : KeyDown other events) : other = key :=
  h events key [] rfl bound other bound' isDown

end Untangled

/-! ### What the keyboard says -/

namespace Keyboard

variable (keyboard : Keyboard) (e : KeyEvent) (events : List KeyEvent) (b : Button)

/-- A button is down after an event that presses it, or if it was down and is not released. -/
theorem has_down_step :
    (keyboard.step e).down.has b ↔ e.presses b ∨ ¬e.releases b ∧ keyboard.down.has b := by
  cases e with
  | down key =>
    cases bound : Button.ofKey? key with
    | none => simp [step, keyDown, KeyEvent.presses, KeyEvent.releases, bound]
    | some button =>
      rcases eq_or_ne b button with rfl | other
      · simp [step, keyDown, KeyEvent.presses, bound]
      · simp [step, keyDown, KeyEvent.presses, KeyEvent.releases, bound, other, other.symm]
  | up key =>
    cases bound : Button.ofKey? key with
    | none => simp [step, keyUp, KeyEvent.presses, KeyEvent.releases, bound]
    | some button =>
      rcases eq_or_ne b button with rfl | other
      · simp [step, keyUp, KeyEvent.presses, KeyEvent.releases, bound]
      · simp [step, keyUp, KeyEvent.presses, KeyEvent.releases, bound, other, other.symm]
  | frame => simp [step, frame, KeyEvent.presses, KeyEvent.releases]

/-- It is pressed if an event presses it that was not down, until a frame begins. -/
theorem has_wentDown_step :
    (keyboard.step e).wentDown.has b ↔
      (e.presses b ∧ ¬keyboard.down.has b) ∨ ¬e = .frame ∧ keyboard.wentDown.has b := by
  cases e with
  | down key =>
    cases bound : Button.ofKey? key with
    | none => simp [step, keyDown, KeyEvent.presses, bound]
    | some button =>
      rcases eq_or_ne b button with rfl | other
      · cases isDown : keyboard.down.has b <;> simp [step, keyDown, KeyEvent.presses, bound, isDown]
      · cases isDown : keyboard.down.has button <;>
          simp [step, keyDown, KeyEvent.presses, bound, isDown, other, other.symm]
  | up key => cases bound : Button.ofKey? key <;> simp [step, keyUp, KeyEvent.presses, bound]
  | frame => simp [step, frame, KeyEvent.presses]

theorem has_down_after : (after events).down.has b ↔ HeldSince b events := by
  induction events using List.reverseRecOn with
  | nil => simp [after, untouched, HeldSince, not_since_nil]
  | append_singleton events e ih =>
    rw [after_concat, has_down_step, ih, heldSince_concat]

theorem has_wentDown_after : (after events).wentDown.has b ↔ PressedSince b events := by
  induction events using List.reverseRecOn with
  | nil => simp [after, untouched, PressedSince, not_since_nil]
  | append_singleton events e ih =>
    rw [after_concat, has_wentDown_step, ih, has_down_after, pressedSince_concat]

end Keyboard

/-! ### Where both agree -/

section

variable {b : Button} {events : List KeyEvent}

/-- A button has a key that is down after an event if the event presses it, or if a key that it does
not bring up was down. -/
theorem someKeyDown_concat {e : KeyEvent} :
    SomeKeyDown b (events ++ [e]) ↔
      e.presses b ∨ ∃ key, Button.ofKey? key = some b ∧ e ≠ .up key ∧ KeyDown key events := by
  simp only [SomeKeyDown, keyDown_concat]
  constructor
  · rintro ⟨key, bound, rfl | ⟨stays, isDown⟩⟩
    · exact .inl bound
    · exact .inr ⟨key, bound, stays, isDown⟩
  · rintro (pressed | ⟨key, bound, stays, isDown⟩)
    · cases e with
      | down key => exact ⟨key, pressed, .inl rfl⟩
      | up key => exact pressed.elim
      | frame => exact pressed.elim
    · exact ⟨key, bound, .inr ⟨stays, isDown⟩⟩

/-- A button that is held has a key that is down. -/
theorem someKeyDown_of_held (held : HeldSince b events) : SomeKeyDown b events := by
  induction events using List.reverseRecOn with
  | nil => exact (not_since_nil held).elim
  | append_singleton events e ih =>
    rw [heldSince_concat] at held
    rw [someKeyDown_concat]
    refine held.imp_right fun ⟨stays, held⟩ => ?_
    obtain ⟨key, bound, isDown⟩ := ih held
    refine ⟨key, bound, ?_, isDown⟩
    rintro rfl
    exact stays bound

/-- If the keys of a button do not get tangled, it is held as long as one of them is down. -/
theorem held_iff_someKeyDown (untangled : Untangled b events) :
    HeldSince b events ↔ SomeKeyDown b events := by
  refine ⟨someKeyDown_of_held, ?_⟩
  induction events using List.reverseRecOn with
  | nil => exact fun ⟨_, _, isDown⟩ => (not_since_nil isDown).elim
  | append_singleton events e ih =>
    rw [someKeyDown_concat, heldSince_concat]
    refine Or.imp_right fun ⟨key, bound, stays, isDown⟩ =>
      ⟨?_, ih untangled.earlier ⟨key, bound, isDown⟩⟩
    cases e with
    | up other =>
      intro bound'
      cases untangled.last bound' bound isDown
      exact stays rfl
    | down other => exact id
    | frame => exact id

theorem pressed_iff_firstKeyWentDown (untangled : Untangled b events) :
    PressedSince b events ↔ FirstKeyWentDown b events := by
  refine since_congr fun earlier e later is => ?_
  rw [is] at untangled
  rw [held_iff_someKeyDown untangled.earlier]

end

/-! ### The law of keys -/

/-- What a frame that begins after events is told of a button. -/
structure Keyboard.GoesByKeys (events : List KeyEvent) (b : Button) : Prop where
  held : (snapshot events).held.has b ↔ HeldSince b events
  pressed : (snapshot events).pressed.has b ↔ PressedSince b events
  /-- A button is not held without a key of it that is down. -/
  down (held : (snapshot events).held.has b) : SomeKeyDown b events
  /-- It is held with one and pressed with the first, as long as its keys do not get tangled. -/
  faithful (untangled : Untangled b events) :
    ((snapshot events).held.has b ↔ SomeKeyDown b events) ∧
      ((snapshot events).pressed.has b ↔ FirstKeyWentDown b events)

/-- **A button goes by its keys together.** Whatever happens to a keyboard, a button is held when
one of its keys went down and none of them came up since, and pressed when one of them went down
after the last frame while the button was not held. -/
theorem goesByKeys (events : List KeyEvent) (b : Button) : Keyboard.GoesByKeys events b := by
  have held : (Keyboard.snapshot events).held.has b ↔ HeldSince b events :=
    Keyboard.has_down_after events b
  have pressed : (Keyboard.snapshot events).pressed.has b ↔ PressedSince b events :=
    Keyboard.has_wentDown_after events b
  refine ⟨held, pressed, fun isHeld => someKeyDown_of_held (held.mp isHeld), fun untangled => ?_⟩
  exact ⟨held.trans (held_iff_someKeyDown untangled),
    pressed.trans (pressed_iff_firstKeyWentDown untangled)⟩

/-- Two keys for the way up are pressed, and one of them is let go after a frame. -/
def KeyEvent.tangle : List KeyEvent := [.down "KeyW", .down "ArrowUp", .frame, .up "KeyW"]

/-- A button is not always held with a key of it that is down: it is let go with the other one, and
a repeat of the one that is still down presses it again. -/
theorem not_always_held :
    ¬(∀ events b, ((Keyboard.snapshot events).held.has b ↔ SomeKeyDown b events) ∧
        ((Keyboard.snapshot events).pressed.has b ↔ FirstKeyWentDown b events)) ∧
      SomeKeyDown .up KeyEvent.tangle ∧
      (Keyboard.snapshot KeyEvent.tangle).held.has .up = false ∧
      ¬FirstKeyWentDown .up (KeyEvent.tangle ++ [.frame, .down "ArrowUp"]) ∧
      (Keyboard.snapshot (KeyEvent.tangle ++ [.frame, .down "ArrowUp"])).pressed.has .up := by
  have arrowDown : KeyDown "ArrowUp" KeyEvent.tangle :=
    ⟨[.down "KeyW"], .down "ArrowUp", [.frame, .up "KeyW"], rfl, rfl, by decide⟩
  have isDown : SomeKeyDown .up KeyEvent.tangle := ⟨"ArrowUp", rfl, arrowDown⟩
  have released : (Keyboard.snapshot KeyEvent.tangle).held.has .up = false := by decide
  have still : SomeKeyDown .up (KeyEvent.tangle ++ [.frame]) :=
    ⟨"ArrowUp", rfl, keyDown_concat.mpr (.inr ⟨nofun, arrowDown⟩)⟩
  have again : ¬FirstKeyWentDown .up ((KeyEvent.tangle ++ [.frame]) ++ [.down "ArrowUp"]) := by
    rw [firstKeyWentDown_concat, firstKeyWentDown_concat]
    rintro (⟨-, none⟩ | ⟨-, ⟨other, -⟩ | ⟨other, -⟩⟩)
    · exact none still
    · exact other
    · exact other rfl
  have pressed :
      (Keyboard.snapshot (KeyEvent.tangle ++ [.frame, .down "ArrowUp"])).pressed.has .up := by
    decide
  refine ⟨fun law => ?_, isDown, released, again, pressed⟩
  exact Bool.false_ne_true (released.symm.trans ((law _ _).1.mpr isDown))

end Overworld
