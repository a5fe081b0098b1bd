import Overworld.Proofs.Keys

/-!
Two ways to tell a press.

A keyboard notes each button as it goes down, and says so in the next frame. A script only knows
which buttons are down in each frame, and compares it with those of the frame before
(`ButtonStates.derived`). Both agree on what is held, and a press that is derived is always noted as
well; but a button that goes down and up again before a frame begins, or up and down again, is a
press for the keyboard alone. So they agree in everything as long as no button turns more than once
from one frame to the next, or before the first one.
-/

namespace Overworld

/-! ### From frame to frame -/

/-- The states of the buttons in one frame after the other, given those that are down in each. -/
def ButtonStates.derived (states : ButtonStates) : List (List Button) → List ButtonStates
  | [] => []
  | down :: downs => states.next down :: (states.next down).derived downs

namespace Keyboard

/-- The keyboard after events. -/
def run (keyboard : Keyboard) (events : List KeyEvent) : Keyboard := events.foldl step keyboard

/-- What the keyboard says in each frame that begins among events. -/
def snapshots (keyboard : Keyboard) : List KeyEvent → List ButtonStates
  | [] => []
  | .down key :: events => (keyboard.keyDown key).snapshots events
  | .up key :: events => (keyboard.keyUp key).snapshots events
  | .frame :: events => keyboard.frame.1 :: keyboard.frame.2.snapshots events

/-- The buttons that are down in each frame that begins among events. -/
def downs (keyboard : Keyboard) : List KeyEvent → List (List Button)
  | [] => []
  | .down key :: events => (keyboard.keyDown key).downs events
  | .up key :: events => (keyboard.keyUp key).downs events
  | .frame :: events => keyboard.down.toList :: keyboard.frame.2.downs events

/-- A button goes down with an event. -/
def Rises (keyboard : Keyboard) (e : KeyEvent) (b : Button) : Prop :=
  keyboard.down.has b = false ∧ (keyboard.step e).down.has b = true

/-- How often a button goes down or up with events. -/
def turns (keyboard : Keyboard) (b : Button) : List KeyEvent → Nat
  | [] => 0
  | e :: events =>
    (if (keyboard.step e).down.has b = keyboard.down.has b then 0 else 1) +
      (keyboard.step e).turns b events

/-- A button goes down with one of some events, after a number of frames among them. -/
def RisesAfter (keyboard : Keyboard) (b : Button) (frames : Nat) (events : List KeyEvent) : Prop :=
  ∃ earlier e later, events = earlier ++ e :: later ∧ earlier.count .frame = frames ∧
    (keyboard.run earlier).Rises e b

/-- Until the next frame begins, no button turns more than once. -/
def SteadyUntilFrame (keyboard : Keyboard) (events : List KeyEvent) : Prop :=
  ∀ stretch rest, events = stretch ++ .frame :: rest → .frame ∉ stretch →
    ∀ b, keyboard.turns b stretch ≤ 1

/-- From any frame to the next one, no button turns more than once. -/
def SteadyBetweenFrames (keyboard : Keyboard) (events : List KeyEvent) : Prop :=
  ∀ earlier rest, events = earlier ++ .frame :: rest →
    (keyboard.run (earlier ++ [.frame])).SteadyUntilFrame rest

end Keyboard

/-- What holds of events without a frame, and of events after a frame has begun if it holds of those
that follow, holds of all events. -/
theorem KeyEvent.induction_by_frames {P : List KeyEvent → Prop}
    (still : ∀ events, KeyEvent.frame ∉ events → P events)
    (frame : ∀ stretch rest, KeyEvent.frame ∉ stretch → P rest → P (stretch ++ .frame :: rest))
    (events : List KeyEvent) : P events := by
  by_cases mem : KeyEvent.frame ∈ events
  · obtain ⟨stretch, rest, is, first⟩ := List.eq_append_cons_of_mem mem
    have shorter : rest.length < events.length := by
      rw [is, List.length_append, List.length_cons]
      omega
    rw [is]
    exact frame stretch rest first (induction_by_frames still frame rest)
  · exact still events mem
termination_by events.length

/-! ### Sets of buttons and their lists -/

theorem ButtonSet.contains_toList (s : ButtonSet) (b : Button) : s.toList.contains b = s.has b := by
  rw [Bool.eq_iff_iff, List.contains_iff_mem, toList, List.mem_filter]
  exact and_iff_right (Button.mem_all b)

theorem ButtonStates.held_next_toList (states : ButtonStates) (s : ButtonSet) :
    (states.next s.toList).held = s := by
  apply ButtonSet.ext_has
  intro b
  rw [next, ButtonSet.has_ofList, ButtonSet.contains_toList]

theorem ButtonStates.pressed_next_toList (states : ButtonStates) (s : ButtonSet) (b : Button) :
    (states.next s.toList).pressed.has b ↔ s.has b ∧ states.held.has b = false := by
  rw [next, ButtonSet.has_ofTest, ButtonSet.contains_toList, Bool.and_eq_true, Bool.not_eq_true']

namespace Keyboard

variable {keyboard : Keyboard} {e : KeyEvent} {b : Button} {events stretch rest : List KeyEvent}

theorem run_append (keyboard : Keyboard) (earlier later : List KeyEvent) :
    keyboard.run (earlier ++ later) = (keyboard.run earlier).run later := List.foldl_append

theorem run_cons (keyboard : Keyboard) (e : KeyEvent) (events : List KeyEvent) :
    keyboard.run (e :: events) = (keyboard.step e).run events := rfl

theorem snapshots_cons (key : e ≠ .frame) :
    keyboard.snapshots (e :: events) = (keyboard.step e).snapshots events := by
  cases e with
  | down key => rfl
  | up key => rfl
  | frame => exact absurd rfl key

theorem snapshots_frame (keyboard : Keyboard) (events : List KeyEvent) :
    keyboard.snapshots (.frame :: events) =
      keyboard.frame.1 :: (keyboard.step .frame).snapshots events := rfl

theorem snapshots_append (still : KeyEvent.frame ∉ stretch) :
    keyboard.snapshots (stretch ++ rest) = (keyboard.run stretch).snapshots rest := by
  induction stretch generalizing keyboard with
  | nil => rfl
  | cons e stretch ih =>
    obtain ⟨key, later⟩ := List.ne_and_not_mem_of_not_mem_cons still
    rw [List.cons_append, snapshots_cons (Ne.symm key), run_cons]
    exact ih later

/-- Where no frame begins, nothing is said. -/
theorem snapshots_eq_nil (still : KeyEvent.frame ∉ events) : keyboard.snapshots events = [] := by
  have said : keyboard.snapshots (events ++ []) = [] := snapshots_append still
  rwa [List.append_nil] at said

/-- The buttons that are down are those that are said to be held. -/
theorem downs_eq (keyboard : Keyboard) (events : List KeyEvent) :
    keyboard.downs events = (keyboard.snapshots events).map (·.held.toList) := by
  induction events generalizing keyboard with
  | nil => rfl
  | cons e events ih =>
    cases e with
    | down key => exact ih _
    | up key => exact ih _
    | frame => exact congrArg _ (ih _)

/-! ### Noted presses -/

theorem rises_iff : keyboard.Rises e b ↔ e.presses b ∧ ¬keyboard.down.has b := by
  rw [Rises, has_down_step, Bool.not_eq_true]
  constructor
  · rintro ⟨up, pressed | ⟨-, down⟩⟩
    · exact ⟨pressed, up⟩
    · rw [up] at down
      cases down
  · rintro ⟨pressed, up⟩
    exact ⟨up, .inl pressed⟩

/-- A button is noted as it goes down, and stays noted until a frame begins. -/
theorem has_wentDown_step_iff :
    (keyboard.step e).wentDown.has b ↔
      keyboard.Rises e b ∨ e ≠ .frame ∧ keyboard.wentDown.has b := by
  rw [has_wentDown_step, rises_iff]

theorem has_down_frame (keyboard : Keyboard) (b : Button) :
    (keyboard.step .frame).down.has b = keyboard.down.has b := rfl

theorem not_rises_frame : ¬keyboard.Rises .frame b := by
  rintro ⟨up, down⟩
  rw [has_down_frame, up] at down
  cases down

/-- A press that can be derived when a frame begins has been noted. -/
theorem noted_of_derived (still : KeyEvent.frame ∉ stretch) (up : keyboard.down.has b = false)
    (down : (keyboard.run stretch).down.has b) : (keyboard.run stretch).wentDown.has b := by
  induction stretch using List.reverseRecOn with
  | nil =>
    rw [run, List.foldl_nil, up] at down
    cases down
  | append_singleton stretch e ih =>
    rw [run_append] at down ⊢
    have key : e ≠ .frame := by
      rintro rfl
      simp at still
    have before : KeyEvent.frame ∉ stretch := fun mem => still (List.mem_append_left _ mem)
    apply has_wentDown_step_iff.mpr
    by_cases already : (keyboard.run stretch).down.has b
    · exact .inr ⟨key, ih before already⟩
    · exact .inl ⟨Bool.eq_false_iff.mpr already, down⟩

/-- A button that does not turn stays as it is, noted or not. -/
theorem run_of_turns_eq_zero (still : KeyEvent.frame ∉ stretch)
    (turns : keyboard.turns b stretch = 0) :
    (keyboard.run stretch).down.has b = keyboard.down.has b ∧
      ((keyboard.run stretch).wentDown.has b ↔ keyboard.wentDown.has b) := by
  induction stretch generalizing keyboard with
  | nil => exact ⟨rfl, Iff.rfl⟩
  | cons e stretch ih =>
    obtain ⟨key, later⟩ := List.ne_and_not_mem_of_not_mem_cons still
    have stays : (keyboard.step e).down.has b = keyboard.down.has b := by
      by_contra turned
      rw [Keyboard.turns, if_neg turned] at turns
      omega
    rw [Keyboard.turns, if_pos stays, Nat.zero_add] at turns
    obtain ⟨down, noted⟩ := ih later turns
    have quiet : ¬keyboard.Rises e b := by
      rintro ⟨up, down⟩
      rw [stays, up] at down
      cases down
    rw [run_cons]
    refine ⟨down.trans stays, noted.trans ?_⟩
    rw [has_wentDown_step_iff]
    simp [quiet, Ne.symm key]

/-- A button that turns at most once is noted exactly if a press can be derived. -/
theorem noted_iff_derived (still : KeyEvent.frame ∉ stretch)
    (steady : keyboard.turns b stretch ≤ 1) (fresh : keyboard.wentDown.has b = false) :
    (keyboard.run stretch).wentDown.has b ↔
      (keyboard.run stretch).down.has b ∧ keyboard.down.has b = false := by
  refine ⟨fun noted => ?_, fun ⟨down, up⟩ => noted_of_derived still up down⟩
  induction stretch generalizing keyboard with
  | nil =>
    rw [run, List.foldl_nil, fresh] at noted
    cases noted
  | cons e stretch ih =>
    have later := (List.ne_and_not_mem_of_not_mem_cons still).2
    rw [run_cons] at noted ⊢
    rw [turns] at steady
    by_cases stays : (keyboard.step e).down.has b = keyboard.down.has b
    · rw [if_pos stays, Nat.zero_add] at steady
      have unnoted : (keyboard.step e).wentDown.has b = false := by
        rw [Bool.eq_false_iff, ne_eq, has_wentDown_step_iff, fresh, Rises, stays]
        simp
      have derived := ih later steady unnoted noted
      rwa [stays] at derived
    · rw [if_neg stays] at steady
      have once : (keyboard.step e).turns b stretch = 0 := by omega
      obtain ⟨down, same⟩ := run_of_turns_eq_zero later once
      rcases has_wentDown_step_iff.mp (same.mp noted) with ⟨up, risen⟩ | ⟨-, before⟩
      · exact ⟨down.trans risen, up⟩
      · rw [fresh] at before
        cases before

/-! ### Frames that agree -/

/-- Whatever happens, what is held is the same in every frame, and what is pressed in a derived frame
is pressed for the keyboard. -/
theorem snapshots_derived (states : ButtonStates) (held : states.held = keyboard.down) :
    List.Forall₂
      (fun told derived => told.held = derived.held ∧
        ∀ b, derived.pressed.has b → told.pressed.has b)
      (keyboard.snapshots events) (states.derived (keyboard.downs events)) := by
  rw [downs_eq]
  induction events using KeyEvent.induction_by_frames generalizing keyboard states with
  | still events still =>
    rw [snapshots_eq_nil still]
    exact .nil
  | frame stretch rest still ih =>
    rw [snapshots_append still, snapshots_frame]
    have same := ButtonStates.held_next_toList states (keyboard.run stretch).down
    refine .cons ⟨same.symm, ?_⟩ (ih _ same)
    intro b pressed
    obtain ⟨down, up⟩ := (ButtonStates.pressed_next_toList _ _ b).mp pressed
    rw [held] at up
    exact noted_of_derived still up down

theorem SteadyBetweenFrames.afterFrame
    (steady : keyboard.SteadyBetweenFrames (stretch ++ .frame :: rest)) :
    ((keyboard.run stretch).step .frame).SteadyUntilFrame rest ∧
      ((keyboard.run stretch).step .frame).SteadyBetweenFrames rest := by
  constructor
  · have next := steady stretch rest rfl
    rwa [run_append] at next
  · intro earlier further is
    have later := steady (stretch ++ .frame :: earlier) further (by rw [is]; simp)
    rwa [List.append_assoc, List.cons_append, run_append, run_cons] at later

/-- As long as no button turns more than once, the keyboard says what is derived. -/
theorem snapshots_eq_derived (states : ButtonStates) (held : states.held = keyboard.down)
    (fresh : keyboard.wentDown = .empty) (first : keyboard.SteadyUntilFrame events)
    (steady : keyboard.SteadyBetweenFrames events) :
    keyboard.snapshots events = states.derived (keyboard.downs events) := by
  rw [downs_eq]
  induction events using KeyEvent.induction_by_frames generalizing keyboard states with
  | still events still =>
    rw [snapshots_eq_nil still]
    rfl
  | frame stretch rest still ih =>
    have told :
        states.next (keyboard.run stretch).down.toList = (keyboard.run stretch).frame.1 := by
      have same := ButtonStates.held_next_toList states (keyboard.run stretch).down
      have pressed : (states.next (keyboard.run stretch).down.toList).pressed =
          (keyboard.run stretch).wentDown := by
        apply ButtonSet.ext_has
        intro b
        have unnoted : keyboard.wentDown.has b = false := by rw [fresh, ButtonSet.has_empty]
        rw [Bool.eq_iff_iff, ButtonStates.pressed_next_toList, held]
        exact (noted_iff_derived still (first stretch rest rfl still b) unnoted).symm
      exact congrArg₂ ButtonStates.mk same pressed
    obtain ⟨next, later⟩ := steady.afterFrame
    have on : ((keyboard.run stretch).step .frame).snapshots rest = _ :=
      @ih ((keyboard.run stretch).step .frame) (keyboard.run stretch).frame.1 rfl rfl next later
    rw [snapshots_append still, snapshots_frame, List.map_cons, ButtonStates.derived]
    change _ = states.next (keyboard.run stretch).down.toList ::
      (states.next (keyboard.run stretch).down.toList).derived _
    rw [told, ← on]

/-! ### Presses and their frames -/

theorem risesAfter_cons {frames : Nat} (key : e ≠ .frame) :
    keyboard.RisesAfter b frames (e :: events) ↔
      (frames = 0 ∧ keyboard.Rises e b) ∨ (keyboard.step e).RisesAfter b frames events := by
  constructor
  · rintro ⟨_ | ⟨first, earlier⟩, e', later, is, count, rises⟩
    · cases is
      exact .inl ⟨count.symm, rises⟩
    · cases is
      rw [List.count_cons_of_ne key] at count
      exact .inr ⟨earlier, e', later, rfl, count, rises⟩
  · rintro (⟨rfl, rises⟩ | ⟨earlier, e', later, rfl, count, rises⟩)
    · exact ⟨[], e, events, rfl, rfl, rises⟩
    · exact ⟨e :: earlier, e', later, rfl, by rw [List.count_cons_of_ne key, count], rises⟩

theorem not_risesAfter_frame_zero : ¬keyboard.RisesAfter b 0 (.frame :: events) := by
  rintro ⟨_ | ⟨first, earlier⟩, e', later, is, count, rises⟩
  · cases is
    exact not_rises_frame rises
  · cases is
    rw [List.count_cons_self] at count
    omega

theorem risesAfter_frame_succ {frames : Nat} :
    keyboard.RisesAfter b (frames + 1) (.frame :: events) ↔
      (keyboard.step .frame).RisesAfter b frames events := by
  constructor
  · rintro ⟨_ | ⟨first, earlier⟩, e', later, is, count, rises⟩
    · cases is
      exact absurd rises not_rises_frame
    · cases is
      rw [List.count_cons_self] at count
      exact ⟨earlier, e', later, rfl, by omega, rises⟩
  · rintro ⟨earlier, e', later, rfl, count, rises⟩
    exact ⟨.frame :: earlier, e', later, rfl, by rw [List.count_cons_self, count], rises⟩

/-- A frame says that a button is pressed exactly if it was noted before, or goes down between the
frame before and this one. -/
theorem pressed_snapshots_iff {frames : Nat} {states : ButtonStates}
    (is : (keyboard.snapshots events)[frames]? = some states) :
    states.pressed.has b ↔
      (frames = 0 ∧ keyboard.wentDown.has b) ∨ keyboard.RisesAfter b frames events := by
  induction events generalizing keyboard frames with
  | nil => exact nomatch is
  | cons e events ih =>
    by_cases key : e = .frame
    · cases key
      rw [snapshots_frame] at is
      cases frames with
      | zero =>
        cases is
        simp [not_risesAfter_frame_zero, frame]
      | succ frames =>
        rw [ih is, risesAfter_frame_succ, has_wentDown_step_iff]
        simp [not_rises_frame]
    · rw [snapshots_cons key] at is
      rw [ih is, risesAfter_cons key, has_wentDown_step_iff]
      tauto

end Keyboard

/-! ### The law of presses noted and derived -/

/-- How a keyboard that nobody has touched before agrees with the states that can be derived from the
buttons that are down in each frame. -/
structure Keyboard.NotesPresses (events : List KeyEvent) : Prop where
  /-- They are the same as long as no button turns more than once before the first frame, and from
  one frame to the next. -/
  same (first : untouched.SteadyUntilFrame events) (steady : untouched.SteadyBetweenFrames events) :
    untouched.snapshots events = ButtonStates.idle.derived (untouched.downs events)
  /-- In any case the same buttons are held, and those pressed that can be derived to be, -/
  agree : List.Forall₂
    (fun told derived => told.held = derived.held ∧
      ∀ b, derived.pressed.has b → told.pressed.has b)
    (untouched.snapshots events) (ButtonStates.idle.derived (untouched.downs events))
  /-- and a button that goes down is pressed in the next frame, and in no other. -/
  pressed {frames : Nat} {states : ButtonStates} (b : Button)
    (is : (untouched.snapshots events)[frames]? = some states) :
    states.pressed.has b ↔ untouched.RisesAfter b frames events

/-- **A keyboard notes every press.** Whatever happens to a keyboard, each button that goes down is
pressed in the next frame; all that can be derived from the buttons that are down in each frame is
among that, and is all of it as long as no button turns more than once before a frame. -/
theorem notesPresses (events : List KeyEvent) : Keyboard.NotesPresses events where
  same first steady := Keyboard.snapshots_eq_derived _ rfl rfl first steady
  agree := Keyboard.snapshots_derived _ rfl
  pressed b is := by
    rw [Keyboard.pressed_snapshots_iff is, Keyboard.untouched, ButtonSet.has_empty]
    simp

/-- A tap before the first frame: it is steady from frame to frame, but the keyboard notes a press
that cannot be derived. -/
theorem not_always_derived :
    ¬∀ events, Keyboard.untouched.SteadyBetweenFrames events →
      Keyboard.untouched.snapshots events =
        ButtonStates.idle.derived (Keyboard.untouched.downs events) := by
  intro law
  have steady : Keyboard.untouched.SteadyBetweenFrames [.down "Enter", .up "Enter", .frame] := by
    intro earlier rest is stretch further again
    have frames := congrArg (List.count KeyEvent.frame) is
    rw [again] at frames
    simp only [List.count_append, List.count_cons_self] at frames
    have one : List.count KeyEvent.frame [.down "Enter", .up "Enter", .frame] = 1 := by decide
    omega
  have same := law _ steady
  revert same
  decide

end Overworld
