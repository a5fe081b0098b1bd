import Mathlib.Order.Bounds.Basic
import Overworld.Proofs.Durations

/-!
When waiting for a button is over.

A loop that waits looks at the buttons before each frame, so it goes on at the first frame in which
what it waits for is pressed, be it the current one; a dialog is shown for a frame before it looks
for the first time, and closes at the first press after that. In between the host plays frames that
all show the same (`Host.later`), and if nothing is pressed for as long as the budget lasts, the
wait ends with the budget.
-/

namespace Overworld

open Simulation

/-! ### Frames in which nothing is done -/

/-- The host after a number of frames in which nothing is done. -/
def Host.later (host : Host) : Nat → Host
  | 0 => host
  | n + 1 => host.afterFrame.later n

/-- The session after a number of frames in which nothing is done. -/
def Session.later (s : Session) (n : Nat) : Session := { s with host := s.host.later n }

namespace Host

@[simp] theorem frame_later (host : Host) (n : Nat) : (host.later n).frame = host.frame + n := by
  induction n generalizing host with
  | zero => rfl
  | succ n ih =>
    rw [later, ih]
    change host.frame + 1 + n = _
    omega

/-- They all show the same. -/
theorem frames_later (host : Host) (n : Nat) :
    (host.later n).frames = host.frames ++ List.replicate n host.record := by
  induction n generalizing host with
  | zero => exact (List.append_nil _).symm
  | succ n ih =>
    have same : host.afterFrame.record = host.record := rfl
    rw [later, ih, same, frames_afterFrame, List.append_assoc]
    rfl

end Host

/-- They are played if there are as many left. -/
theorem Session.Timed.later {input : InputScript} {limit n : Nat} {s : Session}
    (h : s.Timed input limit) (within : s.host.frame + n ≤ limit) :
    (s.later n).Timed input limit := by
  induction n generalizing s with
  | zero => exact h
  | succ n ih =>
    have left : s.host.stop? = none := by rw [h.stop?_eq, if_neg (by omega)]
    refine ih (h.frame left) ?_
    change s.host.frame + 1 + n ≤ limit
    omega

theorem Session.Listens.later {input : InputScript} {s : Session} (h : s.Listens input) (n : Nat) :
    (s.later n).Listens input := by
  induction n generalizing s with
  | zero => exact h
  | succ n ih => exact ih h.frame

/-! ### Waiting -/

namespace Play

variable {input : InputScript} {limit : Nat} {test : Play Bool} {p : ButtonStates → Bool}
  {s : Session}

/-- Where the test fails, waiting takes a frame if there is one left, and ends with the budget if
there is none. -/
theorem advanceUntil_of_fails (looks : Looks test p) (timed : s.Timed input limit) (rounds : Nat)
    (fails : p s.host.states = false) :
    advanceUntil test (rounds + 1) s =
      if s.host.frame < limit then advanceUntil test rounds (s.later 1)
      else .error (.host (.budgetExhausted limit)) s := by
  rw [looks.advanceUntil_succ, fails, if_neg Bool.false_ne_true, bind_apply, advance_eq,
    timed.stop?_eq]
  by_cases left : s.host.frame < limit
  · rw [if_pos left, if_neg (by omega)]
    rfl
  · rw [if_neg left, if_pos (by omega)]

/-- Waiting goes on at the first frame in which the test holds. -/
theorem advanceUntil_of_first (looks : Looks test p) (timed : s.Timed input limit) {n rounds : Nat}
    (patient : n < rounds) (within : s.host.frame + n ≤ limit)
    (waits : ∀ m < n, p (s.host.later m).states = false) (goes : p (s.host.later n).states) :
    advanceUntil test rounds s = .ok () (s.later n) := by
  obtain ⟨rounds, rfl⟩ : ∃ k, rounds = k + 1 := ⟨rounds - 1, by omega⟩
  induction n generalizing s rounds with
  | zero => exact (looks.advanceUntil_succ rounds s).trans (if_pos goes)
  | succ n ih =>
    obtain ⟨rounds, rfl⟩ : ∃ k, rounds = k + 1 := ⟨rounds - 1, by omega⟩
    have next : (s.later 1).host.frame = s.host.frame + 1 := rfl
    rw [advanceUntil_of_fails looks timed _ (waits 0 (Nat.succ_pos n)), if_pos (by omega)]
    exact ih (s := s.later 1) (timed.later (by omega)) (by omega)
      (fun m lt => waits (m + 1) (by omega)) goes rounds (by omega)

/-- Where it never holds, waiting ends with the budget. -/
theorem advanceUntil_of_never (looks : Looks test p) (timed : s.Timed input limit) {n rounds : Nat}
    (patient : n < rounds) (last : s.host.frame + n = limit)
    (waits : ∀ m ≤ n, p (s.host.later m).states = false) :
    advanceUntil test rounds s = .error (.host (.budgetExhausted limit)) (s.later n) := by
  obtain ⟨rounds, rfl⟩ : ∃ k, rounds = k + 1 := ⟨rounds - 1, by omega⟩
  induction n generalizing s rounds with
  | zero =>
    rw [advanceUntil_of_fails looks timed _ (waits 0 (Nat.le_refl 0)), if_neg (by omega)]
    rfl
  | succ n ih =>
    obtain ⟨rounds, rfl⟩ : ∃ k, rounds = k + 1 := ⟨rounds - 1, by omega⟩
    have next : (s.later 1).host.frame = s.host.frame + 1 := rfl
    rw [advanceUntil_of_fails looks timed _ (waits 0 (Nat.zero_le _)), if_pos (by omega)]
    exact ih (s := s.later 1) (timed.later (by omega)) (by omega)
      (fun m le => waits (m + 1) (by omega)) rounds (by omega)

section

variable {happens : Nat → Prop}
  (looks : Looks test p) (sees : ∀ n, p (s.host.later n).states = true ↔ happens (s.host.frame + n))

include looks sees

/-- What waiting waits for may happen in the current frame, or later. -/
theorem advanceUntil_of_isLeast (timed : s.Timed input limit)
    (short : limit ≤ Host.frameCeiling) {frame : Nat}
    (first : IsLeast {f | s.host.frame ≤ f ∧ happens f} frame) (within : frame ≤ limit) :
    advanceUntil test patience s = .ok () (s.later (frame - s.host.frame)) := by
  obtain ⟨⟨after, now⟩, least⟩ := first
  have reached : s.host.frame + (frame - s.host.frame) = frame := by omega
  refine advanceUntil_of_first looks timed (by unfold patience; omega) (by omega)
    (fun m lt => ?_) ?_
  · by_contra earlier
    have early := least ⟨Nat.le_add_right _ m, (sees m).mp (by simpa using earlier)⟩
    omega
  · rw [sees, reached]
    exact now

theorem advanceUntil_of_none (timed : s.Timed input limit)
    (short : limit ≤ Host.frameCeiling)
    (never : ∀ f, s.host.frame ≤ f → f ≤ limit → ¬happens f) :
    advanceUntil test patience s =
      .error (.host (.budgetExhausted limit)) (s.later (limit - s.host.frame)) := by
  have within := timed.within
  refine advanceUntil_of_never looks timed (by unfold patience; omega) (by omega) fun m le => ?_
  by_contra happened
  exact never _ (Nat.le_add_right _ m) (by omega) ((sees m).mp (by simpa using happened))

end

end Play

/-! ### What a host sees that listens to a script -/

namespace Session.Listens

variable {input : InputScript} {s : Session}

/-- A host listens to its script, whatever calls it gets. -/
theorem of_calls {budget : Option Nat} {stops : Bool} {calls : List HostCall}
    (host : s.host = (Host.fresh input budget stops).after calls) : s.Listens input :=
  (Host.listens_after input budget stops calls s.vars s.stage).of_clock_eq (by rw [host]; rfl)

theorem pressed_later (h : s.Listens input) (button : Button) (n : Nat) :
    (s.host.later n).states.pressed.has button ↔ input.PressedAt button (s.host.frame + n) := by
  have seen := (h.later n).pressed button
  rw [show (s.later n).host = s.host.later n from rfl, Host.frame_later] at seen
  exact seen

theorem anyPressed_later (h : s.Listens input) (buttons : List Button) (n : Nat) :
    (s.host.later n).states.anyPressed buttons ↔
      ∃ button ∈ buttons, input.PressedAt button (s.host.frame + n) := by
  simp only [ButtonStates.anyPressed, List.any_eq_true, h.pressed_later]

end Session.Listens

/-! ### Events that wait -/

/-- The session with a dialog that was just opened. -/
def Session.withDialog (s : Session) (text : String) : Session :=
  { s with notices := s.notices.push (.dialogOpened text), host := s.host.openDialog text }

theorem Session.Timed.withDialog {input : InputScript} {limit : Nat} {s : Session}
    (h : s.Timed input limit) (left : s.host.frame < limit) (text : String) :
    ((s.withDialog text).later 1).Timed input limit :=
  Session.Timed.later (s := s.withDialog text) (h.of_clock_eq rfl) left

theorem Session.Listens.withDialog {input : InputScript} {s : Session} (h : s.Listens input)
    (text : String) : ((s.withDialog text).later 1).Listens input :=
  Session.Listens.later (s := s.withDialog text) (h.of_clock_eq rfl) 1

namespace Play

section

variable {input : InputScript} {limit : Nat} {s : Session} (timed : s.Timed input limit)
  (config : Config) (text : String)

include timed

/-- A dialog is shown for a frame before it waits. -/
theorem showDialog_eq :
    showDialog config text s =
      if s.host.frame < limit then
        (advanceUntil (pressed config.dialogButton) patience >>= fun _ =>
          onHost fun host => host.closeDialog) ((s.withDialog text).later 1)
      else .error (.host (.budgetExhausted limit)) (s.withDialog text) := by
  have is : showDialog config text s =
      (advance >>= fun _ => advanceUntil (pressed config.dialogButton) patience >>= fun _ =>
        onHost fun host => host.closeDialog) (s.withDialog text) := rfl
  have frame : (s.withDialog text).host.frame = s.host.frame := rfl
  have timed' : (s.withDialog text).Timed input limit := timed.of_clock_eq rfl
  rw [is, bind_apply, advance_eq, timed'.stop?_eq, frame]
  by_cases left : s.host.frame < limit
  · rw [if_pos left, if_neg (by omega)]
    rfl
  · rw [if_neg left, if_pos (by omega)]

variable (listens : s.Listens input) (short : limit ≤ Host.frameCeiling)

include listens short

theorem waitForButton_of_isLeast {buttons : List Button} {frame : Nat}
    (first : IsLeast {f | s.host.frame ≤ f ∧ ∃ button ∈ buttons, input.PressedAt button f} frame)
    (within : frame ≤ limit) :
    waitForButton buttons s = .ok () (s.later (frame - s.host.frame)) := by
  obtain ⟨-, button, mem, -⟩ := first.1
  rw [waitForButton, if_neg (by simpa using List.ne_nil_of_mem mem)]
  exact advanceUntil_of_isLeast (p := fun states => states.anyPressed buttons) (fun _ => rfl)
    (listens.anyPressed_later buttons) timed short first within

theorem waitForButton_of_none {buttons : List Button} (some : buttons ≠ [])
    (never : ∀ f, s.host.frame ≤ f → f ≤ limit → ∀ button ∈ buttons, ¬input.PressedAt button f) :
    waitForButton buttons s =
      .error (.host (.budgetExhausted limit)) (s.later (limit - s.host.frame)) := by
  have silent (f : Nat) (after : s.host.frame ≤ f) (upto : f ≤ limit) :
      ¬∃ button ∈ buttons, input.PressedAt button f := by
    rintro ⟨button, mem, pressed⟩
    exact never f after upto button mem pressed
  rw [waitForButton, if_neg (by simpa using some)]
  exact advanceUntil_of_none (p := fun states => states.anyPressed buttons) (fun _ => rfl)
    (listens.anyPressed_later buttons) timed short silent

/-- A dialog that is closed was open in every frame until then. -/
theorem showDialog_of_isLeast {frame : Nat}
    (first : IsLeast {f | s.host.frame < f ∧ input.PressedAt config.dialogButton f} frame)
    (within : frame ≤ limit) :
    ∃ t, showDialog config text s = .ok () t ∧
      t.host = ((s.host.openDialog text).later (frame - s.host.frame)).closeDialog := by
  have after : s.host.frame < frame := first.1.1
  let shown := (s.withDialog text).later 1
  have waits : advanceUntil (pressed config.dialogButton) patience shown =
      .ok () (shown.later (frame - (s.host.frame + 1))) :=
    advanceUntil_of_isLeast (p := fun states => states.pressed.has config.dialogButton)
      (fun _ => rfl) ((listens.withDialog text).pressed_later _)
      (timed.withDialog (Nat.le_trans after within) text) short first within
  have whole : frame - s.host.frame = frame - (s.host.frame + 1) + 1 := by omega
  rw [showDialog_eq timed, if_pos (Nat.lt_of_lt_of_le after within), bind_apply, waits, whole]
  exact ⟨_, rfl, rfl⟩

theorem showDialog_of_none
    (never : ∀ f, s.host.frame < f → f ≤ limit → ¬input.PressedAt config.dialogButton f) :
    ∃ t, showDialog config text s = .error (.host (.budgetExhausted limit)) t ∧
      t.host.frame = limit := by
  have upto := timed.within
  rw [showDialog_eq timed]
  by_cases left : s.host.frame < limit
  · have looks : Looks (pressed config.dialogButton) fun states =>
        states.pressed.has config.dialogButton := fun _ => rfl
    have waits := advanceUntil_of_none looks ((listens.withDialog text).pressed_later _)
      (timed.withDialog left text) short never
    refine ⟨_, by rw [if_pos left, bind_apply, waits], ?_⟩
    exact (Host.frame_later _ _).trans (Nat.add_sub_of_le left)
  · exact ⟨_, if_neg left, Nat.le_antisymm upto (Nat.le_of_not_lt left)⟩

end

/-- An event that has no list run does what it does after it is written down. -/
theorem runEvent_of_alone {game : Game} {inFrame : Bool} {event : Event} {act : Play Unit}
    (is : enact game inFrame event = alone act) (room : Nat) (s : Session) :
    runEvent game (room + 1) inFrame event s =
      act (s.recorded event inFrame (game.config.maxDepth - room)) := by
  have alone_eq : alone act = act >>= fun _ => Pure.pure none := rfl
  rw [runEvent_succ, is, alone_eq, bind_apply, bind_apply]
  cases act (s.recorded event inFrame (game.config.maxDepth - room)) <;> rfl

end Play

/-! ### The law of waiting -/

/-- How events wait for buttons, on a host that plays frames of a script up to a limit. -/
structure Session.AwaitsPresses (game : Game) (room : Nat) (inFrame : Bool) (input : InputScript)
    (limit : Nat) (s : Session) : Prop where
  /-- Waiting goes on at the first press, which may be in the current frame. -/
  resumes {buttons : List Button} {frame : Nat}
    (first : IsLeast {f | s.host.frame ≤ f ∧ ∃ button ∈ buttons, input.PressedAt button f} frame)
    (within : frame ≤ limit) :
    ∃ t, Play.runEvent game (room + 1) inFrame (.waitForButton buttons) s = .ok () t ∧
      t.host.frame = frame ∧
      t.host.frames = s.host.frames ++ List.replicate (frame - s.host.frame) s.host.record
  exhausted {buttons : List Button} (some : buttons ≠ [])
    (never : ∀ f, s.host.frame ≤ f → f ≤ limit → ∀ button ∈ buttons, ¬input.PressedAt button f) :
    ∃ t, Play.runEvent game (room + 1) inFrame (.waitForButton buttons) s =
        .error (.host (.budgetExhausted limit)) t ∧ t.host.frame = limit
  /-- Without buttons there is nothing to wait for. -/
  passes : ∃ t, Play.runEvent game (room + 1) inFrame (.waitForButton []) s = .ok () t ∧
    t.host = s.host
  /-- A dialog is open until the first press after the current frame, and closed then. -/
  closes (text : String) {frame : Nat}
    (first : IsLeast {f | s.host.frame < f ∧ input.PressedAt game.config.dialogButton f} frame)
    (within : frame ≤ limit) :
    ∃ t, Play.runEvent game (room + 1) inFrame (.showDialog text) s = .ok () t ∧
      t.host.frame = frame ∧ t.host.dialog = none ∧
      t.host.frames = s.host.frames ++
        List.replicate (frame - s.host.frame) ⟨s.host.camera, s.host.alpha, true⟩
  stays (text : String)
    (never : ∀ f, s.host.frame < f → f ≤ limit → ¬input.PressedAt game.config.dialogButton f) :
    ∃ t, Play.runEvent game (room + 1) inFrame (.showDialog text) s =
        .error (.host (.budgetExhausted limit)) t ∧ t.host.frame = limit

/-- **A wait is over at the first press.** On a host that replays a script and plays frames up to a
limit, an event that waits for buttons ends in the first frame from the current one on in which the
script begins to hold one of them, and a dialog in the first one after the current frame in which it
begins to hold the button for it; where there is none up to the limit, the wait ends there. -/
theorem awaitsPresses_of_calls (game : Game) (room : Nat) (inFrame : Bool) {input : InputScript}
    {limit : Nat} (short : limit ≤ Host.frameCeiling) {calls : List HostCall} {s : Session}
    (host : s.host = (Host.fresh input (some limit) false).after calls) :
    s.AwaitsPresses game room inFrame input limit := by
  have timed : s.Timed input limit := .of_calls host
  have listens : s.Listens input := .of_calls host
  have timed' (event : Event) :
      (s.recorded event inFrame (game.config.maxDepth - room)).Timed input limit :=
    timed.of_clock_eq rfl
  have listens' (event : Event) :
      (s.recorded event inFrame (game.config.maxDepth - room)).Listens input :=
    listens.of_clock_eq rfl
  constructor
  case resumes =>
    intro buttons frame first within
    have after : s.host.frame ≤ frame := first.1.1
    have ends := Play.waitForButton_of_isLeast (timed' (.waitForButton buttons))
      (listens' _) short first within
    refine ⟨_, (Play.runEvent_of_alone rfl room s).trans ends, ?_, Host.frames_later _ _⟩
    exact (Host.frame_later _ _).trans (Nat.add_sub_of_le after)
  case exhausted =>
    intro buttons some never
    have ends := Play.waitForButton_of_none (timed' (.waitForButton buttons)) (listens' _) short
      some never
    refine ⟨_, (Play.runEvent_of_alone rfl room s).trans ends, ?_⟩
    exact (Host.frame_later _ _).trans (Nat.add_sub_of_le timed.within)
  case passes => exact ⟨_, rfl, rfl⟩
  case closes =>
    intro text frame first within
    have after : s.host.frame < frame := first.1.1
    obtain ⟨t, ends, host⟩ := Play.showDialog_of_isLeast (timed' (.showDialog text)) game.config
      text (listens' _) short first within
    refine ⟨t, (Play.runEvent_of_alone rfl room s).trans ends, ?_, ?_, ?_⟩
    · rw [host]
      exact (Host.frame_later _ _).trans (Nat.add_sub_of_le after.le)
    · rw [host]
      rfl
    · rw [host]
      exact Host.frames_later _ _
  case stays =>
    intro text never
    obtain ⟨t, ends, last⟩ := Play.showDialog_of_none (timed' (.showDialog text)) game.config text
      (listens' _) short never
    exact ⟨t, (Play.runEvent_of_alone rfl room s).trans ends, last⟩

/-- A button that is held at first is waited for until it is pressed again. -/
theorem awaitsPresses_of_calls_again :
    let input := ((InputScript.empty.hold [.activate] 2).idle 2).hold [.activate, .left] 1
    let s := Session.start ((Host.fresh input (some 9) false).after [.advance]) .empty
      (.bare .fallback)
    9 ≤ Host.frameCeiling ∧ s.host.frame = 1 ∧ s.AwaitsPresses .sample 0 true input 9 ∧
      IsLeast {f | 1 < f ∧ input.PressedAt .activate f} 4 := by
  intro input s
  have short : 9 ≤ Host.frameCeiling := by decide
  refine ⟨short, rfl, awaitsPresses_of_calls .sample 0 true short rfl, by decide, ?_⟩
  rintro f ⟨after, pressed⟩
  by_contra early
  have never : ∀ f < 4, 1 < f → ¬input.PressedAt .activate f := by decide
  exact never f (Nat.lt_of_not_le early) after pressed

end Overworld
