import Overworld.Text.Blank

/-!
Buttons, sets of them, and the state of all buttons in one frame.

A button is held in a frame while it is down, and pressed only in the frame in which it went down.
-/

namespace Overworld

open Overworld.Text

/-- The buttons of the pad. -/
inductive Button where
  | up
  | down
  | left
  | right
  | activate
  | cancel
  | start
  | select
  | l
  | r
deriving DecidableEq, Repr

namespace Button

/-- Every button once, in the order of the pad. -/
def all : List Button :=
  [.up, .down, .left, .right, .activate, .cancel, .start, .select, .l, .r]

/-- The name of a button in files. -/
def name : Button → String
  | .up => "up"
  | .down => "down"
  | .left => "left"
  | .right => "right"
  | .activate => "activate"
  | .cancel => "cancel"
  | .start => "start"
  | .select => "select"
  | .l => "l"
  | .r => "r"

/-- Every name that a button goes by. -/
def byName : List (String × Button) :=
  all.map (fun b => (b.name, b)) ++ [("a", .activate), ("b", .cancel)]

/-- The button of a word, in any case and with blanks around it. -/
def ofWord? (word : List Char) : Option Button :=
  byName.lookup (String.ofList ((trimChars word).map Char.toLower))

theorem mem_all (b : Button) : b ∈ all := by cases b <;> decide

end Button

/-! ### Sets of buttons -/

/-- A set of buttons. -/
structure ButtonSet where
  up : Bool
  down : Bool
  left : Bool
  right : Bool
  activate : Bool
  cancel : Bool
  start : Bool
  select : Bool
  l : Bool
  r : Bool
deriving DecidableEq, Repr

namespace ButtonSet

/-- The buttons that satisfy a test. -/
def ofTest (p : Button → Bool) : ButtonSet :=
  ⟨p .up, p .down, p .left, p .right, p .activate, p .cancel, p .start, p .select, p .l, p .r⟩

/-- Whether a button is in the set. -/
def has (s : ButtonSet) : Button → Bool
  | .up => s.up
  | .down => s.down
  | .left => s.left
  | .right => s.right
  | .activate => s.activate
  | .cancel => s.cancel
  | .start => s.start
  | .select => s.select
  | .l => s.l
  | .r => s.r

/-- The set without buttons. -/
def empty : ButtonSet := ofTest fun _ => false

instance : Inhabited ButtonSet := ⟨empty⟩

/-- The set of the buttons in a list. -/
def ofList (buttons : List Button) : ButtonSet := ofTest buttons.contains

/-- The buttons of the set, in the order of the pad. -/
def toList (s : ButtonSet) : List Button := Button.all.filter s.has

/-- The set with one button put in or taken out. -/
def update (s : ButtonSet) (button : Button) (isIn : Bool) : ButtonSet :=
  ofTest fun b => if b = button then isIn else s.has b

@[simp] theorem has_ofTest (p : Button → Bool) (b : Button) : (ofTest p).has b = p b := by
  cases b <;> rfl

@[simp] theorem has_empty (b : Button) : empty.has b = false := by simp [empty]

@[simp] theorem has_ofList (buttons : List Button) (b : Button) :
    (ofList buttons).has b = buttons.contains b := by simp [ofList]

@[simp] theorem has_update (s : ButtonSet) (button b : Button) (isIn : Bool) :
    (s.update button isIn).has b = if b = button then isIn else s.has b := by simp [update]

/-- Sets with the same buttons are equal. -/
theorem ext_has {s t : ButtonSet} (h : ∀ b, s.has b = t.has b) : s = t := by
  cases s
  cases t
  have up := h .up
  have down := h .down
  have left := h .left
  have right := h .right
  have activate := h .activate
  have cancel := h .cancel
  have start := h .start
  have select := h .select
  have l := h .l
  have r := h .r
  simp only [has] at *
  simp [*]

end ButtonSet

/-! ### Button states -/

/-- The buttons held in a frame and those pressed in it. -/
structure ButtonStates where
  held : ButtonSet
  pressed : ButtonSet
deriving DecidableEq, Repr, Inhabited

namespace ButtonStates

/-- Nothing held and nothing pressed. -/
def idle : ButtonStates := ⟨.empty, .empty⟩

/-- The next frame, given the buttons that are down in it: pressed are those not held before. -/
def next (states : ButtonStates) (down : List Button) : ButtonStates where
  held := .ofList down
  pressed := .ofTest fun b => down.contains b && !states.held.has b

/-- Whether one of several buttons is pressed. -/
def anyPressed (states : ButtonStates) (buttons : List Button) : Bool :=
  buttons.any states.pressed.has

end ButtonStates

end Overworld
