import Mathlib.Algebra.Order.Floor.Div
import Mathlib.Logic.Function.Iterate
import Overworld.Proofs.Appearance

/-!
The pictures of a walk.

A walk counts its ticks modulo its wait and its pictures modulo four, and takes the next picture
whenever the first of these counters is at zero. Both follow from the number of ticks
(`WalkCycle.iterate_next_start`), so the picture after any number of them is found by a division.
All else about the sprite, and about the host, is left as it is.
-/

namespace Overworld

theorem Direction.length_walkPictures (d : Direction) : d.walkPictures.length = 4 := by
  cases d <;> rfl

/-- The picture of a walk after the first one has changed a number of times. -/
def Direction.walkPicture (d : Direction) (changes : Nat) : Nat :=
  d.walkPictures.get
    ⟨changes % 4, by rw [d.length_walkPictures]; exact Nat.mod_lt _ (by decide)⟩

namespace WalkCycle

/-! ### Counting ticks -/

/-- How many pictures were taken grows by one with each tick at a multiple of the wait. -/
theorem ceilDiv_succ {p : Nat} (pos : 0 < p) (n : Nat) :
    (n + 1) ⌈/⌉ p = if n % p = 0 then n ⌈/⌉ p + 1 else n ⌈/⌉ p := by
  have next : n + 1 + p - 1 = n + p - 1 + 1 := by omega
  have multiple : p ∣ n + p - 1 + 1 ↔ n % p = 0 := by
    rw [Nat.sub_add_cancel (by omega), Nat.dvd_add_self_right, Nat.dvd_iff_mod_eq_zero]
  rw [Nat.ceilDiv_eq_add_pred_div, Nat.ceilDiv_eq_add_pred_div, next, Nat.succ_div]
  simp only [multiple]
  split <;> rfl

/-- **Both counters at any time**: the ticks since the last picture was taken, and the pictures that
were taken so far, around the cycle of four. -/
theorem iterate_next_start (d : Direction) (wait n : Nat) :
    next^[n] (start d wait) =
      ⟨d.walkPictures, max wait 1, n % max wait 1, (n ⌈/⌉ max wait 1) % 4⟩ := by
  have pos : 0 < max wait 1 := by omega
  induction n with
  | zero => simp [start]
  | succ n ih =>
    rw [Function.iterate_succ_apply', ih, next]
    simp only [ceilDiv_succ pos, d.length_walkPictures, mk.injEq, true_and, Nat.mod_add_mod]
    split <;> simp

/-- The picture that is taken at a multiple of the wait, and only there. -/
theorem picture?_iterate_next (d : Direction) (wait n : Nat) :
    (next^[n] (start d wait)).picture? =
      if n % max wait 1 = 0 then some (d.walkPicture (n / max wait 1)) else none := by
  have pos : 0 < max wait 1 := by omega
  rw [iterate_next_start, picture?]
  dsimp only
  by_cases taken : n % max wait 1 = 0
  · have whole : n ⌈/⌉ max wait 1 = n / max wait 1 := by
      obtain ⟨k, rfl⟩ := Nat.dvd_of_mod_eq_zero taken
      rw [Nat.mul_div_cancel_left _ pos, ← smul_eq_mul, smul_ceilDiv pos]
    rw [if_pos taken, if_pos taken, whole, Direction.walkPicture, List.get_eq_getElem]
    exact List.getElem?_eq_getElem _
  · rw [if_neg taken, if_neg taken]

end WalkCycle

/-! ### Showing pictures -/

namespace Host

theorem updateSprite_updateSprite (host : Host) (h : SpriteHandle)
    (first second : Sprite → Sprite) :
    (host.updateSprite h first).updateSprite h second =
      host.updateSprite h fun sprite => second (first sprite) := by
  simp only [updateSprite, mk.injEq, List.map_map, true_and, and_true]
  apply List.map_congr_left
  intro entry _
  rw [Function.comp_apply]
  split <;> rfl

/-- Of two pictures the second one stays. -/
theorem setFrame_setFrame (host : Host) (h : SpriteHandle) (first second : Nat) :
    (host.setFrame h first).setFrame h second = host.setFrame h second :=
  host.updateSprite_updateSprite h _ _

end Host

namespace WalkCycle

/-- The walk and the host after ticks in a row. -/
def ticks (walk : WalkCycle) (host : Host) (sprite : SpriteHandle) : Nat → WalkCycle × Host
  | 0 => (walk, host)
  | n + 1 => (walk.ticks host sprite n).1.tick (walk.ticks host sprite n).2 sprite

theorem tick_fst (walk : WalkCycle) (host : Host) (sprite : SpriteHandle) :
    (walk.tick host sprite).1 = walk.next := by
  unfold tick
  split <;> rfl

/-- The host has no say in how a walk goes on. -/
theorem ticks_fst (walk : WalkCycle) (host : Host) (sprite : SpriteHandle) (n : Nat) :
    (walk.ticks host sprite n).1 = next^[n] walk := by
  induction n with
  | zero => rfl
  | succ n ih => rw [ticks, tick_fst, ih, Function.iterate_succ_apply']

/-- What one tick does to a host, after any number of ticks before. -/
theorem tick_iterate_next (d : Direction) (wait n : Nat) (host : Host) (sprite : SpriteHandle) :
    (next^[n] (start d wait)).tick host sprite =
      (next^[n + 1] (start d wait),
        if n % max wait 1 = 0 then host.setFrame sprite (d.walkPicture (n / max wait 1))
        else host) := by
  rw [tick, picture?_iterate_next, Function.iterate_succ_apply']
  by_cases taken : n % max wait 1 = 0
  · rw [if_pos taken, if_pos taken]
  · rw [if_neg taken, if_neg taken]

/-- Ticks in a row leave what the last of the pictures that they took makes of the host. -/
theorem ticks_snd (d : Direction) (wait n : Nat) (host : Host) (sprite : SpriteHandle) :
    ((start d wait).ticks host sprite (n + 1)).2 =
      host.setFrame sprite (d.walkPicture (n / max wait 1)) := by
  induction n with
  | zero =>
    rw [ticks, ticks_fst, tick_iterate_next, if_pos (Nat.zero_mod _)]
    rfl
  | succ n ih =>
    rw [ticks, ticks_fst, tick_iterate_next, ih]
    by_cases taken : (n + 1) % max wait 1 = 0
    · rw [if_pos taken, Host.setFrame_setFrame]
    · have same : (n + 1) / max wait 1 = n / max wait 1 :=
        Nat.succ_div_of_not_dvd fun whole => taken (Nat.mod_eq_zero_of_dvd whole)
      rw [if_neg taken, same]

/-! ### The law of walking pictures -/

/-- How a walk in a direction shows its pictures, each for a number of ticks (one at least). -/
structure GoesRound (d : Direction) (wait : Nat) : Prop where
  /-- The next picture is always one of the four, and fewer ticks than the wait have passed since
  the last one was taken. -/
  inside (n : Nat) : let walk := next^[n] (start d wait)
    walk.pictures = d.walkPictures ∧ walk.index < walk.pictures.length ∧ walk.counter < max wait 1
  /-- A tick at a multiple of the wait shows one more picture, and no other tick does anything,
  whatever became of the host since the tick before. -/
  tick (j : Nat) (host : Host) (sprite : SpriteHandle) :
    (next^[j] (start d wait)).tick host sprite =
      (next^[j + 1] (start d wait),
        if j % max wait 1 = 0 then host.setFrame sprite (d.walkPicture (j / max wait 1)) else host)
  /-- After ticks in a row the sprite shows the picture that a division finds, -/
  shows (j : Nat) {host : Host} {h : SpriteHandle} {sprite : Sprite}
    (is : host.sprite? h = some sprite) :
    ((start d wait).ticks host h (j + 1)).2.sprite? h =
      some { sprite with frame := d.walkPicture (j / max wait 1) }
  /-- and the host is as if no other had ever been shown. -/
  keeps (j : Nat) (host : Host) (sprite : SpriteHandle) :
    ((start d wait).ticks host sprite (j + 1)).2 =
      host.setFrame sprite (d.walkPicture (j / max wait 1))

/-- **Walks go round**, in every direction, at every pace and for any number of ticks. -/
theorem goesRound (d : Direction) (wait : Nat) : GoesRound d wait := by
  constructor
  case inside =>
    intro n
    rw [iterate_next_start]
    dsimp only
    rw [d.length_walkPictures]
    exact ⟨rfl, Nat.mod_lt _ (by decide), Nat.mod_lt _ (by omega)⟩
  case tick => exact tick_iterate_next d wait
  case shows =>
    intro j host h sprite is
    rw [ticks_snd, Host.setFrame, Host.sprite?_updateSprite, if_pos rfl, is, Option.map_some]
  case keeps => exact ticks_snd d wait

/-- Two ticks for each picture of a walk down. -/
example : (List.range 8).map (fun j => Direction.down.walkPicture (j / max 2 1)) =
    [4, 4, 0, 0, 5, 5, 0, 0] := rfl

end WalkCycle

end Overworld
