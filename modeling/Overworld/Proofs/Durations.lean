import Mathlib.Data.Rat.Floor
import Overworld.Proofs.Budget
import Overworld.Proofs.HostCalls
import Overworld.Proofs.Panning
import Overworld.Proofs.Veils

/-!
How long timed events take.

An action spends a number of frames (`Play.Spends`) when it comes to its end after exactly these, or
halts at the budget of the host if that is used up before. What is put together from such actions
spends the frames of all of them, so a list of waits, fades and stops of the music spends what the
durations in it ask for: a wait is rounded up to whole frames and a fade down. A budget may run out
in the middle of an event or between two of them, and nothing else can stop such a list.
-/

namespace Overworld

open Simulation

/-! ### Actions that spend frames -/

/-- An action that spends a number of frames from a session on and leads to what is said of it,
unless the budget of the host is used up before. -/
structure Play.Spends (input : InputScript) (limit : Nat) {α : Type} (act : Play α) (s : Session)
    (frames : Nat) (post : α → Session → Prop) : Prop where
  ends (enough : s.host.frame + frames ≤ limit) :
    ∃ a t, act s = .ok a t ∧ t.Timed input limit ∧ t.host.frame = s.host.frame + frames ∧ post a t
  stops (short : limit < s.host.frame + frames) :
    ∃ t, act s = .error (.host (.budgetExhausted limit)) t ∧ t.host.frame = limit

namespace Play.Spends

variable {input : InputScript} {limit n m : Nat} {α β : Type} {s : Session}

/-- What leaves the clock alone spends no frame. -/
theorem still {x : Play α} {a : α} {t : Session} {post : α → Session → Prop}
    (timed : s.Timed input limit) (is : x s = .ok a t) (clock : t.host.clock = s.host.clock)
    (holds : post a t) : Spends input limit x s 0 post where
  ends _ := ⟨a, t, is, timed.of_clock_eq clock, congrArg Clock.frame clock, holds⟩
  stops short := absurd timed.within (by omega)

theorem pure {a : α} {post : α → Session → Prop} (timed : s.Timed input limit) (holds : post a s) :
    Spends input limit (Pure.pure a : Play α) s 0 post := still timed rfl rfl holds

/-- What goes on after something that leaves the clock alone. -/
theorem andThen {x : Play α} {f : α → Play β} {a : α} {t : Session} {post : β → Session → Prop}
    (timed : s.Timed input limit) (is : x s = .ok a t) (clock : t.host.clock = s.host.clock)
    (next : t.Timed input limit → Spends input limit (f a) t n post) :
    Spends input limit (x >>= f) s n post := by
  have frame : t.host.frame = s.host.frame := congrArg Clock.frame clock
  have goes : (x >>= f) s = f a t := by rw [bind_apply, is]
  have rest := next (timed.of_clock_eq clock)
  constructor
  case ends =>
    intro enough
    rw [goes, ← frame]
    exact rest.ends (frame ▸ enough)
  case stops =>
    intro short
    rw [goes]
    exact rest.stops (frame ▸ short)

/-- An action and what goes on after it spend the frames of both. -/
theorem bind {x : Play α} {f : α → Play β} {mid : α → Session → Prop} {post : β → Session → Prop}
    (first : Spends input limit x s n mid)
    (next : ∀ a t, t.Timed input limit → mid a t → Spends input limit (f a) t m post) :
    Spends input limit (x >>= f) s (n + m) post where
  ends enough := by
    obtain ⟨a, t, is, timed, frame, holds⟩ := first.ends (by omega)
    obtain ⟨b, u, is', timed', frame', holds'⟩ := (next a t timed holds).ends (by omega)
    exact ⟨b, u, bind_eq_ok_iff.mpr ⟨a, t, is, is'⟩, timed', by omega, holds'⟩
  stops short := by
    by_cases reached : s.host.frame + n ≤ limit
    · obtain ⟨a, t, is, timed, frame, holds⟩ := first.ends reached
      obtain ⟨u, is', last⟩ := (next a t timed holds).stops (by omega)
      exact ⟨u, by rw [bind_apply, is]; exact is', last⟩
    · obtain ⟨t, is, last⟩ := first.stops (by omega)
      exact ⟨t, by rw [bind_apply, is], last⟩

theorem mono {x : Play α} {post post' : α → Session → Prop} (h : Spends input limit x s n post)
    (weaker : ∀ a t, post a t → post' a t) : Spends input limit x s n post' where
  ends enough := by
    obtain ⟨a, t, is, timed, frame, holds⟩ := h.ends enough
    exact ⟨a, t, is, timed, frame, weaker a t holds⟩
  stops := h.stops

/-- It may be told which frame it leads to. -/
theorem counted {x : Play α} {post : α → Session → Prop} (h : Spends input limit x s n post) :
    Spends input limit x s n fun a t => t.host.frame = s.host.frame + n ∧ post a t where
  ends enough := by
    obtain ⟨a, t, is, timed, frame, holds⟩ := h.ends enough
    exact ⟨a, t, is, timed, frame, frame, holds⟩
  stops := h.stops

theorem congr {x y : Play α} {post : α → Session → Prop} (h : Spends input limit y s n post)
    (same : x s = y s) : Spends input limit x s n post := by
  constructor
  · rw [same]
    exact h.ends
  · rw [same]
    exact h.stops

theorem of_eq {x : Play α} {post : α → Session → Prop} (h : Spends input limit x s n post)
    (same : n = m) : Spends input limit x s m post := same ▸ h

/-- What goes on after an action may spend no frame. -/
theorem bind_still {x : Play α} {f : α → Play β} {mid : α → Session → Prop}
    {post : β → Session → Prop} (first : Spends input limit x s n mid)
    (next : ∀ a t, t.Timed input limit → mid a t → Spends input limit (f a) t 0 post) :
    Spends input limit (x >>= f) s n post := (first.bind next).of_eq (Nat.add_zero n)

theorem still_bind {x : Play α} {f : α → Play β} {mid : α → Session → Prop}
    {post : β → Session → Prop} (first : Spends input limit x s 0 mid)
    (next : ∀ a t, t.Timed input limit → mid a t → Spends input limit (f a) t n post) :
    Spends input limit (x >>= f) s n post := (first.bind next).of_eq (Nat.zero_add n)

/-- A frame is played if there is one left. -/
theorem advance (timed : s.Timed input limit) :
    Spends input limit Play.advance s 1 fun _ t => t = { s with host := s.host.afterFrame } where
  ends enough := by
    have goes : s.host.stop? = none := by rw [timed.stop?_eq, if_neg (by omega)]
    exact ⟨(), _, advance_eq_ok_iff.mpr ⟨goes, rfl⟩, timed.frame goes, rfl, rfl⟩
  stops short := by
    have within := timed.within
    have stops : s.host.stop? = some (.budgetExhausted limit) := by
      rw [timed.stop?_eq, if_pos (by omega)]
    exact ⟨s, by rw [advance_eq, stops], by omega⟩

/-- What is done in single frames, one after the other, spends as many. -/
theorem forSteps {f : Nat → Play Unit} {P : Session → Prop}
    (single : ∀ step t, t.Timed input limit → P t → Spends input limit (f step) t 1 fun _ => P)
    (first count : Nat) (timed : s.Timed input limit) (holds : P s) :
    Spends input limit (Overworld.forSteps f first count) s count fun _ => P := by
  induction count generalizing first s with
  | zero => exact .pure timed holds
  | succ count ih =>
    have round : Spends input limit (f first >>= fun _ => Overworld.forSteps f (first + 1) count) s
        (1 + count) fun _ => P :=
      (single first s timed holds).bind fun _ t timed holds => ih (first + 1) timed holds
    exact round.of_eq (Nat.add_comm 1 count)

theorem alone {x : Play Unit} {P : Session → Prop} (h : Spends input limit x s n fun _ => P) :
    Spends input limit (Play.alone x) s n fun next t => next = none ∧ P t :=
  h.bind_still fun _ _ timed holds => .pure timed ⟨rfl, holds⟩

end Play.Spends

/-! ### What timed events go by, and what they change -/

/-- An event that lasts for a time, and has no list run and waits for nobody. -/
def Event.isTimed : Event → Bool
  | .wait _ | .fadeIn _ | .fadeOut _ | .stopMusic => true
  | _ => false

/-- The variables, the music, and the background with what is shown of it. -/
structure Scenery where
  vars : Variables
  music : Option Music
  background : Background
  shown : Option Background
  alpha : Float32

def Session.scenery (s : Session) : Scenery :=
  ⟨s.vars, s.host.music, s.stage.background, s.host.background, s.host.alpha⟩

/-- What the frames of a fade leave alone. -/
def Session.backdrop (s : Session) : Variables × Option Music × Background :=
  (s.vars, s.host.music, { s.stage.background with blending := false })

/-- The scenery after a timed event. -/
def Scenery.after (scenery : Scenery) : Event → Scenery
  | .fadeIn _ =>
    let background := { scenery.background with visible := true, blending := false }
    { scenery with background := background, shown := some background, alpha := 0 }
  | .fadeOut _ =>
    let background := { scenery.background with visible := false, blending := false }
    { scenery with background := background, shown := some background, alpha := 1 }
  | .stopMusic => { scenery with music := none }
  | _ => scenery

namespace Scenery

@[simp] theorem vars_after (scenery : Scenery) (event : Event) :
    (scenery.after event).vars = scenery.vars := by
  cases event <;> rfl

theorem isSome_music_after (scenery : Scenery) (event : Event) :
    (scenery.after event).music.isSome = (scenery.music.isSome && event ≠ .stopMusic) := by
  cases event <;> simp [after]

theorem name_after (scenery : Scenery) (event : Event) :
    (scenery.after event).background.name = scenery.background.name := by
  cases event <;> rfl

/-- Music that is stopped does not play again. -/
theorem music_foldl (scenery : Scenery) (events : List Event) :
    (events.foldl after scenery).music = if .stopMusic ∈ events then none else scenery.music := by
  induction events generalizing scenery with
  | nil => rfl
  | cons event events ih =>
    rw [List.foldl_cons, ih]
    cases event <;> simp [after]

theorem vars_foldl (scenery : Scenery) (events : List Event) :
    (events.foldl after scenery).vars = scenery.vars := by
  induction events generalizing scenery with
  | nil => rfl
  | cons event events ih => rw [List.foldl_cons, ih, vars_after]

theorem name_foldl (scenery : Scenery) (events : List Event) :
    (events.foldl after scenery).background.name = scenery.background.name := by
  induction events generalizing scenery with
  | nil => rfl
  | cons event events ih => rw [List.foldl_cons, ih, name_after]

/-- Events that are no fades leave the picture alone. -/
theorem picture_foldl (scenery : Scenery) {events : List Event}
    (others : ∀ event ∈ events, event.fades = false) :
    (events.foldl after scenery).background = scenery.background ∧
      (events.foldl after scenery).shown = scenery.shown ∧
      (events.foldl after scenery).alpha = scenery.alpha := by
  induction events generalizing scenery with
  | nil => exact ⟨rfl, rfl, rfl⟩
  | cons event events ih =>
    obtain ⟨other, rest⟩ := List.forall_mem_cons.mp others
    rw [List.foldl_cons]
    cases event with
    | fadeIn duration => exact nomatch other
    | fadeOut duration => exact nomatch other
    | _ => exact ih _ rest

end Scenery

/-! ### How long events last -/

/-- How many frames a timed event takes, with music playing or not. -/
def Event.frames (config : Config) (vars : Variables) (playing : Bool) : Event → Nat
  | .wait duration => ⌈(max (duration.int vars) 0 : ℚ) / config.tick⌉₊
  | .fadeIn duration | .fadeOut duration => ⌊(max (duration.int vars) 0 : ℚ) / config.tick⌋₊
  | .stopMusic => if playing then config.musicFadeSteps else 0
  | _ => 0

/-- How many frames timed events take, one after the other. The music can be stopped once. -/
def framesOf (config : Config) (vars : Variables) : Bool → List Event → Nat
  | _, [] => 0
  | playing, event :: events =>
    event.frames config vars playing + framesOf config vars (playing && event ≠ .stopMusic) events

namespace Config

theorem tick_pos (config : Config) : 0 < config.tick := by
  unfold tick
  omega

/-- A wait is rounded up. -/
theorem framesCovering_eq (config : Config) (duration : Int) :
    config.framesCovering duration = ⌈(max duration 0 : ℚ) / config.tick⌉₊ := by
  have pos := config.tick_pos
  have pos' : (0 : ℚ) < config.tick := by exact_mod_cast pos
  refine eq_of_forall_ge_iff fun n => ?_
  rw [Nat.ceil_le, div_le_iff₀ pos', framesCovering]
  have whole : (max duration 0 : ℚ) ≤ n * config.tick ↔ max duration 0 ≤ n * config.tick := by
    exact_mod_cast Iff.rfl
  rw [whole, Int.toNat_le, Int.ediv_le_iff_le_mul pos]
  omega

/-- A fade is rounded down. -/
theorem framesWithin_eq (config : Config) (duration : Int) :
    config.framesWithin duration = ⌊(max duration 0 : ℚ) / config.tick⌋₊ := by
  have pos := config.tick_pos
  have pos' : (0 : ℚ) < config.tick := by exact_mod_cast pos
  have divided : 0 ≤ max duration 0 / config.tick := Int.ediv_nonneg (by omega) (by omega)
  have within : config.framesWithin duration = (max duration 0 / config.tick).toNat := by
    unfold framesWithin
    split
    · rw [max_eq_right (by omega), Int.zero_ediv, Int.toNat_zero]
    · rw [max_eq_left (by omega)]
  refine eq_of_forall_le_iff fun n => ?_
  have whole : n * config.tick ≤ (max duration 0 : ℚ) ↔ n * config.tick ≤ max duration 0 := by
    exact_mod_cast Iff.rfl
  rw [Nat.le_floor_iff (by positivity), le_div_iff₀ pos', whole, within, Int.le_toNat divided,
    Int.le_ediv_iff_mul_le pos]

end Config

/-! ### Timed events -/

/-- A host keeps to its budget and its script, whatever calls it gets. -/
theorem Session.Timed.of_calls {input : InputScript} {limit : Nat} {calls : List HostCall}
    {s : Session} (host : s.host = (Host.fresh input (some limit) false).after calls) :
    s.Timed input limit := by
  have within : ((Host.fresh input (some limit) false).after calls).budget = some limit ∧
      ((Host.fresh input (some limit) false).after calls).frame ≤ limit :=
    Host.within_after input false calls
  obtain ⟨budget, within⟩ := within
  have recorded := Host.recorded_after input (some limit) false calls
  have fixed : ((Host.fresh input (some limit) false).after calls).input = input ∧
      ((Host.fresh input (some limit) false).after calls).stopsWithInput = false :=
    Host.after_keeps (P := fun host => host.input = input ∧ host.stopsWithInput = false) ⟨rfl, rfl⟩
      (fun a b same kept => ⟨(congrArg Clock.input same).trans kept.1,
        (congrArg Clock.stopsWithInput same).trans kept.2⟩) (fun _ _ kept => kept) calls
  rw [← host] at budget within recorded fixed
  exact ⟨fixed.1, budget, fixed.2, within, recorded⟩

namespace Play.Spends

variable {input : InputScript} {limit : Nat} {s : Session} (timed : s.Timed input limit)

include timed

theorem wait (config : Config) (duration : Int) :
    Spends input limit (Play.wait config duration) s (config.framesCovering duration) fun _ t =>
      t.scenery = s.scenery := by
  refine forSteps (P := fun t => t.scenery = s.scenery) (fun _ t timed same => ?_) 1 _ timed rfl
  refine (Play.Spends.advance timed).mono ?_
  rintro _ _ rfl
  exact same

/-- The frames of a fade change the overlay, and the background takes part in them. -/
theorem fadeFrames (first : Float32) (strength : Float32 → Float32) (frames : Nat) :
    Spends input limit (Play.fadeFrames first strength frames) s frames fun _ t =>
      t.backdrop = s.backdrop := by
  have single (step : Nat) (t : Session) (timed : t.Timed input limit)
      (same : t.backdrop = s.backdrop) : Spends input limit (do
        onHost fun host => host.setAlpha (strength (Float32.ofNat step / Float32.ofNat frames))
        Play.advance) t 1 fun _ t => t.backdrop = s.backdrop := by
    refine andThen timed rfl rfl fun timed => (Play.Spends.advance timed).mono ?_
    rintro _ _ rfl
    exact same
  unfold Play.fadeFrames
  by_cases none : frames = 0
  · rw [if_neg (by simp [none])]
    have nothing : Spends input limit (Pure.pure () : Play Unit) s 0 fun _ t =>
        t.backdrop = s.backdrop := pure timed rfl
    exact nothing.of_eq none.symm
  · rw [if_pos none]
    refine andThen timed rfl rfl fun timed => andThen timed rfl rfl fun timed =>
      andThen timed rfl rfl fun timed => ?_
    exact forSteps single 1 frames timed rfl

theorem fadeIn (duration : Expression) (frames : Nat) :
    Spends input limit (Play.fadeIn frames) s frames fun _ t =>
      t.scenery = s.scenery.after (.fadeIn duration) := by
  rw [fadeIn_eq]
  refine andThen timed (setBlending_eq true s) rfl fun timed => ?_
  refine andThen timed rfl rfl fun timed => ?_
  refine (fadeFrames timed _ _ frames).bind_still fun _ t timed same => ?_
  refine andThen timed rfl rfl fun timed => andThen timed rfl rfl fun timed =>
    andThen timed rfl rfl fun timed => still timed (setBlending_eq false _) rfl ?_
  exact congrArg (fun b : Variables × Option Music × Background =>
    (⟨b.1, b.2.1, b.2.2, some b.2.2, 0⟩ : Scenery)) same

theorem fadeOut (duration : Expression) (frames : Nat) :
    Spends input limit (Play.fadeOut frames) s frames fun _ t =>
      t.scenery = s.scenery.after (.fadeOut duration) := by
  rw [fadeOut_eq]
  refine andThen timed (setBlending_eq true s) rfl fun timed => ?_
  refine (fadeFrames timed _ _ frames).bind_still fun _ t timed same => ?_
  refine andThen timed rfl rfl fun timed => andThen timed rfl rfl fun timed => ?_
  refine still timed rfl rfl ?_
  exact congrArg (fun b : Variables × Option Music × Background =>
    let background := { b.2.2 with visible := false }
    (⟨b.1, b.2.1, background, some background, 1⟩ : Scenery)) same

/-- Music that is playing fades out before it stops. -/
theorem stopMusic (config : Config) :
    Spends input limit (Play.stopMusic config) s
      (Event.stopMusic.frames config s.vars s.host.music.isSome) fun _ t =>
      t.scenery = s.scenery.after .stopMusic := by
  unfold Play.stopMusic
  refine andThen (x := get) timed rfl rfl fun timed => ?_
  cases playing : s.host.music with
  | none =>
    have left : s.scenery = s.scenery.after .stopMusic := by
      simp [Session.scenery, Scenery.after, playing]
    simp only [playing, Option.isNone_none, if_true]
    exact still timed rfl rfl left
  | some music =>
    simp only [playing, Option.isNone_some, Bool.false_eq_true, if_false]
    refine (forSteps (P := fun t => t.scenery.after .stopMusic = s.scenery.after .stopMusic)
      (fun _ t timed same => ?_) 1 _ timed rfl).bind_still fun _ t timed same => ?_
    · refine andThen timed rfl rfl fun timed => (Play.Spends.advance timed).mono ?_
      rintro _ _ rfl
      exact same
    · exact andThen timed rfl rfl fun timed => still timed rfl rfl same

/-- What a timed event does itself. -/
theorem enact (game : Game) (inFrame : Bool) {event : Event} (lasts : event.isTimed) :
    Spends input limit (Play.enact game inFrame event) s
      (event.frames game.config s.vars s.host.music.isSome)
      fun next t => next = none ∧ t.scenery = s.scenery.after event := by
  cases event with
  | wait duration =>
    obtain ⟨notices, is⟩ := Reads.intOf duration s
    rw [Event.frames, ← Config.framesCovering_eq]
    exact alone (andThen timed is rfl fun timed => wait timed game.config _)
  | fadeIn duration =>
    obtain ⟨notices, is⟩ := Reads.intOf duration s
    rw [Event.frames, ← Config.framesWithin_eq]
    exact alone (andThen timed is rfl fun timed => fadeIn timed duration _)
  | fadeOut duration =>
    obtain ⟨notices, is⟩ := Reads.intOf duration s
    rw [Event.frames, ← Config.framesWithin_eq]
    exact alone (andThen timed is rfl fun timed => fadeOut timed duration _)
  | stopMusic => exact alone (stopMusic timed game.config)
  | _ => exact nomatch lasts

theorem runEvent (game : Game) (room : Nat) (inFrame : Bool) {event : Event}
    (lasts : event.isTimed) :
    Spends input limit (Play.runEvent game (room + 1) inFrame event) s
      (event.frames game.config s.vars s.host.music.isSome)
      fun _ t => t.scenery = s.scenery.after event := by
  refine andThen timed rfl rfl fun timed => ?_
  refine (enact timed game inFrame lasts).bind_still fun next t timed after => ?_
  obtain ⟨rfl, same⟩ := after
  exact pure timed same

/-- Timed events take their frames one after the other. -/
theorem runEvents (game : Game) (room : Nat) (inFrame : Bool) {events : List Event}
    (last : ∀ event ∈ events, event.isTimed) :
    Spends input limit (Play.runEvents game (room + 1) inFrame events) s
      (framesOf game.config s.vars s.host.music.isSome events)
      fun _ t => t.scenery = events.foldl Scenery.after s.scenery := by
  induction events generalizing s with
  | nil => exact pure timed rfl
  | cons event events ih =>
    obtain ⟨lasts, last⟩ := List.forall_mem_cons.mp last
    refine (runEvent timed game room inFrame lasts).bind fun _ t timed same => ?_
    have vars : t.vars = s.vars := (congrArg (·.vars) same).trans (s.scenery.vars_after event)
    have playing : t.host.music.isSome = (s.host.music.isSome && event ≠ .stopMusic) :=
      (congrArg (·.music.isSome) same).trans (s.scenery.isSome_music_after event)
    have rest := ih timed last
    rw [vars, playing, same] at rest
    exact rest

end Play.Spends

/-! ### The arithmetic of machine words -/

/-- The number that an expression stands for has 32 bits. -/
theorem Expression.signed32_int (vars : Variables) (e : Expression) :
    Word.Signed32 (e.int vars) := by
  have limit : Number.wordLimit = 2147483648 := by decide
  have clamped (negative : Bool) (n : Nat) : Word.Signed32 (Number.clampWord negative n) := by
    unfold Number.clampWord Word.Signed32
    rw [limit]
    split <;> omega
  have whole (d : Number.Decimal) : Word.Signed32 (d.whole?.getD 0) := by
    unfold Number.Decimal.whole?
    dsimp only
    split_ifs
    · decide
    · decide
    · decide
    · exact clamped _ _
  unfold Expression.int
  cases e.value? vars with
  | none => decide
  | some v =>
    change Word.Signed32 v.int
    unfold Value.int
    dsimp only
    split
    · exact whole _
    · split <;> decide

/-- A quotient of numbers without a sign does not outgrow the first of them. -/
theorem Word.quotient?_eq {n d : Int} (nonneg : 0 ≤ n) (word : n ≤ 9223372036854775807)
    (pos : 0 < d) : quotient? n d = some (n / d) := by
  have less := Int.ediv_le_self d nonneg
  have positive := Int.ediv_nonneg nonneg pos.le
  rw [quotient?, if_neg (by omega), Int.tdiv_eq_ediv_of_nonneg nonneg]
  exact if_pos (by omega)

namespace Config

open Word

/-- `framesCovering` in machine words: sums and the quotient have 64 bits. -/
def framesCoveringOnWords (config : Config) (duration : Int) : Option Nat := do
  let sum ← signed64? (max duration 0 + config.tick)
  let rounded ← signed64? (sum - 1)
  let frames ← quotient? rounded config.tick
  return frames.toNat

/-- `framesWithin` in machine words: the quotient has 32 bits, and loses its sign. -/
def framesWithinOnWords (config : Config) (duration : Int) : Option Nat :=
  if duration ≤ 0 then some 0
  else do
    let frames ← quotient? duration config.tick
    let frames ← signed32? frames
    unsigned32? frames.toNat

/-- Nothing overflows on the way to the frames of a wait. -/
theorem framesCoveringOnWords_eq {config : Config} {duration : Int} (tick : Signed32 config.frameMs)
    (word : Signed32 duration) :
    config.framesCoveringOnWords duration = some (config.framesCovering duration) := by
  have pos := config.tick_pos
  have small : config.tick ≤ 2147483647 := by
    unfold Signed32 at tick
    unfold Config.tick
    omega
  unfold Signed32 at word
  have sum : signed64? (max duration 0 + config.tick) = some (max duration 0 + config.tick) :=
    if_pos (by omega)
  have rounded : signed64? (max duration 0 + config.tick - 1) =
      some (max duration 0 + config.tick - 1) := if_pos (by omega)
  have quotient := quotient?_eq (n := max duration 0 + config.tick - 1) (by omega) (by omega) pos
  rw [framesCoveringOnWords, sum]
  simp only [Option.bind_eq_bind, Option.bind_some, rounded, quotient]
  rfl

/-- Nor on the way to those of a fade. -/
theorem framesWithinOnWords_eq {config : Config} {duration : Int} (word : Signed32 duration) :
    config.framesWithinOnWords duration = some (config.framesWithin duration) := by
  unfold Signed32 at word
  unfold framesWithinOnWords framesWithin
  split
  · rfl
  · rename_i positive
    have less := Int.ediv_le_self config.tick (a := duration) (by omega)
    have nonneg := Int.ediv_nonneg (a := duration) (by omega) config.tick_pos.le
    have quotient := quotient?_eq (n := duration) (by omega) (by omega) config.tick_pos
    have narrow : signed32? (duration / config.tick) = some (duration / config.tick) :=
      if_pos (by unfold Signed32; omega)
    have unsigned : unsigned32? (duration / config.tick).toNat =
        some (duration / config.tick).toNat := by
      have few : (duration / config.tick).toNat < 2147483648 := by omega
      exact if_pos (few.trans (by decide))
    simp only [quotient, narrow, unsigned, Option.bind_eq_bind, Option.bind_some]

end Config

/-! ### The law of timed events -/

/-- What timed events leave of the music and of the picture. -/
structure Session.LeftBy (events : List Event) (s t : Session) : Prop where
  vars : t.vars = s.vars
  music : t.host.music = if .stopMusic ∈ events then none else s.host.music
  /-- After the last fade the background is shown without overlay, or hidden behind a full one. -/
  shown {before later : List Event} {duration : Expression}
    (is : events = before ++ .fadeIn duration :: later)
    (last : ∀ event ∈ later, event.fades = false) :
    t.stage.background = ⟨s.stage.background.name, true, false⟩ ∧
      t.host.background = some t.stage.background ∧ t.host.alpha = 0
  hidden {before later : List Event} {duration : Expression}
    (is : events = before ++ .fadeOut duration :: later)
    (last : ∀ event ∈ later, event.fades = false) :
    t.stage.background = ⟨s.stage.background.name, false, false⟩ ∧
      t.host.background = some t.stage.background ∧ t.host.alpha = 1
  unfaded (others : ∀ event ∈ events, event.fades = false) :
    t.stage.background = s.stage.background ∧ t.host.background = s.host.background ∧
      t.host.alpha = s.host.alpha

theorem Session.leftBy_of_scenery {events : List Event} {s t : Session}
    (same : t.scenery = events.foldl Scenery.after s.scenery) : s.LeftBy events t := by
  have background : t.stage.background = t.scenery.background := rfl
  have shown : t.host.background = t.scenery.shown := rfl
  have alpha : t.host.alpha = t.scenery.alpha := rfl
  constructor
  case vars => exact (congrArg (·.vars) same).trans (Scenery.vars_foldl _ _)
  case music => exact (congrArg (·.music) same).trans (Scenery.music_foldl _ _)
  case shown =>
    rintro before later duration rfl last
    rw [List.foldl_append, List.foldl_cons] at same
    obtain ⟨kept, kept', kept''⟩ := Scenery.picture_foldl
      ((before.foldl Scenery.after s.scenery).after (.fadeIn duration)) last
    rw [background, shown, alpha, same, kept, kept', kept'']
    refine ⟨?_, rfl, rfl⟩
    exact congrArg (fun name => (⟨name, true, false⟩ : Background))
      (Scenery.name_foldl s.scenery before)
  case hidden =>
    rintro before later duration rfl last
    rw [List.foldl_append, List.foldl_cons] at same
    obtain ⟨kept, kept', kept''⟩ := Scenery.picture_foldl
      ((before.foldl Scenery.after s.scenery).after (.fadeOut duration)) last
    rw [background, shown, alpha, same, kept, kept', kept'']
    refine ⟨?_, rfl, rfl⟩
    exact congrArg (fun name => (⟨name, false, false⟩ : Background))
      (Scenery.name_foldl s.scenery before)
  case unfaded =>
    intro others
    rw [background, shown, alpha, same]
    exact Scenery.picture_foldl s.scenery others

/-- How a list goes that takes a number of frames, on a host that plays frames up to a limit. -/
structure Session.GoesOnTime (game : Game) (list : Handle) (inFrame : Bool) (limit frames : Nat)
    (s : Session) : Prop where
  ends (enough : s.host.frame + frames ≤ limit) :
    ∃ t, Play.runList game list inFrame s = .ok () t ∧ t.host.frame = s.host.frame + frames ∧
      s.LeftBy (game.graph.events list) t
  stops (short : limit < s.host.frame + frames) :
    ∃ t, Play.runList game list inFrame s = .error (.host (.budgetExhausted limit)) t ∧
      t.host.frame = limit
  /-- In machine words the frames of a duration come out the same. -/
  fits (tick : Word.Signed32 game.config.frameMs) (duration : Expression) :
    game.config.framesCoveringOnWords (duration.int s.vars) =
        some (game.config.framesCovering (duration.int s.vars)) ∧
      game.config.framesWithinOnWords (duration.int s.vars) =
        some (game.config.framesWithin (duration.int s.vars))

/-- **Timed events last as long as they say.** A list of waits, fades and stops of the music takes
the whole frames that cover each wait, those that fit into each fade, and those of music that is
playing to fade out; on a host whose budget does not allow these it stops exactly at the budget. -/
theorem goesOnTime_of_timed {game : Game} {list : Handle} (deep : 1 ≤ game.config.maxDepth)
    (timed : ∀ event ∈ game.graph.events list, event.isTimed) {input : InputScript} {limit : Nat}
    {calls : List HostCall} {s : Session}
    (host : s.host = (Host.fresh input (some limit) false).after calls) (inFrame : Bool) :
    s.GoesOnTime game list inFrame limit
      (framesOf game.config s.vars s.host.music.isSome (game.graph.events list)) := by
  have clock : s.Timed input limit := .of_calls host
  obtain ⟨room, is⟩ : ∃ room, game.config.maxDepth = room + 1 := ⟨_, (Nat.sub_add_cancel deep).symm⟩
  have spends := Play.Spends.runEvents clock game room inFrame timed
  rw [← is] at spends
  constructor
  case ends =>
    intro enough
    obtain ⟨_, t, ends, -, frame, same⟩ := spends.ends enough
    exact ⟨t, ends, frame, Session.leftBy_of_scenery same⟩
  case stops => exact spends.stops
  case fits =>
    intro tick duration
    have word := duration.signed32_int s.vars
    exact ⟨Config.framesCoveringOnWords_eq tick word, Config.framesWithinOnWords_eq word⟩

/-- A show that is over when the music is. -/
def Game.curtain : Game where
  graph :=
    { SceneGraph.empty with
      lists :=
        [[], [.fadeIn (.ofInt 40), .wait (.ofInt 40), .stopMusic, .stopMusic,
          .fadeOut (.ofInt (-5))]] }
  config := .standard

/-- The show takes two frames, three and ten: music that has been stopped is not stopped again. -/
theorem goesOnTime_of_timed_curtain :
    let host := (Host.fresh .empty (some 20) false).after
      [.present (.playMusic ⟨"waltz", 1, true⟩), .advance]
    let s := Session.start host .empty (.bare .fallback)
    (∀ event ∈ Game.curtain.graph.events ⟨1⟩, event.isTimed) ∧ s.host.frame = 1 ∧
      s.GoesOnTime Game.curtain ⟨1⟩ false 20 15 := by
  intro host s
  have timed : ∀ event ∈ Game.curtain.graph.events ⟨1⟩, event.isTimed := by decide
  have frames : framesOf Game.curtain.config s.vars s.host.music.isSome
      (Game.curtain.graph.events ⟨1⟩) = 15 := by
    change framesOf .standard .empty true [.fadeIn (.ofInt 40), .wait (.ofInt 40), .stopMusic,
      .stopMusic, .fadeOut (.ofInt (-5))] = 15
    simp only [framesOf, Event.frames, ← Config.framesCovering_eq, ← Config.framesWithin_eq]
    decide +kernel
  have law := goesOnTime_of_timed (by decide) timed (s := s) rfl false
  rw [frames] at law
  exact ⟨timed, rfl, law⟩

end Overworld
