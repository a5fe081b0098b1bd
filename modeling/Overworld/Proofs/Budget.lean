import Overworld.Proofs.Calls

/-!
What a smaller budget of frames changes.

Nothing that is played reads the budget or the input of a frame to come. So a run with a smaller
budget goes as one with a larger budget goes, on any input that is the same for the frames that the
smaller budget allows, up to the moment at which the smaller budget is used up; and from then on the
other run takes nothing back.
-/

namespace Overworld

open Simulation

/-! ### Another budget and another input -/

/-- The session with another input and another budget of frames. -/
def Session.withTime (s : Session) (input : InputScript) (budget : Option Nat) : Session :=
  { s with host := { s.host with input := input, budget := budget } }

theorem Stage.sprites_setBlending_congr (stage : Stage) (blending : Bool) {a b : Host}
    (same : a.sprites = b.sprites) :
    (stage.setBlending a blending).sprites = (stage.setBlending b blending).sprites := by
  unfold setBlending
  generalize (stage.player.map (·.sprite)).toList ++ stage.actors.map (·.sprite) = entities
  induction entities generalizing a b with
  | nil => exact same
  | cons h entities ih => exact ih (by simp only [Host.setBlending, Host.updateSprite, same])

theorem Host.sprites_foldl_destroySprite_congr (gone : List SpriteHandle) {a b : Host}
    (same : a.sprites = b.sprites) :
    (gone.foldl destroySprite a).sprites = (gone.foldl destroySprite b).sprites := by
  induction gone generalizing a b with
  | nil => exact same
  | cons h gone ih => exact ih (by simp only [destroySprite, same])

/-- No deed looks at the input or the budget. -/
theorem Deed.apply_withTime (s : Session) (d : Deed) (input : InputScript) (budget : Option Nat) :
    d.apply (s.withTime input budget) = (d.apply s).withTime input budget := by
  cases d with
  | present change => cases change <;> rfl
  | blend blending =>
    have same : (s.stage.setBlending (s.withTime input budget).host blending).sprites =
        (s.stage.setBlending s.host blending).sprites :=
      s.stage.sprites_setBlending_congr blending (by rfl)
    exact congrArg (fun sprites =>
      Session.withTime { s with host := { s.host with sprites := sprites } } input budget) same
  | _ => rfl

theorem Arrival.apply_withTime (game : Game) (s : Session) (a : Arrival) (input : InputScript)
    (budget : Option Nat) :
    a.apply game (s.withTime input budget) = (a.apply game s).withTime input budget := by
  cases a <;> rfl

theorem Session.entering_withTime (game : Game) (s : Session) (name : String) (input : InputScript)
    (budget : Option Nat) :
    (s.withTime input budget).entering game name = (s.entering game name).withTime input budget := by
  have same : (s.stage.sprites.foldl Host.destroySprite (s.withTime input budget).host).sprites =
      (s.stage.sprites.foldl Host.destroySprite s.host).sprites :=
    Host.sprites_foldl_destroySprite_congr s.stage.sprites (by rfl)
  simp only [entering, withTime] at same ⊢
  rw [same]

/-- A session whose host has an input and may still play a number of frames, all in all. -/
structure Session.Timed (s : Session) (input : InputScript) (limit : Nat) : Prop where
  input : s.host.input = input
  budget : s.host.budget = some limit
  goesOn : s.host.stopsWithInput = false
  within : s.host.frame ≤ limit
  recorded : s.host.past.length = s.host.frame

namespace Session.Timed

variable {s t : Session} {input : InputScript} {limit : Nat}

theorem of_clock_eq (h : s.Timed input limit) (same : t.host.clock = s.host.clock) :
    t.Timed input limit := by
  simp only [Host.clock, Clock.mk.injEq] at same
  obtain ⟨input, -, frame, budget, stops, past⟩ := same
  exact ⟨input.trans h.input, budget.trans h.budget, stops.trans h.goesOn, frame ▸ h.within,
    past ▸ frame ▸ h.recorded⟩

/-- The host stops when its budget is used up, and for no other reason. -/
theorem stop?_eq (h : s.Timed input limit) :
    s.host.stop? = if limit ≤ s.host.frame then some (.budgetExhausted limit) else none := by
  simp [Host.stop?, h.budget, h.goesOn]

theorem frame_lt (h : s.Timed input limit) (goes : s.host.stop? = none) : s.host.frame < limit := by
  rw [h.stop?_eq] at goes
  split at goes
  · exact nomatch goes
  · omega

/-- Where the host stops its budget is used up. -/
theorem exhausted (h : s.Timed input limit) {stop : HostStop} (stops : s.host.stop? = some stop) :
    stop = .budgetExhausted limit ∧ s.host.frame = limit := by
  have within := h.within
  rw [h.stop?_eq] at stops
  split at stops
  · cases stops
    exact ⟨rfl, by omega⟩
  · exact nomatch stops

theorem frame (h : s.Timed input limit) (goes : s.host.stop? = none) :
    ({ s with host := s.host.afterFrame } : Session).Timed input limit :=
  ⟨h.input, h.budget, h.goesOn, h.frame_lt goes, congrArg (· + 1) h.recorded⟩

/-- With a larger budget the host goes on where it does with its own. -/
theorem stop?_withTime (h : s.Timed input limit) (goes : s.host.stop? = none)
    (input' : InputScript) {more : Nat} (le : limit ≤ more) :
    (s.withTime input' (some more)).host.stop? = none := by
  have left := h.frame_lt goes
  simp only [Session.withTime, Host.stop?, h.goesOn]
  rw [if_neg (by omega)]
  rfl

/-- A frame after which the same buttons are held is the same on another input. -/
theorem afterFrame_withTime (h : s.Timed input limit) {input' : InputScript}
    (same : input.heldAt (s.host.frame + 1) = input'.heldAt (s.host.frame + 1))
    (budget : Option Nat) :
    { s.withTime input' budget with host := (s.withTime input' budget).host.afterFrame } =
      ({ s with host := s.host.afterFrame } : Session).withTime input' budget := by
  simp only [Session.withTime, Host.afterFrame, h.input, same]
  rfl

end Session.Timed

/-! ### Two budgets side by side -/

/-- A halt that the game comes to by itself, whatever the host does. -/
def Halt.Own (e : Halt) : Prop := ∀ stop, e ≠ .host stop

theorem Halt.own_variable (e : VariableError) : Own (.variable e) := fun _ => nofun

theorem Halt.own_nestingTooDeep (limit : Nat) : Own (.nestingTooDeep limit) := fun _ => nofun

/-- A game beside itself on a host with a larger budget, whose input is the same for the frames of
the smaller one. -/
def budgets (game : Game) {input input' : InputScript} {n m : Nat} (le : n ≤ m)
    (agree : ∀ frame ≤ n, input.heldAt frame = input'.heldAt frame) :
    Simulation game game.config.maxDepth where
  related s t := t = s.withTime input' (some m) ∧ s.Timed input n
  mayEnd := Halt.Own
  mayCut e s t := e = .host (.budgetExhausted n) ∧ s.host.frame = n ∧ s.Timed input n ∧ s.Grown t
  stage h := by rw [h.1]; rfl
  vars h := by rw [h.1]; rfl
  pending h := by rw [h.1]; rfl
  states h := by rw [h.1]; rfl
  music h := by rw [h.1]; rfl
  deed {_ _ d} _ h _ := ⟨by rw [h.1, d.apply_withTime], h.2.of_clock_eq (d.clock_apply _)⟩
  frame {s t} h goes := by
    obtain ⟨rfl, timed⟩ := h
    exact ⟨timed.stop?_withTime goes input' le,
      timed.afterFrame_withTime (agree _ (timed.frame_lt goes)) (some m), timed.frame goes⟩
  stop {s t stop} h stops := by
    obtain ⟨rfl, timed⟩ := h
    obtain ⟨rfl, last⟩ := timed.exhausted stops
    exact .inr ⟨rfl, last, timed, .of_eq rfl rfl rfl rfl rfl rfl⟩
  undeclared := Halt.own_variable
  tooDeep := Halt.own_nestingTooDeep _
  sound := .inl ⟨nofun, nofun⟩
  levels := .inl rfl
  grown h after := ⟨h.1, h.2.1, h.2.2.1, h.2.2.2.trans after⟩

/-- What comes after a visit takes nothing of it back. -/
theorem grown_of_visit (game : Game) (scenes : Nat) (name : String) (s : Session) :
    (Play.final (Play.visit game name s)).Grown
      (Play.final (Play.playScenes game (scenes + 1) name s)) := by
  rw [Play.playScenes_succ]
  cases Play.visit game name s with
  | ok request t => exact (course_playScenes game scenes request.target t).grown
  | error e t => cases e <;> exact .refl t

/-- Nor does summing a run up. -/
theorem grown_of_playScenes (game : Game) (s : Session) :
    (Play.final (Play.playScenes game (Play.sceneCeiling - s.entered) game.graph.start s)).Grown
      (Play.final (Play.run game s)) := by
  rw [Play.run_eq]
  cases Play.playScenes game (Play.sceneCeiling - s.entered) game.graph.start s with
  | ok stop t => exact .deed t (.note _)
  | error e t => exact .refl t

section

variable {game : Game} {input input' : InputScript} {n m : Nat} (le : n ≤ m)
  (agree : ∀ frame ≤ n, input.heldAt frame = input'.heldAt frame)

theorem enters_budgets (name : String) : (budgets game le agree).Enters name :=
  fun s t h => ⟨by rw [h.1, s.entering_withTime], h.2.of_clock_eq rfl⟩

theorem does_budgets (d : Deed) : (budgets game le agree).Does d :=
  fun s t h _ => ⟨by rw [h.1, d.apply_withTime], h.2.of_clock_eq (d.clock_apply s)⟩

theorem arrives_budgets : (budgets game le agree).Arrives :=
  fun s t a h _ => ⟨by rw [h.1, a.apply_withTime], h.2.of_clock_eq (a.clock_apply game s)⟩

/-- From scene to scene the runs go alike, or the first is cut short by its budget. -/
theorem playScenes_budgets (scenes : Nat) (name : String) {s t : Session}
    (h : (budgets game le agree).related s t) :
    match Play.playScenes game scenes name s with
    | .ok stop u => stop = .budgetExhausted n ∧ u.host.frame = n ∧ u.Timed input n ∧
        u.Grown (Play.final (Play.playScenes game scenes name t))
    | .error e u => e.Own ∧
        ∃ v, Play.playScenes game scenes name t = .error e v ∧
          (budgets game le agree).related u v := by
  induction scenes generalizing name s t with
  | zero => exact ⟨nofun, t, rfl, h⟩
  | succ scenes ih =>
    have tracks : (budgets game le agree).Tracks (Play.visit game name) (Play.visit game name) :=
      .visit (enters_budgets le agree name) (arrives_budgets le agree) (does_budgets le agree)
    have joined := tracks.joined h
    have after := grown_of_visit game scenes name t
    simp only [Play.playScenes_succ] at after ⊢
    generalize Play.visit game name s = r, Play.visit game name t = r' at joined after
    cases joined with
    | ok request related => exact ih request.target related
    | @error u v e related may =>
      cases e with
      | host stop => exact absurd rfl (may stop)
      | _ => exact ⟨may, v, rfl, related⟩
    | cut cut =>
      obtain ⟨rfl, last, timed, grown⟩ := cut
      exact ⟨rfl, last, timed, grown.trans after⟩

end

/-- Before their first scene the runs are alike. -/
theorem related_budgets {game : Game} {input input' : InputScript} {n m : Nat} {s t : Session}
    (le : n ≤ m) (agree : ∀ frame ≤ n, input.heldAt frame = input'.heldAt frame)
    (start : game.session (.fresh input (some n) false) = .ok s)
    (start' : game.session (.fresh input' (some m) false) = .ok t) :
    (budgets game le agree).related s t := by
  obtain ⟨vars, fresh, rfl⟩ := Game.session_eq_ok_iff.mp start
  obtain ⟨vars', fresh', rfl⟩ := Game.session_eq_ok_iff.mp start'
  cases fresh.symm.trans fresh'
  refine ⟨?_, rfl, rfl, rfl, Nat.zero_le _, rfl⟩
  simp only [Session.start, Session.withTime, Host.fresh, agree 0 (Nat.zero_le _)]

/-! ### The law of budgets -/

/-- How a run that may play a number of frames compares with another one. -/
structure CutsShort (game : Game) (n : Nat) (s t : Session) : Prop where
  /-- Its error is one of the game, and that of the other run, after the same frames, sounds,
  dialogs and music and with the same variables. -/
  error {e : Halt} {u : Session} (fails : Play.run game s = .error e u) :
    ((∃ error, e = .variable error) ∨ ∃ limit, e = .nestingTooDeep limit) ∧
      ∃ v, Play.run game t = .error e v ∧ v.vars = u.vars ∧ v.host.frames = u.host.frames ∧
        v.host.sounds = u.host.sounds ∧ v.host.dialogs = u.host.dialogs ∧
        v.host.musicStarted = u.host.musicStarted
  /-- Otherwise it has played its frames and no more, and the other one, whether it fails or not,
  shows and plays the same first. -/
  ok {summary : RunSummary} {u : Session} (ends : Play.run game s = .ok summary u) :
    let v := Play.final (Play.run game t)
    summary.stop = .budgetExhausted n ∧ u.host.frames.length = n ∧ summary.frames = n ∧
      u.host.frames = v.host.frames.take n ∧ u.host.sounds.toList <+: v.host.sounds.toList ∧
      u.host.dialogs.toList <+: v.host.dialogs.toList ∧
      u.host.musicStarted.toList <+: v.host.musicStarted.toList ∧ summary.scenesEntered ≤ v.entered

/-- **A budget only cuts a run short.** A run that returns compares so with a run with a larger
budget of frames, on any input that is the same for the frames that the smaller budget allows. -/
theorem cutsShort_of_le {game : Game} {input input' : InputScript} {n m : Nat} {s t : Session}
    (le : n ≤ m) (agree : ∀ frame ≤ n, input.heldAt frame = input'.heldAt frame)
    (start : game.session (.fresh input (some n) false) = .ok s)
    (start' : game.session (.fresh input' (some m) false) = .ok t)
    (returns : Play.Returns (Play.run game s)) : CutsShort game n s t := by
  have related := related_budgets le agree start start'
  have alike := playScenes_budgets le agree (Play.sceneCeiling - s.entered) game.graph.start related
  have entered : t.entered = s.entered := by rw [related.1]; rfl
  have run := Play.run_eq game s
  cases played : Play.playScenes game (Play.sceneCeiling - s.entered) game.graph.start s with
  | ok stop u =>
    rw [played] at alike run
    obtain ⟨rfl, last, timed, grown⟩ := alike
    refine ⟨fun fails => (by cases fails.symm.trans run), fun ends => ?_⟩
    cases ends.symm.trans run
    have length : u.host.frames.length = n := by
      rw [Host.frames, List.length_reverse, timed.recorded, last]
    have whole : u.Grown (Play.final (Play.run game t)) := by
      rw [← entered] at grown
      exact grown.trans (grown_of_playScenes game t)
    have shown : u.host.frames <+: (Play.final (Play.run game t)).host.frames :=
      List.reverse_prefix.mpr whole.past
    rw [List.prefix_iff_eq_take, length] at shown
    exact ⟨rfl, length, last, shown, whole.sounds, whole.dialogs, whole.musicStarted, whole.entered⟩
  | error e u =>
    rw [played] at alike run
    obtain ⟨own, v, played', rfl, timed⟩ := alike
    refine ⟨fun fails => ?_, fun ends => (by cases ends.symm.trans run)⟩
    cases fails.symm.trans run
    have fails' : Play.run game t = .error e (u.withTime input' (some m)) := by
      rw [Play.run_eq, entered, played']
    rw [run, Play.returns_error_iff] at returns
    refine ⟨?_, _, fails', rfl, rfl, rfl, rfl, rfl⟩
    cases e with
    | «variable» error => exact .inl ⟨error, rfl⟩
    | nestingTooDeep limit => exact .inr ⟨limit, rfl⟩
    | host stop => exact absurd rfl (own stop)
    | noTileSize => exact returns.elim
    | endless => exact returns.elim

/-- In the sample one player goes on to the right and another turns up after six frames, on their
way through the gate. -/
theorem cutsShort_of_le_sample :
    Play.Returns (Play.run Game.sample (.sample (InputScript.empty.hold [.right] 9) 6)) ∧
      CutsShort Game.sample 6 (.sample (InputScript.empty.hold [.right] 9) 6)
        (.sample ((InputScript.empty.hold [.right] 7).hold [.up] 2) 9) := by
  have returns :
      Play.Returns (Play.run Game.sample (.sample (InputScript.empty.hold [.right] 9) 6)) := by
    decide +kernel
  have start : Game.sample.session (.fresh (InputScript.empty.hold [.right] 9) (some 6) false) =
      .ok (.sample (InputScript.empty.hold [.right] 9) 6) := rfl
  have start' : Game.sample.session
      (.fresh ((InputScript.empty.hold [.right] 7).hold [.up] 2) (some 9) false) =
      .ok (.sample ((InputScript.empty.hold [.right] 7).hold [.up] 2) 9) := rfl
  exact ⟨returns, cutsShort_of_le (by decide) (by decide) start start' returns⟩

end Overworld
