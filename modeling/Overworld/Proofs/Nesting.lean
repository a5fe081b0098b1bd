import Overworld.Proofs.Calls

/-!
The limit to the nesting of events.

`Play.runEvent` counts the levels down that are left. Counting the events up that are being run, one
inside the other, and back when each of them is over, however it ends, comes to the same
(`CountedPlay.follows_runEvent`): the count after a list is the one before it. So nothing sees the
limit until it is reached, and a game in which it is not goes on alike with a higher one.
-/

namespace Overworld

open Simulation

/-! ### Counting the events that are being run -/

/-- A session with the number of events that are being run, one inside the other. -/
structure CountedSession where
  session : Session
  depth : Nat

/-- An action in such a session. -/
abbrev CountedPlay := EStateM Halt CountedSession

namespace CountedPlay

variable {α β : Type}

/-- What an action came to, with a count beside it. -/
def atDepth (depth : Nat) : EStateM.Result Halt Session α → EStateM.Result Halt CountedSession α
  | .ok a s => .ok a ⟨s, depth⟩
  | .error e s => .error e ⟨s, depth⟩

/-- Do something that may look at the count and leaves it as it is. -/
def uncounted (act : Nat → Play α) : CountedPlay α := fun s =>
  atDepth s.depth (act s.depth s.session)

/-- Count one event less. -/
def oneLess : EStateM.Result Halt CountedSession α → EStateM.Result Halt CountedSession α
  | .ok a s => .ok a { s with depth := s.depth - 1 }
  | .error e s => .error e { s with depth := s.depth - 1 }

/-- Do something that counts as one event more until it is over, unless there are too many. -/
def counted (limit : Nat) (act : CountedPlay α) : CountedPlay α := fun s =>
  if limit ≤ s.depth then .error (.nestingTooDeep limit) s
  else oneLess (act { s with depth := s.depth + 1 })

/-- Run an event, at most a number of levels deep. -/
def runEvent (game : Game) : (levels : Nat) → (inFrame : Bool) → Event → CountedPlay Unit
  | 0, _, _ => throw .endless
  | levels + 1, inFrame, event => counted game.config.maxDepth do
    let next ← uncounted fun depth => do
      Play.recordEvent event inFrame depth
      Play.enact game inFrame event
    match next with
    | none => return
    | some (list, inFrame) => (game.graph.events list).forM (runEvent game levels inFrame)

/-- Run an event list. No event of it can be deeper than the limit allows. -/
def runList (game : Game) (list : Handle) (inFrame : Bool) : CountedPlay Unit :=
  (game.graph.events list).forM (runEvent game (game.config.maxDepth + 1) inFrame)

/-! ### The count is kept -/

/-- An action that does what another one does, and ends with the count with which it started. -/
def Follows (depth : Nat) (x : Play α) (y : CountedPlay α) : Prop :=
  ∀ s : Session, y ⟨s, depth⟩ = atDepth depth (x s)

theorem bind_apply (x : CountedPlay α) (f : α → CountedPlay β) (s : CountedSession) :
    (x >>= f) s =
      match x s with
      | .ok a t => f a t
      | .error e t => .error e t := by
  change EStateM.bind x f s = _
  unfold EStateM.bind
  cases x s <;> rfl

namespace Follows

variable {depth : Nat}

theorem pure (a : α) : Follows depth (Pure.pure a) (Pure.pure a) := fun _ => rfl

theorem uncounted (act : Nat → Play α) : Follows depth (act depth) (uncounted act) := fun _ => rfl

theorem bind {x : Play α} {y : CountedPlay α} {f : α → Play β} {g : α → CountedPlay β}
    (h : Follows depth x y) (next : ∀ a, Follows depth (f a) (g a)) :
    Follows depth (x >>= f) (y >>= g) := by
  intro s
  rw [Play.bind_apply, bind_apply, h s]
  cases x s with
  | ok a t => exact next a t
  | error e t => rfl

theorem forM {f : β → Play Unit} {g : β → CountedPlay Unit} (h : ∀ x, Follows depth (f x) (g x))
    (xs : List β) : Follows depth (xs.forM f) (xs.forM g) := by
  induction xs with
  | nil => exact .pure ()
  | cons x xs ih => exact (h x).bind fun _ => ih

/-- What is done one level deeper is counted back when it is over. -/
theorem counted {limit : Nat} {x : Play α} {y : CountedPlay α} (inside : depth < limit)
    (h : Follows (depth + 1) x y) : Follows depth x (counted limit y) := by
  intro s
  simp only [CountedPlay.counted, if_neg (Nat.not_le.mpr inside), h s]
  cases x s <;> rfl

end Follows

/-- Counting up or counting the levels down that are left comes to the same. -/
theorem follows_runEvent (game : Game) {levels depth : Nat}
    (enough : game.config.maxDepth - depth < levels) (inFrame : Bool) (event : Event) :
    Follows depth (Play.runEvent game (game.config.maxDepth - depth) inFrame event)
      (runEvent game levels inFrame event) := by
  induction levels generalizing depth inFrame event with
  | zero => exact absurd enough (Nat.not_lt_zero _)
  | succ levels ih =>
    by_cases inside : depth < game.config.maxDepth
    · obtain ⟨room, left⟩ : ∃ room, game.config.maxDepth - depth = room + 1 :=
        ⟨game.config.maxDepth - depth - 1, by omega⟩
      have here : game.config.maxDepth - room = depth + 1 := by omega
      have below : game.config.maxDepth - (depth + 1) = room := by omega
      have enough : game.config.maxDepth - (depth + 1) < levels := by omega
      rw [left, Play.runEvent, runEvent, here]
      refine .counted inside (.bind (x := do
        Play.recordEvent event inFrame (depth + 1)
        Play.enact game inFrame event) (.uncounted _) fun next => ?_)
      cases next with
      | none => exact .pure ()
      | some list =>
        have nested := ih enough list.2
        rw [below] at nested
        exact .forM nested _
    · intro s
      have none : game.config.maxDepth - depth = 0 := by omega
      rw [none, runEvent, counted, if_pos (Nat.not_lt.mp inside)]
      rfl

theorem follows_runList (game : Game) (depth : Nat) (list : Handle) (inFrame : Bool) :
    Follows depth
      (Play.runEvents game (game.config.maxDepth - depth) inFrame (game.graph.events list))
      (runList game list inFrame) :=
  .forM (fun event => follows_runEvent game (by omega) inFrame event) _

end CountedPlay

/-! ### A higher limit -/

/-- An action came to the limit of nesting. -/
def Play.TooDeep {α : Type} : EStateM.Result Halt Session α → Prop
  | .error (.nestingTooDeep _) _ => True
  | _ => False

instance {α : Type} : DecidablePred (Play.TooDeep (α := α))
  | .error (.nestingTooDeep _) _ => .isTrue trivial
  | .ok _ _ | .error (.variable _) _ | .error (.host _) _ | .error .noTileSize _
  | .error .endless _ => .isFalse id

/-- A game beside itself with a higher limit: both runs go alike, or the first has come to its
limit. -/
def deepening (game : Game) {limit : Nat} (le : game.config.maxDepth ≤ limit) :
    Simulation game limit where
  related s t := t = s
  mayEnd _ := True
  mayCut e _ _ := e = .nestingTooDeep game.config.maxDepth
  stage same := by rw [same]
  vars same := by rw [same]
  pending same := by rw [same]
  states same := by rw [same]
  music same := by rw [same]
  deed _ same _ := by rw [same]
  frame same goes := ⟨by rw [same, goes], by rw [same]⟩
  stop same stops := .inl ⟨by rw [same, stops], trivial⟩
  undeclared _ := trivial
  tooDeep := trivial
  sound := .inl ⟨trivial, trivial⟩
  levels := (Nat.eq_or_lt_of_le le).imp Eq.symm fun more => ⟨more, fun _ => rfl⟩
  grown cut _ := cut

section

variable {game : Game} {limit : Nat} (le : game.config.maxDepth ≤ limit)
include le

/-- What tracks itself with a higher limit comes to the same unless it comes to its own. -/
theorem Simulation.Tracks.eq_of_shallow {α : Type} {x y : Play α} {s : Session}
    (h : (deepening game le).Tracks x y) (shallow : ¬Play.TooDeep (x s)) : y s = x s := by
  have joined : (deepening game le).Joined (x s) (y s) := h.joined rfl
  generalize x s = r, y s = r' at joined shallow
  cases joined with
  | ok a same => rw [show _ = _ from same]
  | error same may => rw [show _ = _ from same]
  | cut cut =>
    rw [show _ = _ from cut] at shallow
    exact absurd trivial shallow

theorem does_deepening (d : Deed) : (deepening game le).Does d :=
  fun _ _ same _ => by rw [show _ = _ from same]; rfl

/-- A list at any depth comes to the same with a higher limit. -/
theorem runEvents_withLimit (depth : Nat) (inFrame : Bool) (events : List Event) (s : Session)
    (shallow : ¬Play.TooDeep
      (Play.runEvents game (game.config.maxDepth - depth) inFrame events s)) :
    Play.runEvents (game.withLimit limit) (limit - depth) inFrame events s =
      Play.runEvents game (game.config.maxDepth - depth) inFrame events s := by
  by_cases inside : depth ≤ game.config.maxDepth
  · refine Tracks.eq_of_shallow le (.forM fun event _ => ?_) shallow
    have tracks : (deepening game le).Tracks
        (Play.runEvent game (game.config.maxDepth - depth) inFrame event) _ :=
      .runEvent (Nat.sub_le _ _) inFrame event
    have left : game.config.maxDepth - depth + (limit - game.config.maxDepth) = limit - depth := by
      omega
    rwa [left] at tracks
  · have none : game.config.maxDepth - depth = 0 := by omega
    rw [none] at shallow ⊢
    cases events with
    | nil => rfl
    | cons event events => exact absurd trivial shallow

theorem playScenes_withLimit (scenes : Nat) (name : String) (s : Session)
    (shallow : ¬Play.TooDeep (Play.playScenes game scenes name s)) :
    Play.playScenes (game.withLimit limit) scenes name s = Play.playScenes game scenes name s := by
  induction scenes generalizing name s with
  | zero => rfl
  | succ scenes ih =>
    have visits : (deepening game le).Tracks (Play.visit game name)
        (Play.visit (game.withLimit limit) name) :=
      .visit (fun _ _ same => by rw [show _ = _ from same]; rfl)
        (fun _ _ _ same _ => by rw [show _ = _ from same]; rfl) (does_deepening le)
    rw [Play.playScenes_succ] at shallow ⊢
    rw [Play.playScenes_succ]
    by_cases deep : Play.TooDeep (Play.visit game name s)
    · cases visited : Play.visit game name s with
      | ok request t =>
        rw [visited] at deep
        exact deep.elim
      | error e t =>
        rw [visited] at deep shallow
        cases e with
        | nestingTooDeep => exact absurd trivial shallow
        | _ => exact deep.elim
    · rw [visits.eq_of_shallow le deep]
      cases visited : Play.visit game name s with
      | ok request t =>
        rw [visited] at shallow
        exact ih request.target t shallow
      | error e t => cases e <;> rfl

theorem run_withLimit (s : Session) (shallow : ¬Play.TooDeep (Play.run game s)) :
    Play.run (game.withLimit limit) s = Play.run game s := by
  have same := playScenes_withLimit le (Play.sceneCeiling - s.entered) game.graph.start s
  have graph : (game.withLimit limit).graph = game.graph := rfl
  rw [Play.run_eq] at shallow ⊢
  rw [Play.run_eq, graph]
  cases played : Play.playScenes game (Play.sceneCeiling - s.entered) game.graph.start s with
  | ok stop t =>
    rw [played] at same
    rw [same id]
  | error e t =>
    rw [played] at same shallow
    have shallow : ¬Play.TooDeep (α := HostStop) (.error e t) := by
      cases e <;> exact shallow
    rw [same shallow]

end

/-! ### The law of the limit -/

/-- What a higher limit changes for a game in a session. -/
structure Session.LimitHidden (game : Game) (limit : Nat) (s : Session) : Prop where
  /-- A list that does not come to its own limit comes to the same, from any depth. -/
  list (depth : Nat) (list : Handle) (inFrame : Bool)
    (shallow : ¬Play.TooDeep (Play.runEvents game (game.config.maxDepth - depth) inFrame
      (game.graph.events list) s)) :
    Play.runEvents (game.withLimit limit) (limit - depth) inFrame (game.graph.events list) s =
      Play.runEvents game (game.config.maxDepth - depth) inFrame (game.graph.events list) s
  /-- So does a whole run. -/
  run (shallow : ¬Play.TooDeep (Play.run game s)) :
    Play.run (game.withLimit limit) s = Play.run game s
  /-- With the events counted that are being run, a list does the same, and the count is what it was
  before, whatever the list came to. -/
  count (depth : Nat) (list : Handle) (inFrame : Bool) :
    CountedPlay.runList game list inFrame ⟨s, depth⟩ =
      CountedPlay.atDepth depth (Play.runEvents game (game.config.maxDepth - depth) inFrame
        (game.graph.events list) s)

/-- **The limit is not seen before it is reached.** A list or a run that does not come to its limit
of nesting comes to the same with a higher one, and leaves the same session; and every list leaves
the depth as it was. -/
theorem limitHidden_of_le {game : Game} {limit : Nat} (le : game.config.maxDepth ≤ limit)
    (s : Session) : s.LimitHidden game limit where
  list depth list inFrame := runEvents_withLimit le depth inFrame (game.graph.events list) s
  run := run_withLimit le s
  count depth list inFrame := CountedPlay.follows_runList game depth list inFrame s

/-- In the sample no event is in another one, so that a limit of one level is enough. -/
theorem limitHidden_of_le_sample :
    (Game.sample.withLimit 1).config.maxDepth ≤ 64 ∧
      ¬Play.TooDeep
        (Play.run (Game.sample.withLimit 1) (.sample (InputScript.empty.hold [.right] 9) 9)) ∧
      (Session.sample (InputScript.empty.hold [.right] 9) 9).LimitHidden
        (Game.sample.withLimit 1) 64 :=
  ⟨by decide, by decide +kernel, limitHidden_of_le (by decide) _⟩

end Overworld
