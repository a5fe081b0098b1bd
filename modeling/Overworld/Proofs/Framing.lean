import Overworld.Proofs.Acts.Scenes
import Overworld.Proofs.Panning
import Overworld.Proofs.Validity

/-!
The camera never leaves the map.

On an axis on which the map is as large as the screen, the camera shows nothing but the map: it
starts and follows within its bounds, a movement goes to a point within them, and on the way it is
between two such points. So it is in every frame from the entry of a scene on, also where the host
stops in the middle of a movement.

On any axis the camera is no further from the middle of the map than its bounds are
(`ScrollBounds.Spans`), and no two such points are too far apart for a movement in 32 bits.
-/

namespace Overworld

open Simulation Word

/-! ### Points that show the map -/

/-- A point from which, on each axis on which the map is large enough, the screen shows nothing but
the map. -/
structure ScrollBounds.Shows (bounds : ScrollBounds) (p : Pixel) : Prop where
  x (large : 0 ≤ bounds.maxX) : bounds.minX ≤ p.x ∧ p.x ≤ bounds.maxX
  y (large : 0 ≤ bounds.maxY) : bounds.minY ≤ p.y ∧ p.y ≤ bounds.maxY

/-- A point that on each axis is no further from the middle of the map than the bounds. -/
structure ScrollBounds.Spans (bounds : ScrollBounds) (p : Pixel) : Prop where
  x : p.x.natAbs ≤ bounds.maxX.natAbs
  y : p.y.natAbs ≤ bounds.maxY.natAbs

namespace ScrollBounds

theorem spans_origin (bounds : ScrollBounds) : bounds.Spans .origin :=
  ⟨Nat.zero_le _, Nat.zero_le _⟩

theorem spans_clamp (map : TileMap) (config : Config) (p : Pixel) :
    (ofMap map config).Spans ((ofMap map config).clamp p) := by
  constructor <;> simp only [ofMap, clamp] <;> omega

/-- Between two points no further away than the bounds all are. -/
theorem Spans.within {bounds : ScrollBounds} {start goal p : Pixel} (first : bounds.Spans start)
    (last : bounds.Spans goal) (on : start.Within goal p) : bounds.Spans p := by
  obtain ⟨across, down⟩ := on
  obtain ⟨startX, startY⟩ := first
  obtain ⟨goalX, goalY⟩ := last
  constructor <;> omega

theorem Spans.shows {map : TileMap} {config : Config} {p : Pixel}
    (spans : (ofMap map config).Spans p) : (ofMap map config).Shows p := by
  obtain ⟨x, y⟩ := spans
  simp only [ofMap] at x y
  constructor <;> simp only [ofMap] <;> omega

/-- On a screen of no negative size the bounds are so near to the middle that a movement between
points no further away fits. -/
theorem Spans.fits {map : TileMap} {config : Config} {start goal : Pixel} {move : CameraMove}
    (first : (ofMap map config).Spans start) (last : (ofMap map config).Spans goal)
    (size : 0 ≤ map.pixelWidth ∧ 0 ≤ map.pixelHeight) (measured : map.Measured)
    (positive : 0 ≤ config.screenWidth ∧ 0 ≤ config.screenHeight)
    (screen : Signed32 config.screenWidth ∧ Signed32 config.screenHeight)
    (few : move.frames < Number.word32) : move.Fits start goal := by
  have axis (large extent a b : Int) (fits : Signed32 large ∧ 0 ≤ large)
      (narrow : Signed32 extent ∧ 0 ≤ extent)
      (first : a.natAbs ≤ (large.tdiv 2 - extent.tdiv 2).natAbs)
      (last : b.natAbs ≤ (large.tdiv 2 - extent.tdiv 2).natAbs) :
      Signed32 a ∧ Signed32 b ∧ (b - a).natAbs < 2147483648 := by
    have := half_bounds large
    have := half_bounds extent
    unfold Signed32 at *
    omega
  have x := axis _ _ _ _ ⟨measured.1, size.1⟩ ⟨screen.1, positive.1⟩ first.x last.x
  have y := axis _ _ _ _ ⟨measured.2, size.2⟩ ⟨screen.2, positive.2⟩ first.y last.y
  exact ⟨x.1, y.1, x.2.1, y.2.1, x.2.2, y.2.2, few⟩

end ScrollBounds

/-- A stage whose map the screen shows from a point, if it has one. -/
def Stage.InView (game : Game) (stage : Stage) (p : Pixel) : Prop :=
  ∀ map, stage.map = some map → (ScrollBounds.ofMap map game.config).Spans p

theorem Stage.InView.within {game : Game} {stage : Stage} {start goal p : Pixel}
    (first : stage.InView game start) (last : stage.InView game goal) (on : start.Within goal p) :
    stage.InView game p :=
  fun map onMap => (first map onMap).within (last map onMap) on

/-! ### What every act keeps in view -/

/-- A session that has shown the map in all frames but some first ones, and shows it still. -/
structure Framed (game : Game) (earlier : Nat) (m : Mode) (s : Session) : Prop where
  stage : s.stage.InView game s.stage.camera
  host (visible : m.doing ≠ .opening) : s.stage.InView game s.host.camera
  goal {start goal : Pixel} (pans : m.doing = .panning start goal) :
    s.stage.InView game start ∧ s.stage.InView game goal
  frames : ∀ frame ∈ s.host.frames.drop earlier, s.stage.InView game frame.camera

/-- What of a session the camera shows and has shown. -/
def Session.views (s : Session) : Option TileMap × Pixel × Pixel × List FrameRecord :=
  (s.stage.map, s.stage.camera, s.host.camera, s.host.frames)

theorem Deed.views_apply {d : Deed} (plain : d.Plain) (s : Session) : (d.apply s).views = s.views := by
  have kept := d.undisturbed plain s
  simp only [Session.views, kept.map, kept.camera, kept.shown, kept.frames]

namespace Framed

variable {game : Game} {n : Nat} {m m' : Mode} {s t : Session}

/-- Where nothing moves the camera, nothing is lost from view. -/
theorem of_views (h : Framed game n m s) (views : t.views = s.views)
    (shown : m'.doing ≠ .opening → m.doing ≠ .opening)
    (pans : ∀ start goal, m'.doing = .panning start goal → m.doing = .panning start goal) :
    Framed game n m' t := by
  simp only [Session.views, Prod.mk.injEq] at views
  obtain ⟨map, stage, host, frames⟩ := views
  constructor
  · unfold Stage.InView
    rw [map, stage]
    exact h.stage
  · intro visible
    unfold Stage.InView
    rw [map, host]
    exact h.host (shown visible)
  · intro start goal pan
    unfold Stage.InView
    rw [map]
    exact h.goal (pans start goal pan)
  · unfold Stage.InView
    rw [map, frames]
    exact h.frames

/-- The camera of the host comes to a point in view. -/
theorem point (h : Framed game n m s) {p : Pixel} (inView : s.stage.InView game p)
    (pans : ∀ start goal, m'.doing = .panning start goal → m.doing = .panning start goal) :
    Framed game n m' ((Deed.present (.camera p)).apply s) where
  stage := h.stage
  host _ := inView
  goal pan := h.goal (pans _ _ pan)
  frames := h.frames

/-- Both cameras do. -/
theorem pointed (h : Framed game n m s) {p : Pixel} (inView : s.stage.InView game p)
    (pans : ∀ start goal, m'.doing ≠ .panning start goal) : Framed game n m' (s.pointed p) where
  stage := inView
  host _ := inView
  goal pan := absurd pan (pans _ _)
  frames := h.frames

theorem frame (h : Framed game n m s) (shown : m.doing ≠ .opening) :
    Framed game n m { s with host := s.host.afterFrame } where
  stage := h.stage
  host := h.host
  goal := h.goal
  frames := by
    intro frame mem
    rw [Host.frames_afterFrame, List.drop_append] at mem
    rcases List.mem_append.mp mem with old | new
    · exact h.frames frame old
    · rw [List.mem_singleton.mp (List.mem_of_mem_drop new)]
      exact h.host shown

theorem arrive (h : Framed game n m s) {a : Arrival} (opens : a.Furnishes ∨ m.doing = .opening)
    (fits : a.Fits s) : Framed game n m (a.apply game s) := by
  cases a with
  | player map sheet tile d z =>
    have opening : m.doing = .opening := opens.resolve_left id
    refine ⟨?_, fun visible => absurd opening visible, fun pan => ?_, h.frames⟩
    · intro map' onMap
      cases fits.symm.trans onMap
      exact ScrollBounds.spans_clamp map game.config _
    · rw [opening] at pan
      exact nomatch pan
  | _ => exact h.of_views rfl id fun _ _ => id

end Framed

/-- Whatever happens, the camera stays in view. -/
theorem upheld_framed (game : Game) (n : Nat) : Upheld game (Framed game n) where
  resume shown h := h.of_views rfl (fun _ => shown) nofun
  act {m m' s t} act h := by
    cases act with
    | deed d plain allowed => exact h.of_views (d.views_apply plain s) id fun _ _ => id
    | frame shown goes => exact h.frame shown
    | arrive a opens allowed fits => exact h.arrive opens fits
    | reveal => exact h.point h.stage nofun
    | setOut onMap target =>
      refine ⟨h.stage, fun _ => h.host nofun, fun pans => ?_, h.frames⟩
      cases pans
      refine ⟨h.stage, fun map' onMap' => ?_⟩
      cases onMap.symm.trans onMap'
      exact ScrollBounds.spans_clamp _ game.config _
    | pan on =>
      obtain ⟨first, last⟩ := h.goal rfl
      exact h.point (first.within last on) fun _ _ => id
    | stop => exact h.pointed (h.goal rfl).2 nofun
    | @stride _ map onMap free position =>
      have placed : Framed game n ⟨.nothing, true⟩ ((Deed.place map position).apply s) :=
        h.of_views rfl id fun _ _ => id
      refine placed.pointed (fun map' onMap' => ?_) nofun
      cases onMap.symm.trans onMap'
      exact ScrollBounds.spans_clamp map game.config _
    | turn d => exact h.of_views rfl id fun _ _ => id
    | walk => exact h.of_views rfl id fun _ _ => id
    | picture is frame => exact h.of_views rfl id fun _ _ => id
    | hide => exact h.of_views rfl id fun _ _ => id
    | unveil fades visible => exact h.of_views rfl (by rcases fades with rfl | rfl <;> simp) nofun
    | _ => exact h.of_views rfl (fun _ => nofun) nofun

/-! ### Where events find the camera -/

/-- A session of whose events each one found the camera in view. -/
def Session.Recalls (game : Game) (s : Session) : Prop :=
  ∀ d : Dispatch, .event d ∈ s.journal → d.stage.InView game d.stage.camera

/-- An event that comes into the journal by an act found the stage as it was then. -/
theorem Act.stage_of_dispatch {game : Game} {m m' : Mode} {s t : Session}
    (act : Act game (m, s) (m', t)) {d : Dispatch} (ran : .event d ∈ t.journal) :
    .event d ∈ s.journal ∨ d.stage = s.stage := by
  have recorded {event : Event} {inFrame : Bool} {depth : Nat}
      (ran : .event d ∈ (s.recorded event inFrame depth).journal) :
      .event d ∈ s.journal ∨ d.stage = s.stage := by
    rcases List.mem_cons.mp ran with is | old
    · cases is
      exact .inr rfl
    · exact .inl old
  cases act with
  | deed deed plain allowed =>
    cases deed with
    | record event inFrame depth => exact recorded ran
    | request r inFrame depth => exact recorded ran
    | _ => exact .inl ran
  | playMusic silent name volume loops inFrame depth => exact recorded ran
  | keepMusic playing name volume loops inFrame depth => exact recorded ran
  | hush inFrame depth => exact recorded ran
  | arrive a opens allowed fits => cases a <;> exact .inl ran
  | _ => exact .inl ran

/-- As long as the camera stays in view each event finds it there. -/
theorem upheld_recalls (game : Game) :
    Upheld game fun m s => (∃ n, Framed game n m s) ∧ s.Recalls game where
  act act := by
    rintro ⟨⟨n, framed⟩, recalls⟩
    refine ⟨⟨n, (upheld_framed game n).act act framed⟩, fun d ran => ?_⟩
    rcases act.stage_of_dispatch ran with old | now
    · exact recalls d old
    · rw [now]
      exact framed.stage
  resume := by
    rintro m s shown ⟨⟨n, framed⟩, recalls⟩
    exact ⟨⟨n, (upheld_framed game n).resume shown framed⟩, recalls⟩

/-- A scene is opened with its camera in view, and no frame of it has passed yet. -/
theorem framed_opened (game : Game) (s : Session) (name : String) :
    Framed game s.host.frames.length .opening (s.opened game name) where
  stage map _ := ScrollBounds.spans_origin _
  host visible := absurd rfl visible
  goal := nofun
  frames := by
    have none : s.host.frames.drop s.host.frames.length = [] := List.drop_length
    intro frame mem
    rw [show (s.opened game name).host.frames = s.host.frames from rfl, none] at mem
    exact nomatch mem

theorem Session.Recalls.opened {game : Game} {s : Session} (recalls : s.Recalls game)
    (name : String) : (s.opened game name).Recalls game := by
  intro d ran
  rcases List.mem_cons.mp (show Entry.event d ∈ .scene name :: s.journal from ran) with now | old
  · exact nomatch now
  · exact recalls d old

/-! ### Since the scene was entered -/

/-- The session in which the last visit of a run began, the one with which the run ended. -/
def LastVisit (game : Game) (s u : Session) : Prop :=
  ∃ name, Relation.ReflTransGen (NextVisit game) (game.graph.start, s) (name, u) ∧
    match Play.run game s with
    | .ok summary t =>
      ∃ v, Play.visit game name u = .error (.host summary.stop) v ∧
        t = (Deed.note (.runStopped summary)).apply v
    | .error e t => Play.visit game name u = .error e t

/-- The session in which a scene was entered last: by a call for it, or by a run. -/
inductive LastEntry (game : Game) (s : Session) : List Call → Session → Prop
  | enter (calls : List Call) (name : String) :
    LastEntry game s (calls ++ [.enter name]) (s.after game calls)
  | run {calls : List Call} {u : Session} (last : LastVisit game (s.after game calls) u) :
    LastEntry game s (calls ++ [.run]) u
  | stay {calls : List Call} {call : Call} {u : Session} (entry : LastEntry game s calls u)
    (stays : call.Stays) : LastEntry game s (calls ++ [call]) u

section

variable {game : Game} {s u : Session}

/-- A run that is asked for returns only if the run does. -/
theorem returns_of_performed (returns : Play.Returns (Call.run.perform game s)) :
    Play.Returns (Play.run game s) := by
  change Play.Returns ((Play.run game >>= fun _ => pure ()) s) at returns
  rw [Play.bind_apply] at returns
  cases ran : Play.run game s with
  | ok summary t => exact .ok summary t
  | error e t =>
    rw [ran] at returns
    cases returns with
    | error _ regular => exact .error t regular

/-- A run that returns ends with a last visit. -/
theorem exists_lastVisit (lawful : s.Lawful game) (returns : Play.Returns (Play.run game s)) :
    ∃ u, LastVisit game s u := by
  obtain ⟨name, u, visits, result⟩ := ranThrough lawful
  refine ⟨u, name, visits, ?_⟩
  cases ran : Play.run game s with
  | ok summary t =>
    rw [ran] at result
    obtain ⟨v, visited, -, is⟩ := result
    exact ⟨v, visited, is⟩
  | error e t =>
    rw [ran] at result returns
    rcases result with ⟨visited, -⟩ | ⟨rfl, -⟩
    · exact visited
    · cases returns with
      | error _ regular => exact regular.elim

/-- Calls that return, of which some enter a scene, have entered one last. -/
theorem exists_lastEntry (lawful : ∀ calls, (s.after game calls).Lawful game) {calls : List Call}
    (returns : ∀ e ∈ s.history game calls, Play.Returns (e.call.perform game e.session))
    (enters : ∃ call ∈ calls, ¬call.Stays) : ∃ u, LastEntry game s calls u := by
  induction calls using List.reverseRecOn with
  | nil =>
    obtain ⟨call, mem, -⟩ := enters
    exact absurd mem List.not_mem_nil
  | append_singleton calls call ih =>
    rw [Session.history_append] at returns
    have earlier (stays : call.Stays) : ∃ u, LastEntry game s (calls ++ [call]) u := by
      obtain ⟨u, entry⟩ : ∃ u, LastEntry game s calls u := by
        refine ih (fun e mem => returns e (List.mem_append_left _ mem)) ?_
        obtain ⟨other, mem, enters⟩ := enters
        rcases List.mem_append.mp mem with old | new
        · exact ⟨other, old, enters⟩
        · rw [List.mem_singleton.mp new] at enters
          exact absurd stays enters
      exact ⟨u, entry.stay stays⟩
    cases call with
    | enter name => exact ⟨_, .enter calls name⟩
    | run =>
      have ran := returns ⟨s.after game calls, .run⟩ (List.mem_append_right _ List.mem_cons_self)
      obtain ⟨u, last⟩ := exists_lastVisit (lawful calls) (returns_of_performed ran)
      exact ⟨u, .run last⟩
    | frame => exact earlier trivial
    | scene => exact earlier trivial
    | list events inFrame => exact earlier trivial

/-- What holds when the last scene of a run is opened holds when the run ends. -/
theorem Upheld.lastVisit {P : Mode → Session → Prop} (upheld : Upheld game P)
    (opens : ∀ name, P .opening (u.opened game name)) (last : LastVisit game s u) :
    P .still (Play.final (Play.run game s)) := by
  obtain ⟨name, -, result⟩ := last
  have visited := upheld.final (Play.comes_of_visit game name u) (opens name)
  cases ran : Play.run game s with
  | ok summary t =>
    rw [ran] at result
    obtain ⟨v, is, rfl⟩ := result
    rw [is] at visited
    exact upheld.act (.deed (.note _) trivial trivial) visited
  | error e t =>
    rw [ran] at result
    rw [result] at visited
    exact visited

/-- What was shown since the last scene was entered is framed. -/
theorem framed_of_lastEntry {calls : List Call} (entry : LastEntry game s calls u) :
    Framed game u.host.frames.length .still (s.after game calls) := by
  induction entry with
  | enter calls name =>
    rw [Session.after_append]
    exact (upheld_framed game _).final (Play.comes_of_enterScene game name _)
      (framed_opened game _ name)
  | run last =>
    have framed := (upheld_framed game _).lastVisit (framed_opened game _) last
    rw [← Call.final_run] at framed
    rw [Session.after_append]
    exact framed
  | stay entry stays ih =>
    rw [Session.after_append]
    exact (upheld_framed game _).final (Call.comes game _ stays _) ih

end

/-! ### The law of framing -/

/-- What the cameras show in a session after calls, on each axis on which the map of the scene is as
large as the screen. -/
structure Session.StaysFramed (game : Game) (s : Session) (calls : List Call) : Prop where
  /-- Wherever the camera of the stage and that of the host are, they show nothing but the map. -/
  cameras {map : TileMap} (onMap : (s.after game calls).stage.map = some map) :
    (ScrollBounds.ofMap map game.config).Shows (s.after game calls).stage.camera ∧
      (ScrollBounds.ofMap map game.config).Shows (s.after game calls).host.camera
  /-- So did every frame since the scene was entered. -/
  frames {u : Session} (entry : LastEntry game s calls u) {map : TileMap}
    (onMap : (s.after game calls).stage.map = some map) :
    ∀ frame ∈ (s.after game calls).host.frames.drop u.host.frames.length,
      (ScrollBounds.ofMap map game.config).Shows frame.camera
  /-- A run that goes on shows nothing but the map in every scene that it leaves for the next. -/
  visits {a b : String × Session} (next : NextVisit game a b) {map : TileMap}
    (onMap : b.2.stage.map = some map) :
    ∀ frame ∈ b.2.host.frames.drop a.2.host.frames.length,
      (ScrollBounds.ofMap map game.config).Shows frame.camera
  /-- Wherever an event found the camera, a movement from there goes on words as on numbers, if the
  screen has no negative size. -/
  pans {d : Dispatch} (ran : .event d ∈ (s.after game calls).journal) {map : TileMap}
    (onMap : d.stage.map = some map) (valid : map.Valid) (measured : map.Measured)
    (positive : 0 ≤ game.config.screenWidth ∧ 0 ≤ game.config.screenHeight)
    (screen : Signed32 game.config.screenWidth ∧ Signed32 game.config.screenHeight)
    {move : CameraMove} (few : move.frames < Number.word32) :
    move.runOnWords d.stage.camera (.ofMap map game.config) =
      (move.run d.stage.camera (.ofMap map game.config)).onWords
  /-- Calls that return have entered a scene last, if they have entered any. -/
  entered (returns : ∀ e ∈ s.history game calls, Play.Returns (e.call.perform game e.session))
    (enters : ∃ call ∈ calls, ¬call.Stays) : ∃ u, LastEntry game s calls u

/-- **The camera never leaves the map.** Whatever is asked of a game from its start on, and whatever
comes of it, the cameras show nothing but the map of the scene, on each axis on which the map is as
large as the screen; so they did in every frame since the scene was entered. -/
theorem staysFramed_session {game : Game} {input : InputScript} {budget : Option Nat} {stops : Bool}
    {s : Session} (start : game.session (.fresh input budget stops) = .ok s) (calls : List Call) :
    s.StaysFramed game calls := by
  have lawful (calls : List Call) : (s.after game calls).Lawful game :=
    (s.course_after game calls).keeps (fun _ _ m h => h.move m) (lawful_session start)
  have noMap : s.stage.map = none := by
    obtain ⟨vars, -, rfl⟩ := Game.session_eq_ok_iff.mp start
    rfl
  have inView (p : Pixel) : s.stage.InView game p := fun map onMap => nomatch noMap.symm.trans onMap
  have unplayed : s.journal = [] := by
    obtain ⟨vars, -, rfl⟩ := Game.session_eq_ok_iff.mp start
    rfl
  have recalls : s.Recalls game := by
    intro d ran
    rw [unplayed] at ran
    exact nomatch ran
  obtain ⟨⟨n, framed⟩, recalls⟩ := (upheld_recalls game).after
    (fun t name ⟨_, recalls⟩ => ⟨⟨_, framed_opened game t name⟩, recalls.opened name⟩) (s := s)
    ⟨⟨0, inView _, fun _ => inView _, fun _ => ⟨inView _, inView _⟩, fun _ _ => inView _⟩, recalls⟩
    calls
  constructor
  case cameras =>
    intro map onMap
    exact ⟨(framed.stage map onMap).shows, (framed.host (by simp) map onMap).shows⟩
  case frames =>
    intro u entry map onMap frame mem
    exact ((framed_of_lastEntry entry).frames frame mem map onMap).shows
  case visits =>
    intro a b next map onMap frame mem
    obtain ⟨request, visited, -⟩ := next
    have left := (upheld_framed game a.2.host.frames.length).final
      (Play.comes_of_visit game a.1 a.2) (framed_opened game a.2 a.1)
    rw [visited] at left
    exact (left.frames frame mem map onMap).shows
  case pans =>
    intro d ran map onMap valid measured positive screen move few
    refine CameraMove.runOnWords_eq ?_
    have start := recalls d ran map onMap
    exact start.fits (ScrollBounds.spans_clamp _ _ _) valid.pixel_nonneg measured positive screen few
  case entered =>
    intro returns enters
    exact exists_lastEntry lawful returns enters

/-- The yard of the sample, seen through a narrow screen, with a list that moves the camera to the
gate. -/
def Game.narrow : Game where
  graph :=
    { Game.sample.graph with
      lists := Game.sample.graph.lists ++
        [[.moveCamera (.ofInt 2) (.ofInt 0) (.ofInt 64) true .horizontal]] }
  config := { Config.standard with screenWidth := 2, screenHeight := 2 }

/-- In the yard the host stops when the camera is half the way to the gate. -/
theorem staysFramed_session_narrow :
    ∃ s, Game.narrow.session (.fresh .empty (some 3) false) = .ok s ∧
      s.StaysFramed Game.narrow [.enter "yard", .frame, .list ⟨3⟩ true] ∧
      (s.after Game.narrow [.enter "yard", .frame, .list ⟨3⟩ true]).host.frames.map (·.camera) =
        [⟨-2, 0⟩, ⟨-1, 0⟩, ⟨0, 0⟩] :=
  ⟨_, rfl, staysFramed_session rfl _, by decide +kernel⟩

end Overworld
