import Overworld.Proofs.Deeds

/-!
Time in a session, and what a scene keeps from its entry on.

Only frames take time: deeds and arrivals leave the clock of the host alone, so a host whose frames
are limited has one less of them after every frame and never more of them (`Session.Sound`).
-/

namespace Overworld

/-! ### The clock -/

/-- What the host knows of time: the input, what is over, and when it stops. -/
structure Clock where
  input : InputScript
  states : ButtonStates
  frame : Nat
  budget : Option Nat
  stopsWithInput : Bool
  past : List FrameRecord

/-- The clock of a host. -/
def Host.clock (host : Host) : Clock :=
  ⟨host.input, host.states, host.frame, host.budget, host.stopsWithInput, host.past⟩

/-- Hosts of one clock play as many frames. -/
theorem Host.horizon_congr {a b : Host} (h : a.clock = b.clock) : a.horizon = b.horizon := by
  simp only [clock, Clock.mk.injEq] at h
  obtain ⟨input, -, -, budget, stopsWithInput, -⟩ := h
  simp only [horizon, input, budget, stopsWithInput]

/-- No deed takes time. -/
theorem Deed.clock_apply (s : Session) (d : Deed) : (d.apply s).host.clock = s.host.clock := by
  cases d with
  | present change => cases change <;> rfl
  | _ => rfl

/-- No arrival takes time. -/
theorem Arrival.clock_apply (game : Game) (s : Session) (a : Arrival) :
    (a.apply game s).host.clock = s.host.clock := by
  cases a <;> rfl

/-! ### What stays while a scene is played -/

/-- The scene and whether the player is on the stage. -/
def Session.cast (s : Session) : Scene × Bool := (s.stage.scene, s.stage.player.isSome)

theorem Deed.cast_apply (s : Session) (d : Deed) : (d.apply s).cast = s.cast := by
  cases d with
  | turn d => simp only [apply, Session.withPlayer, Session.cast, Option.isSome_map]
  | place map position => simp only [apply, Session.withPlayer, Session.cast, Option.isSome_map]
  | _ => rfl

namespace Stretch

variable {s t : Session}

theorem cast_eq (h : Stretch s t) : t.cast = s.cast :=
  h.keeps (P := fun u => u.cast = s.cast)
    (fun u v step same => by
      cases step with
      | deed d allowed => exact (d.cast_apply u).trans same
      | frame goes => exact same)
    rfl

theorem scene_eq (h : Stretch s t) : t.stage.scene = s.stage.scene := congrArg (·.1) h.cast_eq

theorem map_eq (h : Stretch s t) : t.stage.map = s.stage.map := congrArg Scene.map h.scene_eq

theorem player_isSome (h : Stretch s t) : t.stage.player.isSome = s.stage.player.isSome :=
  congrArg (·.2) h.cast_eq

end Stretch

/-! ### Sound sessions -/

/-- A session in which tiles have a size and the frames of the host are limited. -/
structure Session.Sound (s : Session) : Prop where
  grid : ∀ map, s.stage.map = some map → 0 < map.grid
  limited : ∃ limit, s.host.budget = some limit ∧ limit ≤ Host.frameCeiling
  inTime : s.host.frame ≤ s.host.horizon

namespace Session.Sound

variable {s t : Session}

/-- No host outlasts the patience of a loop. -/
theorem framesLeft_lt_patience (h : s.Sound) : s.host.framesLeft < Play.patience := by
  obtain ⟨limit, budget, le⟩ := h.limited
  simp only [Host.framesLeft, Host.horizon, budget, Option.getD_some, Play.patience]
  omega

theorem frame_lt_ceiling (h : s.Sound) (goes : s.host.stop? = none) :
    s.host.frame < Host.frameCeiling := by
  obtain ⟨limit, budget, le⟩ := h.limited
  simp only [Host.stop?, budget] at goes
  split at goes
  · exact nomatch goes
  · omega

/-- A frame keeps a session sound. -/
theorem frame (h : s.Sound) (goes : s.host.stop? = none) :
    ({ s with host := s.host.afterFrame } : Session).Sound where
  grid := h.grid
  limited := h.limited
  inTime := (Host.stop?_eq_none_iff (h.frame_lt_ceiling goes)).mp goes

/-- What changes neither the scene nor the clock keeps a session sound. -/
theorem of_eq (h : s.Sound) (scene : t.stage.scene = s.stage.scene)
    (clock : t.host.clock = s.host.clock) : t.Sound where
  grid := by
    simpa only [Stage.map, scene] using h.grid
  limited := by
    have budget : t.host.budget = s.host.budget := congrArg Clock.budget clock
    rw [budget]
    exact h.limited
  inTime := by
    have frame : t.host.frame = s.host.frame := congrArg Clock.frame clock
    rw [frame, Host.horizon_congr clock]
    exact h.inTime

theorem stretch (h : s.Sound) (course : Stretch s t) : t.Sound :=
  course.keeps (P := Sound)
    (fun u v step sound => by
      cases step with
      | deed d allowed => exact sound.of_eq (congrArg (·.1) (d.cast_apply u)) (d.clock_apply u)
      | frame goes => exact sound.frame goes)
    h

end Session.Sound

namespace Stretch

variable {s t : Session}

/-- Time goes on, and the host still stops when it would have stopped. -/
theorem clock_le (h : Stretch s t) :
    s.host.frame ≤ t.host.frame ∧ t.host.horizon = s.host.horizon :=
  h.keeps (P := fun u => s.host.frame ≤ u.host.frame ∧ u.host.horizon = s.host.horizon)
    (fun u v step ⟨le, same⟩ => by
      cases step with
      | deed d allowed =>
        have frame : (d.apply u).host.frame = u.host.frame := congrArg Clock.frame (d.clock_apply u)
        exact ⟨frame ▸ le, (Host.horizon_congr (d.clock_apply u)).trans same⟩
      | frame goes => exact ⟨Nat.le_succ_of_le le, same⟩)
    ⟨Nat.le_refl _, rfl⟩

end Stretch

/-! ### Time goes on -/

/-- A sound session later on, on a host that stops at the same frame. -/
structure Session.Later (s t : Session) : Prop where
  sound : t.Sound
  frame_le : s.host.frame ≤ t.host.frame
  horizon_eq : t.host.horizon = s.host.horizon

namespace Session.Later

variable {s t u : Session}

theorem refl (sound : s.Sound) : s.Later s := ⟨sound, Nat.le_refl _, rfl⟩

theorem trans (h : s.Later t) (h' : t.Later u) : s.Later u :=
  ⟨h'.sound, Nat.le_trans h.frame_le h'.frame_le, h'.horizon_eq.trans h.horizon_eq⟩

/-- Where a frame was played there is one less left. -/
theorem framesLeft_lt (h : s.Later t) (played : s.host.frame < t.host.frame) :
    t.host.framesLeft < s.host.framesLeft := by
  have inTime := h.sound.inTime
  have same := h.horizon_eq
  unfold Host.framesLeft
  omega

end Session.Later

theorem Stretch.later {s t : Session} (h : Stretch s t) (sound : s.Sound) : s.Later t :=
  ⟨sound.stretch h, h.clock_le.1, h.clock_le.2⟩

end Overworld
