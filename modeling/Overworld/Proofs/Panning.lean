import Overworld.Proofs.Acts.Events
import Overworld.Proofs.Patience
import Overworld.Proofs.Words

/-!
How the camera pans.

A movement shows the positions of a path, one in each frame, and with enough frames left it comes to
its end. Each position lies between every earlier one and the goal; on one axis after the other the
path has a block for each axis, and the frames are shared out between them.

The positions are computed with numbers of any size. `CameraMove.runOnWords` computes them with
machine words, where each operation can fail: none does for coordinates of 32 bits.
-/

namespace Overworld

/-! ### Frames that show a path -/

namespace Host

/-- A host after one more frame, with the camera at a position. -/
def showing (host : Host) (position : Pixel) : Host := (host.setCamera position).afterFrame

/-- A host after a frame for each position of a path. -/
def showingAll (host : Host) (path : List Pixel) : Host := path.foldl showing host

theorem frame_showingAll (host : Host) (path : List Pixel) :
    (host.showingAll path).frame = host.frame + path.length := by
  induction path generalizing host with
  | nil => rfl
  | cons p path ih =>
    have rest := ih (host.showing p)
    have first : (host.showing p).frame = host.frame + 1 := rfl
    change ((host.showing p).showingAll path).frame = _
    rw [List.length_cons]
    omega

theorem frames_showingAll (host : Host) (path : List Pixel) :
    (host.showingAll path).frames =
      host.frames ++ path.map fun p => ⟨p, host.alpha, host.dialog.isSome⟩ := by
  induction path generalizing host with
  | nil => simp [showingAll]
  | cons p path ih =>
    calc ((host.showing p).showingAll path).frames
        = (host.showing p).frames ++ path.map fun p => ⟨p, host.alpha, host.dialog.isSome⟩ :=
          ih (host.showing p)
      _ = host.frames ++ (p :: path).map fun p => ⟨p, host.alpha, host.dialog.isSome⟩ := by
          rw [showing, frames_afterFrame, List.append_assoc]
          rfl

/-- The frames of a path change nothing but what frames change, and the camera. -/
theorem rest_showingAll (host : Host) (path : List Pixel) :
    { host.showingAll path with
        camera := host.camera, frame := host.frame, states := host.states, past := host.past } =
      host := by
  induction path generalizing host with
  | nil => rfl
  | cons p path ih =>
    have rest := congrArg (fun h : Host =>
      { h with
        camera := host.camera, frame := host.frame, states := host.states, past := host.past })
      (ih (host.showing p))
    exact rest

/-- Where the camera was does not matter to a path. -/
theorem showingAll_setCamera (host : Host) (c p : Pixel) (path : List Pixel) :
    ((host.setCamera c).showingAll path).setCamera p = (host.showingAll path).setCamera p := by
  cases path with
  | nil => rfl
  | cons q path => rfl

theorem showingAll_append (host : Host) (first second : List Pixel) :
    host.showingAll (first ++ second) = (host.showingAll first).showingAll second :=
  List.foldl_append

/-- With a frame left, a host plays it. -/
theorem advance_of_left {host : Host} (left : 0 < host.framesLeft) :
    host.advance = .ok host.afterFrame := by
  have goes : host.stop? = none := by
    unfold framesLeft horizon at left
    unfold stop?
    cases budget : host.budget with
    | none => cases stops : host.stopsWithInput <;> simp [budget, stops] at left ⊢; omega
    | some limit =>
      have before : ¬limit ≤ host.frame := by
        rw [budget, Option.getD_some] at left
        omega
      cases stops : host.stopsWithInput <;> simp [stops, before] at left ⊢; omega
  rw [advance, goes]

theorem framesLeft_setCamera (host : Host) (p : Pixel) :
    (host.setCamera p).framesLeft = host.framesLeft := rfl

theorem framesLeft_showingAll (host : Host) (path : List Pixel) :
    (host.showingAll path).framesLeft = host.framesLeft - path.length := by
  have horizon : (host.showingAll path).horizon = host.horizon := by
    have rest := congrArg Host.horizon (host.rest_showingAll path)
    exact rest
  rw [framesLeft, horizon, frame_showingAll, framesLeft, Nat.sub_sub]

end Host

namespace HostRun

theorem bind_of_ok {α β : Type} {x : HostRun α} {f : α → HostRun β} {host mid : Host} {a : α}
    (done : x host = .ok a mid) : (x >>= f) host = f a mid := by
  change EStateM.bind x f host = _
  unfold EStateM.bind
  rw [done]

/-- A run that shows a path when there are frames enough, and leaves nothing else but the camera
somewhere. -/
def Shows (run : HostRun Unit) (path : List Pixel) : Prop :=
  ∀ host : Host, path.length ≤ host.framesLeft →
    ∃ after, run host = .ok () after ∧ ∀ p, after.setCamera p = (host.showingAll path).setCamera p

namespace Shows

theorem nothing : Shows (pure ()) [] := fun host _ => ⟨host, rfl, fun _ => rfl⟩

theorem jump (position : Pixel) : Shows (setCamera position) [] :=
  fun host _ => ⟨host.setCamera position, rfl, fun _ => rfl⟩

theorem one (position : Pixel) : Shows (do setCamera position; advance) [position] := by
  intro host enough
  have left : 0 < (host.setCamera position).framesLeft := enough
  refine ⟨host.showing position, ?_, fun _ => rfl⟩
  have goes : advance (host.setCamera position) = .ok () (host.showing position) := by
    rw [advance, Host.advance_of_left left]
    rfl
  exact goes

theorem seq {x y : HostRun Unit} {first second : List Pixel} (hx : Shows x first)
    (hy : Shows y second) : Shows (do x; y) (first ++ second) := by
  intro host enough
  rw [List.length_append] at enough
  obtain ⟨mid, ran, shown⟩ := hx host (by omega)
  have left : mid.framesLeft = host.framesLeft - first.length := by
    rw [← mid.framesLeft_setCamera mid.camera, shown, Host.framesLeft_setCamera,
      Host.framesLeft_showingAll]
  obtain ⟨after, ran', shown'⟩ := hy mid (by omega)
  refine ⟨after, (bind_of_ok ran).trans ran', fun p => ?_⟩
  calc after.setCamera p
      = ((mid.setCamera p).showingAll second).setCamera p := by
        rw [shown', Host.showingAll_setCamera]
    _ = (((host.showingAll first).setCamera p).showingAll second).setCamera p := by rw [shown]
    _ = (host.showingAll (first ++ second)).setCamera p := by
        rw [Host.showingAll_setCamera, Host.showingAll_append]

theorem steps (position : Nat → Pixel) (first count : Nat) :
    Shows (forSteps (fun step => do setCamera (position step); advance) first count)
      ((List.range' first count).map position) := by
  induction count generalizing first with
  | zero => exact nothing
  | succ count ih => exact (one (position first)).seq (ih (first + 1))

end Shows

end HostRun

/-! ### The path of a movement -/

namespace CameraMove

/-- The positions that a movement on one axis shows: none without a distance. -/
def axisPath (frames : Nat) (delta : Int) (position : Nat → Nat → Pixel) : List Pixel :=
  if delta = 0 then [] else (List.range' 1 frames).map fun step => position step frames

/-- The frames that go to the horizontal axis. -/
def acrossFrames (start goal : Pixel) (move : CameraMove) : Nat :=
  horizontalFrames move.frames (goal.x - start.x) (goal.y - start.y)

/-- The positions of the horizontal part of a movement on one axis after the other, at a height. -/
def across (start goal : Pixel) (move : CameraMove) (y : Int) : List Pixel :=
  axisPath (move.acrossFrames start goal) (goal.x - start.x) fun step frames =>
    ⟨between start.x (goal.x - start.x) step frames, y⟩

/-- The positions of the vertical part. -/
def down (start goal : Pixel) (move : CameraMove) (x : Int) : List Pixel :=
  axisPath (move.frames - move.acrossFrames start goal) (goal.y - start.y) fun step frames =>
    ⟨x, between start.y (goal.y - start.y) step frames⟩

/-- The positions that a movement shows, one in each frame. -/
def path (start goal : Pixel) (move : CameraMove) : List Pixel :=
  if move.diagonal then
    (List.range' 1 move.frames).map fun step =>
      ⟨between start.x (goal.x - start.x) step move.frames,
        between start.y (goal.y - start.y) step move.frames⟩
  else
    match move.first with
    | .horizontal => move.across start goal start.y ++ move.down start goal goal.x
    | .vertical => move.down start goal start.x ++ move.across start goal goal.y

theorem shows_alongAxis (frames : Nat) (delta : Int) (position : Nat → Nat → Pixel) :
    HostRun.Shows (alongAxis frames delta position) (axisPath frames delta position) := by
  unfold alongAxis axisPath
  split
  · exact .nothing
  · split
    · rename_i none
      subst none
      exact .jump _
    · exact .steps (fun step => position step frames) 1 frames

/-! ### The frames are shared out -/

/-- The horizontal axis has no more frames than there are. -/
theorem acrossFrames_le (start goal : Pixel) (move : CameraMove) :
    move.acrossFrames start goal ≤ move.frames :=
  Nat.div_le_of_le_mul (by
    rw [Nat.mul_comm]
    exact Nat.mul_le_mul_right _ (Nat.le_add_right _ _))

theorem length_axisPath (frames : Nat) (delta : Int) (position : Nat → Nat → Pixel) :
    (axisPath frames delta position).length = if delta = 0 then 0 else frames := by
  unfold axisPath
  split <;> simp

/-- The horizontal part has its share of the frames, which is none without a distance. -/
theorem length_across (start goal : Pixel) (move : CameraMove) (y : Int) :
    (move.across start goal y).length = move.acrossFrames start goal := by
  rw [across, length_axisPath]
  split
  · rename_i none
    simp [acrossFrames, horizontalFrames, none]
  · rfl

/-- The vertical part has all the rest, which is none without a distance. -/
theorem length_down {start goal : Pixel} (away : start ≠ goal) (move : CameraMove) (x : Int) :
    (move.down start goal x).length = move.frames - move.acrossFrames start goal := by
  rw [down, length_axisPath]
  split
  · rename_i none
    -- Then the horizontal axis has a distance, and all the frames.
    have some : 0 < (goal.x - start.x).natAbs := by
      have differs : start.x ≠ goal.x := fun same =>
        away (congrArg₂ Pixel.mk same (by omega))
      omega
    have all : move.acrossFrames start goal = move.frames := by
      rw [acrossFrames, horizontalFrames, none, Int.natAbs_zero, Nat.add_zero]
      exact Nat.mul_div_cancel _ some
    omega
  · rfl

/-- A movement lasts as long as it is given, but on one axis after the other it needs a way to
go. -/
theorem length_path (start goal : Pixel) (move : CameraMove) :
    (move.path start goal).length =
      if move.diagonal = false ∧ start = goal then 0 else move.frames := by
  unfold path
  cases diagonal : move.diagonal with
  | true => simp
  | false =>
    rw [if_neg Bool.false_ne_true]
    by_cases here : start = goal
    · subst here
      cases move.first <;> simp [across, down, axisPath]
    · have shared := Nat.add_sub_cancel' (acrossFrames_le start goal move)
      rw [if_neg fun h => here h.2]
      cases move.first with
      | horizontal => rw [List.length_append, length_across, length_down here, shared]
      | vertical => rw [List.length_append, length_across, length_down here, Nat.add_comm, shared]

/-- The frames of a movement are those of its path. -/
theorem duration_eq (start : Pixel) (bounds : ScrollBounds) (move : CameraMove) :
    move.duration start bounds = (move.path start (bounds.clamp move.target)).length := by
  unfold duration
  dsimp only
  generalize bounds.clamp move.target = goal
  by_cases given : move.frames = 0 ∨ move.diagonal
  · rw [if_pos given, length_path]
    rcases given with none | diagonal
    · simp [none]
    · simp [diagonal]
  · have sequential : ¬move.diagonal := fun diagonal => given (.inr diagonal)
    rw [if_neg given, path, if_neg sequential]
    cases move.first with
    | horizontal => rw [List.length_append, across, down, length_axisPath, length_axisPath]; rfl
    | vertical =>
      rw [List.length_append, across, down, length_axisPath, length_axisPath, Nat.add_comm]
      rfl

/-- A movement shows its path, and ends at its goal with nothing else changed. -/
theorem run_eq (start : Pixel) (bounds : ScrollBounds) (move : CameraMove) {host : Host}
    (enough : (move.path start (bounds.clamp move.target)).length ≤ host.framesLeft) :
    move.run start bounds host =
      .ok (bounds.clamp move.target)
        ((host.showingAll (move.path start (bounds.clamp move.target))).setCamera
          (bounds.clamp move.target)) := by
  unfold run
  dsimp only
  generalize bounds.clamp move.target = goal at enough ⊢
  have ends {shows : HostRun Unit} {path : List Pixel} (h : shows.Shows path)
      (enough : path.length ≤ host.framesLeft) :
      (do shows; HostRun.setCamera goal; return goal : HostRun Pixel) host =
        .ok goal ((host.showingAll path).setCamera goal) := by
    obtain ⟨after, ran, shown⟩ := h host enough
    rw [HostRun.bind_of_ok ran, ← shown goal]
    rfl
  split
  · rename_i none
    have empty : move.path start goal = [] :=
      List.eq_nil_of_length_eq_zero ((length_path ..).trans (by simp [none]))
    rw [empty]
    rfl
  · unfold path at enough ⊢
    split
    · rename_i diagonal
      rw [if_pos diagonal] at enough
      exact ends (.steps _ 1 move.frames) enough
    · rename_i sequential
      rw [if_neg sequential] at enough
      generalize move.first = first at enough ⊢
      cases first with
      | horizontal =>
        have ran := ends (.seq (shows_alongAxis _ _ _) (shows_alongAxis _ _ _)) enough
        rwa [bind_assoc] at ran
      | vertical =>
        have ran := ends (.seq (shows_alongAxis _ _ _) (shows_alongAxis _ _ _)) enough
        rwa [bind_assoc] at ran

end CameraMove

/-! ### Each position is nearer -/

namespace CameraMove

/-- Positions that come nearer from step to step. -/
theorem pairwise_steps {goal : Pixel} {position : Nat → Pixel} {frames : Nat}
    (nearer : ∀ earlier later, earlier < later → later ≤ frames →
      (position earlier).Within goal (position later)) :
    ((List.range' 1 frames).map position).Pairwise fun p q => p.Within goal q := by
  refine List.pairwise_map.mpr (List.Pairwise.imp_of_mem ?_ (List.pairwise_lt_range' 1))
  intro earlier later _ last order
  obtain ⟨-, bounded⟩ := List.mem_range'_1.mp last
  exact nearer earlier later order (by omega)

theorem pairwise_axisPath {goal : Pixel} {frames : Nat} {delta : Int}
    {position : Nat → Nat → Pixel}
    (nearer : ∀ earlier later, earlier < later → later ≤ frames →
      (position earlier frames).Within goal (position later frames)) :
    (axisPath frames delta position).Pairwise fun p q => p.Within goal q := by
  unfold axisPath
  split
  · exact .nil
  · exact pairwise_steps nearer

/-- What holds of each step holds of each position. -/
theorem forall_mem_axisPath {P : Pixel → Prop} {frames : Nat} {delta : Int}
    {position : Nat → Nat → Pixel}
    (holds : ∀ step, 1 ≤ step → step ≤ frames → P (position step frames)) :
    ∀ p ∈ axisPath frames delta position, P p := by
  intro p on
  unfold axisPath at on
  split at on
  · cases on
  · obtain ⟨step, bounds, rfl⟩ := List.mem_map.mp on
    obtain ⟨least, most⟩ := List.mem_range'_1.mp bounds
    exact holds step least (by omega)

section

variable (start goal : Pixel) (move : CameraMove)

theorem mem_across (y : Int) :
    ∀ p ∈ move.across start goal y,
      p.y = y ∧ min start.x goal.x ≤ p.x ∧ p.x ≤ max start.x goal.x :=
  forall_mem_axisPath fun _ first last => ⟨rfl, between_bounds _ _ first last⟩

theorem mem_down (x : Int) :
    ∀ p ∈ move.down start goal x,
      p.x = x ∧ min start.y goal.y ≤ p.y ∧ p.y ≤ max start.y goal.y :=
  forall_mem_axisPath fun _ first last => ⟨rfl, between_bounds _ _ first last⟩

theorem pairwise_across (y : Int) :
    (move.across start goal y).Pairwise fun p q => p.Within goal q := by
  refine pairwise_axisPath fun earlier later order last => ⟨?_, ?_⟩
  · exact between_nearer start.x goal.x (Nat.le_of_lt order) last (by omega)
  · exact ⟨Int.min_le_left .., Int.le_max_left ..⟩

theorem pairwise_down (x : Int) :
    (move.down start goal x).Pairwise fun p q => p.Within goal q := by
  refine pairwise_axisPath fun earlier later order last => ⟨?_, ?_⟩
  · exact ⟨Int.min_le_left .., Int.le_max_left ..⟩
  · exact between_nearer start.y goal.y (Nat.le_of_lt order) last (by omega)

/-- Each position of a movement lies between the goal and every position before it, and the start. -/
theorem pairwise_path : (start :: move.path start goal).Pairwise fun p q => p.Within goal q := by
  have across := mem_across start goal move
  have down := mem_down start goal move
  rw [List.pairwise_cons]
  unfold path
  split
  · constructor
    · intro p on
      obtain ⟨step, bounds, rfl⟩ := List.mem_map.mp on
      obtain ⟨least, most⟩ := List.mem_range'_1.mp bounds
      exact ⟨between_bounds _ _ least (by omega), between_bounds _ _ least (by omega)⟩
    · refine pairwise_steps fun earlier later order last => ⟨?_, ?_⟩
      · exact between_nearer start.x goal.x (Nat.le_of_lt order) last (by omega)
      · exact between_nearer start.y goal.y (Nat.le_of_lt order) last (by omega)
  · cases move.first with
    | horizontal =>
      constructor
      · intro p on
        unfold Pixel.Within
        rcases List.mem_append.mp on with first | second
        · have here := across start.y p first
          omega
        · have here := down goal.x p second
          omega
      · refine List.pairwise_append.mpr ⟨pairwise_across .., pairwise_down .., ?_⟩
        intro p first q second
        have here := across start.y p first
        have there := down goal.x q second
        unfold Pixel.Within
        omega
    | vertical =>
      constructor
      · intro p on
        unfold Pixel.Within
        rcases List.mem_append.mp on with first | second
        · have here := down start.x p first
          omega
        · have here := across goal.y p second
          omega
      · refine List.pairwise_append.mpr ⟨pairwise_down .., pairwise_across .., ?_⟩
        intro p first q second
        have here := down start.x p first
        have there := across goal.y q second
        unfold Pixel.Within
        omega

end

end CameraMove

/-! ### The arithmetic of machine words -/

namespace Word

/-- `between` in machine words: the product and the quotient have 64 bits, all else has 32. -/
def between? (start delta : Int) (step frames : Nat) : Option Int := do
  let product ← signed64? (delta * step)
  let share ← quotient? product frames
  let share ← signed32? share
  signed32? (start + share)

/-- `CameraMove.horizontalFrames` in machine words: the product and the quotient have 64 bits, the
sum and the result have 32. -/
def horizontalFrames? (frames : Nat) (dx dy : Int) : Option Nat := do
  let total ← unsigned32? (dx.natAbs + dy.natAbs)
  if total = 0 then return 0
  let product ← unsigned64? (frames * dx.natAbs)
  unsigned32? (product / total)

/-- A step of a movement can be computed in machine words. -/
theorem between?_eq {start goal : Int} {step frames : Nat} (starts : Signed32 start)
    (ends : Signed32 goal) (near : (goal - start).natAbs < 2147483648) (first : 1 ≤ step)
    (last : step ≤ frames) (few : frames < Number.word32) :
    between? start (goal - start) step frames = some (between start (goal - start) step frames) := by
  have within := between_bounds start goal first last
  have some : (frames : Int) ≠ 0 := by omega
  have product : ((goal - start) * step).natAbs ≤ 2147483647 * 4294967295 := by
    rw [Int.natAbs_mul, Int.natAbs_natCast]
    unfold Number.word32 at few
    exact Nat.mul_le_mul (by omega) (by omega)
  have quotient := Int.natAbs_tdiv_le_natAbs ((goal - start) * step) frames
  unfold between at within ⊢
  unfold Signed32 at starts ends
  have fits : signed64? ((goal - start) * step) = .some ((goal - start) * step) :=
    if_pos (by omega)
  have divides : quotient? ((goal - start) * step) frames =
      .some (((goal - start) * step).tdiv frames) :=
    (if_neg some).trans (if_pos (by omega))
  have narrows : signed32? (((goal - start) * step).tdiv frames) =
      .some (((goal - start) * step).tdiv frames) :=
    if_pos (by unfold Signed32; omega)
  have arrives : signed32? (start + ((goal - start) * step).tdiv frames) =
      .some (start + ((goal - start) * step).tdiv frames) :=
    if_pos (by unfold Signed32; omega)
  simp only [between?, fits, divides, narrows, arrives, Option.bind_eq_bind, Option.bind_some]

/-- The frames can be shared out in machine words. -/
theorem horizontalFrames?_eq {frames : Nat} {dx dy : Int} (few : frames < Number.word32)
    (nearX : dx.natAbs < 2147483648) (nearY : dy.natAbs < 2147483648) :
    horizontalFrames? frames dx dy = some (CameraMove.horizontalFrames frames dx dy) := by
  have sum : unsigned32? (dx.natAbs + dy.natAbs) = some (dx.natAbs + dy.natAbs) :=
    if_pos (by unfold Number.word32; omega)
  have most : frames * dx.natAbs ≤ 4294967295 * 2147483647 := by
    unfold Number.word32 at few
    exact Nat.mul_le_mul (by omega) (by omega)
  have product : unsigned64? (frames * dx.natAbs) = some (frames * dx.natAbs) :=
    if_pos (by unfold Number.word64; omega)
  have share : CameraMove.horizontalFrames frames dx dy ≤ frames :=
    Nat.div_le_of_le_mul (by
      rw [Nat.mul_comm]
      exact Nat.mul_le_mul_right _ (Nat.le_add_right _ _))
  have narrows : unsigned32? (CameraMove.horizontalFrames frames dx dy) =
      some (CameraMove.horizontalFrames frames dx dy) :=
    if_pos (Nat.lt_of_le_of_lt share few)
  simp only [horizontalFrames?, sum, Option.bind_eq_bind, Option.bind_some]
  split
  · rename_i none
    rw [CameraMove.horizontalFrames, none, Nat.div_zero]
    rfl
  · rw [product]
    exact narrows

end Word

/-- A run of the host that computes with machine words: it also fails, without a reason of the host,
where a result has no place. -/
abbrev WordRun := EStateM (Option HostStop) Host

namespace HostRun

/-- A run of the host as one that computes with machine words. -/
def onWords {α : Type} (run : HostRun α) : WordRun α := Word.lift run

theorem onWords_bind {α β : Type} (x : HostRun α) (f : α → HostRun β) :
    (x >>= f).onWords = x.onWords >>= fun a => (f a).onWords := Word.lift_bind x f

theorem onWords_forSteps {f : Nat → HostRun Unit} {g : Nat → WordRun Unit} {first count : Nat}
    (same : ∀ step, first ≤ step → step < first + count → g step = (f step).onWords) :
    forSteps g first count = (forSteps f first count).onWords := by
  induction count generalizing first with
  | zero => rfl
  | succ count ih =>
    have here := same first (Nat.le_refl _) (by omega)
    have rest := ih fun step (least : first + 1 ≤ step) less => same step (by omega) (by omega)
    rw [forSteps, forSteps, onWords_bind, here, rest]

end HostRun

namespace CameraMove

open Word

/-- `alongAxis` with positions that have to be computed. -/
def alongAxisOnWords (frames : Nat) (delta : Int) (position : Nat → Nat → Option Pixel) :
    WordRun Unit :=
  if delta = 0 then pure ()
  else if frames = 0 then do
    let p ← compute (position 1 1)
    (HostRun.setCamera p).onWords
  else
    forSteps (fun step => do
      let p ← compute (position step frames)
      (HostRun.setCamera p).onWords
      HostRun.advance.onWords) 1 frames

/-- `run`, where every sum, difference, product, quotient and conversion has its place in a machine
word, or the movement fails. -/
def runOnWords (start : Pixel) (bounds : ScrollBounds) (move : CameraMove) : WordRun Pixel := do
  let goal := bounds.clamp move.target
  if move.frames = 0 then
    (HostRun.setCamera goal).onWords
    return goal
  let dx ← compute (signed32? (goal.x - start.x))
  let dy ← compute (signed32? (goal.y - start.y))
  if move.diagonal then
    forSteps (fun step => do
      let x ← compute (between? start.x dx step move.frames)
      let y ← compute (between? start.y dy step move.frames)
      (HostRun.setCamera ⟨x, y⟩).onWords
      HostRun.advance.onWords) 1 move.frames
  else
    let across ← compute (horizontalFrames? move.frames dx dy)
    let down ← compute (minus? move.frames across)
    match move.first with
    | .horizontal =>
      alongAxisOnWords across dx fun step frames =>
        (between? start.x dx step frames).map fun x => ⟨x, start.y⟩
      alongAxisOnWords down dy fun step frames =>
        (between? start.y dy step frames).map fun y => ⟨goal.x, y⟩
    | .vertical =>
      alongAxisOnWords down dy fun step frames =>
        (between? start.y dy step frames).map fun y => ⟨start.x, y⟩
      alongAxisOnWords across dx fun step frames =>
        (between? start.x dx step frames).map fun x => ⟨x, goal.y⟩
  (HostRun.setCamera goal).onWords
  return goal

/-- A movement between points of 32 bits, with distances below `2147483648`. -/
structure Fits (start goal : Pixel) (move : CameraMove) : Prop where
  startX : Signed32 start.x
  startY : Signed32 start.y
  goalX : Signed32 goal.x
  goalY : Signed32 goal.y
  nearX : (goal.x - start.x).natAbs < 2147483648
  nearY : (goal.y - start.y).natAbs < 2147483648
  few : move.frames < Number.word32

theorem alongAxisOnWords_eq {frames : Nat} {delta : Int} {position : Nat → Nat → Pixel}
    {position? : Nat → Nat → Option Pixel}
    (same : ∀ step frames', frames' ≤ max 1 frames → 1 ≤ step → step ≤ frames' →
      position? step frames' = some (position step frames')) :
    alongAxisOnWords frames delta position? = (alongAxis frames delta position).onWords := by
  unfold alongAxisOnWords alongAxis
  split
  · rfl
  · split
    · rw [same 1 1 (by omega) (Nat.le_refl _) (Nat.le_refl _)]
      rfl
    · refine HostRun.onWords_forSteps fun step first last => ?_
      rw [same step frames (by omega) first (by omega), HostRun.onWords_bind]
      rfl

namespace Fits

variable {start goal : Pixel} {move : CameraMove} (fits : move.Fits start goal)

include fits

theorem distances :
    signed32? (goal.x - start.x) = some (goal.x - start.x) ∧
      signed32? (goal.y - start.y) = some (goal.y - start.y) := by
  have nearX := fits.nearX
  have nearY := fits.nearY
  constructor <;> refine if_pos ?_ <;> unfold Signed32 <;> omega

theorem few_of_le {frames : Nat} (fewer : frames ≤ max 1 move.frames) :
    frames < Number.word32 := by
  have few := fits.few
  unfold Number.word32 at few ⊢
  omega

theorem x_eq {step frames : Nat} (fewer : frames ≤ max 1 move.frames) (first : 1 ≤ step)
    (last : step ≤ frames) :
    between? start.x (goal.x - start.x) step frames =
      some (between start.x (goal.x - start.x) step frames) :=
  between?_eq fits.startX fits.goalX fits.nearX first last (fits.few_of_le fewer)

theorem y_eq {step frames : Nat} (fewer : frames ≤ max 1 move.frames) (first : 1 ≤ step)
    (last : step ≤ frames) :
    between? start.y (goal.y - start.y) step frames =
      some (between start.y (goal.y - start.y) step frames) :=
  between?_eq fits.startY fits.goalY fits.nearY first last (fits.few_of_le fewer)

theorem across_eq {frames : Nat} (fewer : frames ≤ move.frames) (y : Int) :
    alongAxisOnWords frames (goal.x - start.x) (fun step frames =>
        (between? start.x (goal.x - start.x) step frames).map fun x => ⟨x, y⟩) =
      (alongAxis frames (goal.x - start.x) fun step frames =>
        ⟨between start.x (goal.x - start.x) step frames, y⟩).onWords :=
  alongAxisOnWords_eq fun step frames' least first last => by
    rw [fits.x_eq (by omega) first last]
    rfl

theorem down_eq {frames : Nat} (fewer : frames ≤ move.frames) (x : Int) :
    alongAxisOnWords frames (goal.y - start.y) (fun step frames =>
        (between? start.y (goal.y - start.y) step frames).map fun y => ⟨x, y⟩) =
      (alongAxis frames (goal.y - start.y) fun step frames =>
        ⟨x, between start.y (goal.y - start.y) step frames⟩).onWords :=
  alongAxisOnWords_eq fun step frames' least first last => by
    rw [fits.y_eq (by omega) first last]
    rfl

end Fits

/-- No operation on machine words fails for a movement that fits. -/
theorem runOnWords_eq {start : Pixel} {bounds : ScrollBounds} {move : CameraMove}
    (fits : move.Fits start (bounds.clamp move.target)) :
    move.runOnWords start bounds = (move.run start bounds).onWords := by
  unfold runOnWords run
  dsimp only
  generalize bounds.clamp move.target = goal at fits
  have arrives : (do HostRun.setCamera goal; return goal : HostRun Pixel).onWords =
      (do (HostRun.setCamera goal).onWords; return goal) := rfl
  split
  · exact arrives.symm
  · obtain ⟨dx, dy⟩ := fits.distances
    simp only [dx, dy, compute_some, pure_bind]
    split
    · rw [HostRun.onWords_bind, arrives]
      congr 1
      refine HostRun.onWords_forSteps fun step first last => ?_
      rw [fits.x_eq (by omega) first (by omega), fits.y_eq (by omega) first (by omega)]
      rfl
    · have share : horizontalFrames move.frames (goal.x - start.x) (goal.y - start.y) ≤ move.frames :=
        move.acrossFrames_le start goal
      have shared := horizontalFrames?_eq fits.few fits.nearX fits.nearY
      have remain : minus? move.frames
          (horizontalFrames move.frames (goal.x - start.x) (goal.y - start.y)) =
          some (move.frames - horizontalFrames move.frames (goal.x - start.x) (goal.y - start.y)) :=
        if_pos share
      simp only [shared, remain, compute_some, pure_bind]
      cases move.first with
      | horizontal =>
        dsimp only
        rw [fits.across_eq share, fits.down_eq (Nat.sub_le ..), HostRun.onWords_bind,
          HostRun.onWords_bind, arrives]
      | vertical =>
        dsimp only
        rw [fits.across_eq share, fits.down_eq (Nat.sub_le ..), HostRun.onWords_bind,
          HostRun.onWords_bind, arrives]

end CameraMove

/-! ### The law of panning -/

namespace CameraMove

/-- The blocks of a movement on one axis after the other: what it shows on the horizontal axis, and
what it shows on the vertical one. -/
structure Blocks (start goal : Pixel) (move : CameraMove) (path across down : List Pixel) : Prop where
  /-- The axis that goes first keeps the other one at its start, and is at its end after that. -/
  order :
    match move.first with
    | .horizontal =>
      path = across ++ down ∧ (∀ p ∈ across, p.y = start.y) ∧ ∀ p ∈ down, p.x = goal.x
    | .vertical =>
      path = down ++ across ∧ (∀ p ∈ down, p.x = start.x) ∧ ∀ p ∈ across, p.y = goal.y
  /-- The horizontal axis has its share of the frames, rounded down. -/
  across_share (away : start ≠ goal) :
    across.length =
      move.frames * (goal.x - start.x).natAbs /
        ((goal.x - start.x).natAbs + (goal.y - start.y).natAbs)
  /-- The vertical axis has all the rest. -/
  down_rest (away : start ≠ goal) : across.length + down.length = move.frames
  /-- An axis without a distance has none. -/
  across_none (level : start.x = goal.x) : across = []
  down_none (level : start.y = goal.y) : down = []

/-- What a movement of the camera from a point comes to on a host, which it leaves behind after
frames that show a path. -/
structure Pans (start goal : Pixel) (move : CameraMove) (host after : Host) (path : List Pixel) :
    Prop where
  /-- The camera is at the goal. -/
  arrives : after.camera = goal
  /-- As many frames are over as are given, but none when there is no way to go on one axis after the
  other. -/
  lasts :
    after.frame = host.frame + if move.diagonal = false ∧ start = goal then 0 else move.frames
  /-- Each of them showed the next position of the path, and else what was shown before. -/
  shown : after.frames = host.frames ++ path.map fun p => ⟨p, host.alpha, host.dialog.isSome⟩
  /-- Nothing else of the host is changed, but the buttons as frames change them. -/
  rest :
    { after with
        camera := host.camera, frame := host.frame, states := host.states, past := host.past } =
      host
  /-- Each position lies between the goal and every position before it, the start included. -/
  nearer : (start :: path).Pairwise fun p q => p.Within goal q
  /-- On one axis after the other there is a block for each axis. -/
  blocks (sequential : move.diagonal = false) :
    ∃ across down, move.Blocks start goal path across down

theorem blocks_path (start goal : Pixel) {move : CameraMove} (sequential : move.diagonal = false) :
    ∃ across down, move.Blocks start goal (move.path start goal) across down := by
  have path : move.path start goal =
      match move.first with
      | .horizontal => move.across start goal start.y ++ move.down start goal goal.x
      | .vertical => move.down start goal start.x ++ move.across start goal goal.y :=
    if_neg (by simp [sequential])
  have share := acrossFrames_le start goal move
  refine ⟨move.across start goal (match move.first with
      | .horizontal => start.y
      | .vertical => goal.y),
    move.down start goal (match move.first with
      | .horizontal => goal.x
      | .vertical => start.x), ?_, ?_, ?_, ?_, ?_⟩
  · cases first : move.first with
    | horizontal =>
      rw [path, first]
      exact ⟨rfl, fun p on => (mem_across _ _ _ _ p on).1, fun p on => (mem_down _ _ _ _ p on).1⟩
    | vertical =>
      rw [path, first]
      exact ⟨rfl, fun p on => (mem_down _ _ _ _ p on).1, fun p on => (mem_across _ _ _ _ p on).1⟩
  · intro away
    exact length_across ..
  · intro away
    rw [length_across, length_down away, Nat.add_sub_cancel' share]
  · intro level
    exact if_pos (by omega)
  · intro level
    exact if_pos (by omega)

/-- **The camera pans to its goal.** On a host with enough frames left a movement between points of
32 bits comes to its end at its target, or the point within the bounds that is nearest to it. It
shows a path that goes there without turning back, and takes the frames that it is given. No
operation on the machine words that it computes with fails. -/
theorem pans_of_enough (start : Pixel) (bounds : ScrollBounds) (move : CameraMove) (host : Host)
    (fits : move.Fits start (bounds.clamp move.target))
    (enough : move.duration start bounds ≤ host.framesLeft) :
    ∃ after path,
      move.run start bounds host = .ok (bounds.clamp move.target) after ∧
        move.runOnWords start bounds host = .ok (bounds.clamp move.target) after ∧
        move.Pans start (bounds.clamp move.target) host after path := by
  have words := congrFun (runOnWords_eq fits) host
  rw [duration_eq] at enough
  have ran := run_eq start bounds move enough
  generalize bounds.clamp move.target = goal at ran ⊢
  have computed : move.runOnWords start bounds host =
      .ok goal ((host.showingAll (move.path start goal)).setCamera goal) :=
    words.trans (Word.lift_eq_ok_iff.mpr ran)
  refine ⟨_, move.path start goal, ran, computed, ?_⟩
  exact {
    arrives := rfl
    lasts := (Host.frame_showingAll ..).trans (by rw [length_path])
    shown := Host.frames_showingAll ..
    rest := Host.rest_showingAll ..
    nearer := pairwise_path start goal move
    blocks := blocks_path start goal }

/-- A movement down the left edge of a map and then to the right, that would go beyond it. -/
def dogleg : CameraMove := ⟨⟨-90, 50⟩, 7, false, .vertical⟩

/-- It takes five frames for the way down and two for the way to the right. -/
theorem pans_of_enough_dogleg :
    let start : Pixel := ⟨-60, 0⟩
    let bounds : ScrollBounds := ⟨-40, 40, -40, 40⟩
    let host : Host := .fresh .empty (some 7) false
    dogleg.Fits start (bounds.clamp dogleg.target) ∧
      dogleg.duration start bounds ≤ host.framesLeft ∧
      ∃ after path,
        dogleg.run start bounds host = .ok ⟨-40, 40⟩ after ∧
          dogleg.runOnWords start bounds host = .ok ⟨-40, 40⟩ after ∧
          dogleg.Pans start ⟨-40, 40⟩ host after path := by
  intro start bounds host
  have fits : dogleg.Fits start (bounds.clamp dogleg.target) :=
    ⟨by decide, by decide, by decide, by decide, by decide, by decide, by decide⟩
  have enough : dogleg.duration start bounds ≤ host.framesLeft := by decide
  exact ⟨fits, enough, pans_of_enough start bounds dogleg host fits enough⟩

example :
    dogleg.path ⟨-60, 0⟩ ⟨-40, 40⟩ =
      [⟨-60, 8⟩, ⟨-60, 16⟩, ⟨-60, 24⟩, ⟨-60, 32⟩, ⟨-60, 40⟩, ⟨-50, 40⟩, ⟨-40, 40⟩] := by decide

end CameraMove

end Overworld
