import Overworld.Proofs.Edges
import Overworld.Proofs.Sprites

/-!
What a host does with the calls that it gets, in any order.

Only `advance` takes time, so the frame and the buttons of a host are those of its script after as
many frames as it has played, and a host that has come to its end stays there. Sprites are named by
the order in which they are made, so a handle never names another sprite than its own, and whatever
is done to one that is not there leaves the host as it is.
-/

namespace Overworld

/-! ### Calls -/

/-- Something that a host can be asked to do. Looks at it leave it as it is and are not among them. -/
inductive HostCall where
  | advance
  | createSprite (sprite : Sprite)
  | destroySprite (h : SpriteHandle)
  | moveSprite (h : SpriteHandle) (position : Pixel)
  | showSprite (h : SpriteHandle) (visible : Bool)
  | setFlip (h : SpriteHandle) (flip : Bool)
  | setBlending (h : SpriteHandle) (blending : Bool)
  | setBackground (background : Background)
  | present (change : Presentation)

namespace HostCall

/-- Do what is asked. The answer is the handle of a sprite that was made. -/
def perform (call : HostCall) : HostRun (Option SpriteHandle) := fun host =>
  match call with
  | advance =>
    match HostRun.advance host with
    | .ok _ host => .ok none host
    | .error stop host => .error stop host
  | createSprite sprite => .ok (some (host.createSprite sprite).1) (host.createSprite sprite).2
  | destroySprite h => .ok none (host.destroySprite h)
  | moveSprite h position => .ok none (host.moveSprite h position)
  | showSprite h visible => .ok none (host.showSprite h visible)
  | setFlip h flip => .ok none (host.setFlip h flip)
  | setBlending h blending => .ok none (host.setBlending h blending)
  | setBackground background => .ok none (host.setBackground background)
  | present change => .ok none (change.apply host)

/-- The host that a call leaves, whether it failed or not. -/
def leaves (call : HostCall) (host : Host) : Host :=
  match call.perform host with
  | .ok _ after => after
  | .error _ after => after

/-- The sprite that a call makes. -/
def made (call : HostCall) (host : Host) : Option SpriteHandle :=
  match call.perform host with
  | .ok answer _ => answer
  | .error _ _ => none

/-- The sprite that a call is about. -/
def sprite? : HostCall → Option SpriteHandle
  | destroySprite h => some h
  | moveSprite h _ => some h
  | showSprite h _ => some h
  | setFlip h _ => some h
  | setBlending h _ => some h
  | present (.picture h _) => some h
  | _ => none

/-- Whether a call plays a frame. -/
def plays (call : HostCall) (host : Host) : Bool :=
  match call, host.advance with
  | advance, .ok _ => true
  | _, _ => false

end HostCall

namespace Host

/-- The host after calls, each of which is made where the last one ended. -/
def after (host : Host) (calls : List HostCall) : Host :=
  calls.foldl (fun host call => call.leaves host) host

/-- Calls with the hosts to which they are made, the first one first. -/
def history (host : Host) : List HostCall → List (HostCall × Host)
  | [] => []
  | call :: calls => (call, host) :: (call.leaves host).history calls

/-- How many frames calls play. -/
def played (host : Host) (calls : List HostCall) : Nat :=
  (host.history calls).countP fun made => made.1.plays made.2

/-- The sprites that calls make, in order. -/
def created (host : Host) (calls : List HostCall) : List SpriteHandle :=
  (host.history calls).filterMap fun made => made.1.made made.2

/-- A sprite was destroyed after it was made. -/
def Destroyed (host : Host) (calls : List HostCall) (h : SpriteHandle) : Prop :=
  ∃ before later, calls = before ++ .destroySprite h :: later ∧ h ∈ host.created before

variable (host : Host)

theorem after_append (calls more : List HostCall) :
    host.after (calls ++ more) = (host.after calls).after more := List.foldl_append

theorem history_append (calls more : List HostCall) :
    host.history (calls ++ more) = host.history calls ++ (host.after calls).history more := by
  induction calls generalizing host with
  | nil => rfl
  | cons call calls ih => exact congrArg ((call, host) :: ·) (ih _)

theorem created_append (calls more : List HostCall) :
    host.created (calls ++ more) = host.created calls ++ (host.after calls).created more := by
  unfold created
  rw [history_append, List.filterMap_append]

end Host

/-! ### Time -/

namespace HostCall

variable {host : Host}

theorem advance_of_goes (goes : host.stop? = none) :
    HostRun.advance host = .ok () host.afterFrame := by
  simp only [HostRun.advance, Host.advance, goes]

theorem advance_of_stops {stop : HostStop} (stops : host.stop? = some stop) :
    HostRun.advance host = .error stop host := by
  simp only [HostRun.advance, Host.advance, stops]

theorem perform_of_goes (goes : host.stop? = none) :
    advance.perform host = .ok none host.afterFrame := by
  simp only [perform, advance_of_goes goes]

theorem perform_of_stops {stop : HostStop} (stops : host.stop? = some stop) :
    advance.perform host = .error stop host := by
  simp only [perform, advance_of_stops stops]

/-- A call plays a frame, or fails and changes nothing, or takes no time. -/
inductive Step (host : Host) :
    HostCall → EStateM.Result HostStop Host (Option SpriteHandle) → Prop
  | frame (goes : host.stop? = none) : Step host .advance (.ok none host.afterFrame)
  | halt {stop : HostStop} (stops : host.stop? = some stop) :
    Step host .advance (.error stop host)
  | calm {call : HostCall} {answer : Option SpriteHandle} {after : Host} (other : call ≠ .advance)
    (same : after.clock = host.clock) : Step host call (.ok answer after)

theorem step (call : HostCall) (host : Host) : call.Step host (call.perform host) := by
  cases call with
  | advance =>
    cases stops : host.stop? with
    | none => exact perform_of_goes stops ▸ .frame stops
    | some stop => exact perform_of_stops stops ▸ .halt stops
  | present change => exact .calm nofun (by cases change <;> rfl)
  | _ => exact .calm nofun rfl

/-- Of all calls those that play a frame are counted. -/
theorem frame_leaves (call : HostCall) (host : Host) :
    (call.leaves host).frame = host.frame + if call.plays host then 1 else 0 := by
  cases call with
  | advance =>
    cases stops : host.stop? with
    | none =>
      have plays : advance.plays host = true := by simp only [plays, Host.advance, stops]
      rw [leaves, perform_of_goes stops, plays]
      rfl
    | some stop =>
      have plays : advance.plays host = false := by simp only [plays, Host.advance, stops]
      rw [leaves, perform_of_stops stops, plays]
      rfl
  | present change => cases change <;> rfl
  | _ => rfl

end HostCall

namespace Host

variable {host : Host}

/-- What is kept by frames, and by all that leaves the clock alone, is kept by calls. -/
theorem after_keeps {P : Host → Prop} (start : P host)
    (calm : ∀ a b : Host, b.clock = a.clock → P a → P b)
    (frame : ∀ a : Host, a.stop? = none → P a → P a.afterFrame) (calls : List HostCall) :
    P (host.after calls) := by
  induction calls generalizing host with
  | nil => exact start
  | cons call calls ih =>
    have left : P (call.leaves host) := by
      have step := call.step host
      unfold HostCall.leaves
      generalize call.perform host = result at step
      cases step with
      | frame goes => exact frame host goes start
      | halt stops => exact start
      | calm other same => exact calm host _ same start
    exact ih left

theorem stop?_congr {a b : Host} (same : a.clock = b.clock) : a.stop? = b.stop? := by
  simp only [clock, Clock.mk.injEq] at same
  obtain ⟨input, -, frame, budget, stops, -⟩ := same
  simp only [stop?, input, frame, budget, stops]

theorem advance_eq_error_iff {stop : HostStop} :
    host.advance = .error stop ↔ host.stop? = some stop := by
  unfold advance
  cases host.stop? with
  | none => exact ⟨nofun, nofun⟩
  | some other => simp

/-- A host that has come to its end stays there. -/
theorem stop?_after {stop : HostStop} (stops : host.stop? = some stop) (calls : List HostCall) :
    (host.after calls).stop? = some stop :=
  after_keeps (P := fun host => host.stop? = some stop) stops
    (fun _ _ same stops => (stop?_congr same).trans stops)
    (fun _ goes stops => nomatch goes.symm.trans stops) calls

/-- A host counts the frames that it plays. -/
theorem frame_after (host : Host) (calls : List HostCall) :
    (host.after calls).frame = host.frame + host.played calls := by
  induction calls generalizing host with
  | nil => rfl
  | cons call calls ih =>
    have first := call.frame_leaves host
    have rest := ih (call.leaves host)
    have count : host.played (call :: calls) =
        (call.leaves host).played calls + if call.plays host then 1 else 0 := List.countP_cons ..
    change ((call.leaves host).after calls).frame = _
    omega

end Host

/-! ### Sprites -/

namespace Host

variable (host : Host)

/-- A change of a sprite that is not there changes nothing. -/
theorem updateSprite_of_not_mem {h : SpriteHandle} (gone : h ∉ host.handles)
    (change : Sprite → Sprite) : host.updateSprite h change = host := by
  have same : (host.sprites.map fun entry =>
      if entry.1 = h then (entry.1, change entry.2) else entry) = host.sprites := by
    refine (List.map_congr_left fun entry mem => if_neg ?_).trans (List.map_id _)
    intro is
    exact gone (is ▸ List.mem_map_of_mem mem)
  rw [updateSprite, same]

theorem destroySprite_of_not_mem {h : SpriteHandle} (gone : h ∉ host.handles) :
    host.destroySprite h = host := by
  have same : host.sprites.filter (·.1 != h) = host.sprites := by
    refine List.filter_eq_self.mpr fun entry mem => ?_
    have differs : entry.1 ≠ h := fun is => gone (is ▸ List.mem_map_of_mem mem)
    simp [differs]
  rw [destroySprite, same]

end Host

/-- What is asked about a sprite that is not there changes nothing. -/
theorem HostCall.perform_of_not_mem {call : HostCall} {h : SpriteHandle} (about : call.sprite? = some h)
    {host : Host} (gone : h ∉ host.handles) : call.perform host = .ok none host := by
  have update (change : Sprite → Sprite) := host.updateSprite_of_not_mem gone change
  cases call with
  | destroySprite k =>
    cases about
    exact congrArg _ (host.destroySprite_of_not_mem gone)
  | present change =>
    cases change with
    | picture k frame =>
      cases about
      exact congrArg (EStateM.Result.ok none) (update fun s => { s with frame := frame })
    | _ => cases about
  | moveSprite | showSprite | setFlip | setBlending =>
    cases about
    exact congrArg _ (update _)
  | _ => cases about

/-- What a call does with the sprites of a host: the handles of those that are there, and the number
of the next one. -/
inductive HostCall.Cast (host : Host) (call : HostCall) : Prop
  | makes (makes : call.made host = some ⟨host.nextSprite⟩)
    (spares : ∀ h, call ≠ .destroySprite h)
    (handles : (call.leaves host).handles = host.handles ++ [⟨host.nextSprite⟩])
    (next : (call.leaves host).nextSprite = host.nextSprite + 1)
  | destroys (h : SpriteHandle) (is : call = .destroySprite h) (makes : call.made host = none)
    (handles : (call.leaves host).handles = host.handles.filter (· != h))
    (next : (call.leaves host).nextSprite = host.nextSprite)
  | keeps (makes : call.made host = none) (spares : ∀ h, call ≠ .destroySprite h)
    (handles : (call.leaves host).handles = host.handles)
    (next : (call.leaves host).nextSprite = host.nextSprite)

theorem HostCall.cast (call : HostCall) (host : Host) : call.Cast host := by
  cases call with
  | createSprite sprite => exact .makes rfl nofun (List.map_append ..) rfl
  | destroySprite h => exact .destroys h rfl rfl (host.handles_destroySprite h) rfl
  | advance =>
    cases stops : host.stop? with
    | none =>
      have ran := perform_of_goes stops
      exact .keeps (by rw [made, ran]) nofun (by rw [leaves, ran]; rfl) (by rw [leaves, ran]; rfl)
    | some stop =>
      have ran := perform_of_stops stops
      exact .keeps (by rw [made, ran]) nofun (by rw [leaves, ran]) (by rw [leaves, ran])
  | moveSprite | showSprite | setFlip | setBlending =>
    exact .keeps rfl nofun (host.handles_updateSprite _ _) rfl
  | setBackground background => exact .keeps rfl nofun rfl rfl
  | present change =>
    cases change with
    | picture h frame => exact .keeps rfl nofun (host.handles_updateSprite _ _) rfl
    | _ => exact .keeps rfl nofun rfl rfl

namespace Host

section

variable (host : Host) (calls : List HostCall)

theorem after_concat (call : HostCall) :
    host.after (calls ++ [call]) = call.leaves (host.after calls) := host.after_append calls [call]

theorem created_concat (call : HostCall) :
    host.created (calls ++ [call]) = host.created calls ++ (call.made (host.after calls)).toList := by
  rw [created_append]
  refine congrArg (_ ++ ·) ?_
  unfold created history
  cases makes : call.made (host.after calls) with
  | none => simp [history, makes]
  | some h => simp [history, makes]

/-- A sprite that was destroyed had been made. -/
theorem Destroyed.mem_created {calls : List HostCall} {h : SpriteHandle}
    (gone : host.Destroyed calls h) : h ∈ host.created calls := by
  obtain ⟨before, later, rfl, made⟩ := gone
  rw [created_append]
  exact List.mem_append_left _ made

theorem destroyed_concat (call : HostCall) (h : SpriteHandle) :
    host.Destroyed (calls ++ [call]) h ↔
      host.Destroyed calls h ∨ call = .destroySprite h ∧ h ∈ host.created calls := by
  constructor
  · rintro ⟨before, later, is, made⟩
    rcases List.eq_nil_or_concat later with rfl | ⟨later, last, rfl⟩
    · obtain ⟨rfl, same⟩ := List.append_inj' is rfl
      exact .inr ⟨List.singleton_inj.mp same, made⟩
    · rw [List.concat_eq_append, ← List.cons_append, ← List.append_assoc] at is
      exact .inl ⟨before, later, (List.append_inj' is rfl).1, made⟩
  · rintro (⟨before, later, rfl, made⟩ | ⟨rfl, made⟩)
    · exact ⟨before, later ++ [call], by simp, made⟩
    · exact ⟨calls, [], rfl, made⟩

end

section

variable {host : Host} (first : host.nextSprite = 0) (calls : List HostCall)

include first

/-- Sprites are numbered in the order in which they are made. -/
theorem created_eq :
    host.created calls = (List.range (host.after calls).nextSprite).map SpriteHandle.mk := by
  induction calls using List.reverseRecOn with
  | nil =>
    change [] = (List.range host.nextSprite).map SpriteHandle.mk
    rw [first]
    rfl
  | append_singleton calls call ih =>
    rw [created_concat, after_concat, ih]
    cases call.cast (host.after calls) with
    | makes makes spares handles next =>
      rw [makes, next, List.range_succ, List.map_append]
      rfl
    | destroys h is makes handles next => rw [makes, next, Option.toList_none, List.append_nil]
    | keeps makes spares handles next => rw [makes, next, Option.toList_none, List.append_nil]

/-- No two calls make a sprite of one handle. -/
theorem created_nodup : (host.created calls).Nodup := by
  rw [created_eq first]
  refine List.Pairwise.map _ (fun a b (differs : a ≠ b) same => ?_) List.nodup_range
  exact differs (congrArg SpriteHandle.number same)

/-- The sprites that are there are those that were made and not destroyed after that. -/
theorem mem_handles_after (none : host.handles = []) (h : SpriteHandle) :
    h ∈ (host.after calls).handles ↔ h ∈ host.created calls ∧ ¬host.Destroyed calls h := by
  induction calls using List.reverseRecOn with
  | nil =>
    change h ∈ host.handles ↔ h ∈ ([] : List SpriteHandle) ∧ _
    simp [none]
  | append_singleton calls call ih =>
    have numbered := created_eq first calls
    rw [created_concat, after_concat, destroyed_concat]
    generalize host.after calls = mid at ih numbered ⊢
    cases call.cast mid with
    | makes makes spares handles next =>
      have new : (⟨mid.nextSprite⟩ : SpriteHandle) ∉ host.created calls := by
        rw [numbered]
        simp
      have spared : ¬host.Destroyed calls ⟨mid.nextSprite⟩ := fun gone => new gone.mem_created
      rw [makes, handles, List.mem_append, ih]
      simp only [Option.toList_some, List.mem_append, List.mem_singleton, spares, false_and,
        or_false]
      constructor
      · rintro (there | rfl)
        · exact ⟨.inl there.1, there.2⟩
        · exact ⟨.inr rfl, spared⟩
      · rintro ⟨made | rfl, there⟩
        · exact .inl ⟨made, there⟩
        · exact .inr rfl
    | destroys k is makes handles next =>
      rw [makes, handles, List.mem_filter, ih, is]
      by_cases same : h = k
      · subst same
        simp only [bne_self_eq_false, Bool.false_eq_true, and_false, Option.toList_none,
          List.append_nil, true_and, false_iff]
        tauto
      · have other : HostCall.destroySprite k ≠ .destroySprite h := by
          rintro ⟨⟩
          exact same rfl
        simp [same, other]
    | keeps makes spares handles next => simp [makes, handles, ih, spares]

end

end Host

/-! ### Scripts and budgets -/

namespace Host

variable (input : InputScript) (budget : Option Nat) (stops : Bool) (calls : List HostCall)

/-- A host follows its script. -/
theorem listens_after (vars : Variables) (stage : Stage) :
    (Session.start ((fresh input budget stops).after calls) vars stage).Listens input :=
  after_keeps (P := fun host => (Session.start host vars stage).Listens input)
    (.fresh budget stops vars stage) (fun _ _ same listens => listens.of_clock_eq same)
    (fun _ _ listens => listens.frame) calls

/-- A host keeps a record of each frame. -/
theorem recorded_after :
    ((fresh input budget stops).after calls).past.length =
      ((fresh input budget stops).after calls).frame := by
  refine after_keeps (P := fun host => host.past.length = host.frame) rfl ?_ ?_ calls
  · intro a b same recorded
    have past : b.past = a.past := congrArg Clock.past same
    have frame : b.frame = a.frame := congrArg Clock.frame same
    rw [past, frame, recorded]
  · intro a _ recorded
    exact congrArg (· + 1) recorded

/-- A host stays within its budget. -/
theorem within_after {limit : Nat} :
    let host := (fresh input (some limit) stops).after calls
    host.budget = some limit ∧ host.frame ≤ limit := by
  refine after_keeps (P := fun host => host.budget = some limit ∧ host.frame ≤ limit)
    ⟨rfl, Nat.zero_le _⟩ ?_ ?_ calls
  · rintro a b same ⟨budgeted, within⟩
    have budget : b.budget = a.budget := congrArg Clock.budget same
    have frame : b.frame = a.frame := congrArg Clock.frame same
    rw [budget, frame]
    exact ⟨budgeted, within⟩
  · rintro a goes ⟨budgeted, within⟩
    have before : a.frame < limit := by
      by_contra spent
      rw [stop?, budgeted] at goes
      simp only [if_pos (Nat.le_of_not_lt spent)] at goes
      cases goes
    exact ⟨budgeted, before⟩

end Host

/-! ### The law of a host -/

/-- What holds of a host after calls: of its time, its buttons and its sprites. -/
structure Host.KeepsOrder (input : InputScript) (budget : Option Nat) (stops : Bool)
    (calls : List HostCall) (host : Host) : Prop where
  /-- The frames of the host are those that were played and recorded, and within the budget. -/
  counted : host.frame = (Host.fresh input budget stops).played calls
  recorded : host.frames.length = host.frame
  within {limit : Nat} (set : budget = some limit) : host.frame ≤ limit
  /-- A button is held when the script holds it in this frame, and pressed when it did not hold it in
  the one before. -/
  held (button : Button) : host.states.held.has button ↔ button ∈ input.heldAt host.frame
  pressed (button : Button) : host.states.pressed.has button ↔ input.PressedAt button host.frame
  /-- Of all calls only `advance` takes time, or has to do with whether it can be made again. -/
  timeless {call : HostCall} (other : call ≠ .advance) :
    ∃ answer after, call.perform host = .ok answer after ∧ after.clock = host.clock ∧
      ∀ stop, after.advance = .error stop ↔ host.advance = .error stop
  /-- When it fails it changes nothing, and it fails in the same way for ever after. -/
  stuck {stop : HostStop} (halts : host.advance = .error stop) :
    HostCall.advance.perform host = .error stop host ∧
      ∀ later, (host.after later).advance = .error stop
  /-- No handle is given out twice, and it names a sprite until that is destroyed. -/
  distinct : ((Host.fresh input budget stops).created calls).Nodup
  shown (h : SpriteHandle) :
    h ∈ host.handles ↔
      h ∈ (Host.fresh input budget stops).created calls ∧
        ¬(Host.fresh input budget stops).Destroyed calls h
  /-- With fewer sprites made than there are numbers of 32 bits, every handle has 32 bits, and so has
  the one for the next sprite. -/
  fits (few : ((Host.fresh input budget stops).created calls).length < Number.word32) :
    (∀ h ∈ (Host.fresh input budget stops).created calls, h.number < Number.word32) ∧
      host.nextSprite < Number.word32
  /-- What is asked about a sprite that was never made, or that was destroyed, changes nothing. -/
  silent {call : HostCall} {h : SpriteHandle} (about : call.sprite? = some h)
    (gone : h ∉ (Host.fresh input budget stops).created calls ∨
      (Host.fresh input budget stops).Destroyed calls h) :
    call.perform host = .ok none host

/-- **A host keeps time and sprites in order.** Whatever is asked of it, and in whatever order, its
frame is the number of frames that it played, its buttons are those of the script in that frame, it
stays at its end when it has come to it, and nothing can be done to a sprite that is not there. Its
handles have 32 bits for as long as fewer than `word32` sprites were made. -/
theorem Host.keepsOrder_after (input : InputScript) (budget : Option Nat) (stops : Bool)
    (calls : List HostCall) :
    ((Host.fresh input budget stops).after calls).KeepsOrder input budget stops calls := by
  have listens := Host.listens_after input budget stops calls .empty (.bare .fallback)
  have shown := @Host.mem_handles_after (.fresh input budget stops) rfl calls rfl
  refine {
    counted := (Host.frame_after _ calls).trans (Nat.zero_add _)
    recorded := (List.length_reverse ..).trans (Host.recorded_after input budget stops calls)
    within := fun set => ?within
    held := listens.held
    pressed := listens.pressed
    timeless := fun other => ?timeless
    stuck := fun halts => ?stuck
    distinct := Host.created_nodup rfl calls
    shown := shown
    fits := fun few => ?fits
    silent := fun about gone => ?silent }
  case within =>
    subst set
    exact (Host.within_after input stops calls).2
  case timeless call =>
    generalize (Host.fresh input budget stops).after calls = host
    have step := call.step host
    generalize call.perform host = result at step
    cases step with
    | frame goes => exact absurd rfl other
    | halt stops => exact absurd rfl other
    | @calm _ answer after _ same =>
      refine ⟨answer, after, rfl, same, fun stop => ?_⟩
      rw [Host.advance_eq_error_iff, Host.advance_eq_error_iff, Host.stop?_congr same]
  case stuck stop =>
    have stopped := Host.advance_eq_error_iff.mp halts
    refine ⟨HostCall.perform_of_stops stopped, fun later => ?_⟩
    exact Host.advance_eq_error_iff.mpr (Host.stop?_after stopped later)
  case fits =>
    rw [Host.created_eq rfl, List.length_map, List.length_range] at few
    refine ⟨fun h made => ?_, few⟩
    rw [Host.created_eq rfl] at made
    obtain ⟨number, less, rfl⟩ := List.mem_map.mp made
    exact Nat.lt_trans (List.mem_range.mp less) few
  case silent call h =>
    refine HostCall.perform_of_not_mem about fun there => ?_
    obtain ⟨made, spared⟩ := (shown h).mp there
    exact gone.elim (fun never => never made) spared

end Overworld
