import Overworld.Proofs.Invariants
import Overworld.Proofs.Validity

/-!
Where the values of variables come from.

The journal tells which events were run, so it tells what was last assigned to a variable
(`Entry.lastAssigned?`). All through a game the variables are those that the graph declares, each
with the value that an event of the graph last assigned to it, or the declared one (`Accounted`). An
event that sets any other variable changes nothing and ends the call (`Play.Heeds`).
-/

namespace Overworld

/-! ### What the journal tells -/

/-- What an event assigns to the variable of a name. -/
def Event.assigns? (name : String) : Event → Option Value
  | .setVariable other value => if other = name then some value else none
  | _ => none

/-- What was last assigned to the variable of a name. The journal has its last entry first. -/
def Entry.lastAssigned? (name : String) : List Entry → Option Value
  | .event d :: journal => (d.event.assigns? name).or (lastAssigned? name journal)
  | .scene _ :: journal => lastAssigned? name journal
  | [] => none

/-- The value of a declared variable after what a journal tells. -/
def VariableDecl.valueAfter (journal : List Entry) (d : VariableDecl) : Value :=
  (Entry.lastAssigned? d.name journal).getD d.value

/-- The names that a graph declares. -/
def SceneGraph.declaredNames (g : SceneGraph) : List String := g.declarations.map (·.name)

/-- An event that sets a variable which the graph does not declare. -/
def Event.SetsUndeclared (g : SceneGraph) : Event → Prop
  | .setVariable name _ => name ∉ g.declaredNames
  | _ => False

/-- An event that sets no variable assigns nothing, declared or not. -/
theorem Event.of_ne_setVariable {event : Event}
    (other : ∀ name value, event ≠ .setVariable name value) (g : SceneGraph) :
    (∀ name, event.assigns? name = none) ∧ ¬event.SetsUndeclared g := by
  cases event with
  | setVariable name value => exact absurd rfl (other name value)
  | _ => exact ⟨fun _ => rfl, id⟩

/-- What is assigned to a variable is the literal of an event that sets it. -/
theorem Event.eq_of_assigns? {event : Event} {name : String} {value : Value}
    (h : event.assigns? name = some value) : event = .setVariable name value := by
  unfold assigns? at h
  split at h
  · split at h
    · subst name
      cases h
      rfl
    · exact nomatch h
  · exact nomatch h

/-- What was last assigned is the literal of an event that was run. -/
theorem Entry.exists_of_lastAssigned? {name : String} {value : Value} {journal : List Entry}
    (h : lastAssigned? name journal = some value) :
    ∃ d, .event d ∈ journal ∧ d.event = .setVariable name value := by
  induction journal with
  | nil => exact nomatch h
  | cons entry journal ih =>
    cases entry with
    | scene other =>
      obtain ⟨d, mem, is⟩ := ih h
      exact ⟨d, List.mem_cons_of_mem _ mem, is⟩
    | event d =>
      rw [lastAssigned?] at h
      rcases Option.or_eq_some_iff.mp h with here | ⟨-, before⟩
      · exact ⟨d, List.mem_cons_self, Event.eq_of_assigns? here⟩
      · obtain ⟨d, mem, is⟩ := ih before
        exact ⟨d, List.mem_cons_of_mem _ mem, is⟩

/-! ### Variables as they are declared -/

namespace Variables

/-- What is declared is added in order. -/
theorem entries_of_declares {declarations : List (String × Value)} {vars after : Variables}
    (h : declarations.foldlM (fun vars d => vars.declare d.1 d.2) vars = .ok after) :
    after.entries = vars.entries ++ declarations := by
  induction declarations generalizing vars with
  | nil =>
    cases h
    exact (List.append_nil _).symm
  | cons d declarations ih =>
    rw [List.foldlM_cons, declare] at h
    split at h
    · cases h
    · rw [ih h, List.append_assoc]
      rfl

/-- Only what was declared can be set, and only that changes. -/
theorem of_set {vars after : Variables} {name : String} {value : Value}
    (h : vars.set name value = .ok after) :
    vars.has name = true ∧ after.entries = vars.entries.map fun entry =>
      if entry.1 = name then (name, value) else entry := by
  unfold set at h
  split at h
  · rename_i declared
    cases h
    exact ⟨declared, rfl⟩
  · exact nomatch h

theorem mem_of_get? {vars : Variables} {name : String} {value : Value}
    (h : vars.get? name = some value) : (name, value) ∈ vars.entries := by
  obtain ⟨before, after, is, -⟩ := List.lookup_eq_some_iff.mp h
  rw [is]
  exact List.mem_append_right _ List.mem_cons_self

/-- Where the names are distinct, each value can be got by its name. -/
theorem get?_of_mem {vars : Variables} (distinct : vars.names.Nodup) {name : String} {value : Value}
    (mem : (name, value) ∈ vars.entries) : vars.get? name = some value := by
  obtain ⟨before, after, is⟩ := List.append_of_mem mem
  refine List.lookup_eq_some_iff.mpr ⟨before, after, is, fun entry earlier => ?_⟩
  rw [names, is, List.map_append, List.map_cons] at distinct
  have new := (List.nodup_append.mp distinct).2.2 entry.1 (List.mem_map_of_mem earlier) name
    List.mem_cons_self
  simpa using new.symm

end Variables

/-! ### Accounts -/

/-- The variables are those that the graph declares, each with the value that was last assigned to
it or else with the declared one, and all that was run stands in lists of the graph. -/
structure Accounted (g : SceneGraph) (vars : Variables) (journal : List Entry) : Prop where
  entries : vars.entries = g.declarations.map fun d => (d.name, d.valueAfter journal)
  listed : ∀ d, .event d ∈ journal → g.Lists d.event

/-- Since an earlier journal no variable was set that the graph does not declare. -/
def Heeded (g : SceneGraph) (past journal : List Entry) : Prop :=
  ∃ ran, journal = ran ++ past ∧ ∀ d, .event d ∈ ran → ¬d.event.SetsUndeclared g

/-- What came of a call that was made after some journal. Either no variable was set that the graph
does not declare, and playing did not halt for a variable; or one was, and that was the last event
which was run: it ended the call, and left the variables as it found them. -/
inductive Play.Heeds (g : SceneGraph) (past : List Entry) : EStateM.Result Halt Session Unit → Prop
  | ok {s : Session} (heeded : Heeded g past s.journal) : Heeds g past (.ok () s)
  | other {e : Halt} {s : Session} (other : ∀ error, e ≠ .variable error)
    (heeded : Heeded g past s.journal) : Heeds g past (.error e s)
  | refused {name : String} {value : Value} {d : Dispatch} {before : List Entry} {s : Session}
    (sets : d.event = .setVariable name value) (undeclared : name ∉ g.declaredNames)
    (heeded : Heeded g past before) (journal : s.journal = .event d :: before)
    (vars : s.vars = d.vars) : Heeds g past (.error (.variable (.undeclared name)) s)

namespace Heeded

variable {g : SceneGraph} {past journal : List Entry}

theorem refl : Heeded g past past := ⟨[], rfl, fun _ => nofun⟩

theorem cons (h : Heeded g past journal) {entry : Entry}
    (other : ∀ d, entry = .event d → ¬d.event.SetsUndeclared g) :
    Heeded g past (entry :: journal) := by
  obtain ⟨ran, is, none⟩ := h
  refine ⟨entry :: ran, congrArg _ is, fun d mem => ?_⟩
  rcases List.mem_cons.mp mem with here | before
  · exact other d here.symm
  · exact none d before

end Heeded

namespace Accounted

variable {g : SceneGraph} {vars : Variables} {journal : List Entry} {d : Dispatch}

theorem names (h : Accounted g vars journal) : vars.names = g.declaredNames := by
  rw [Variables.names, h.entries, List.map_map]
  rfl

theorem has_iff (h : Accounted g vars journal) {name : String} :
    vars.has name = true ↔ name ∈ g.declaredNames := by
  rw [Variables.has, h.names, List.contains_iff_mem]

/-- One more event that was run, where the variables are what it made of them. -/
theorem event (h : Accounted g vars journal) (listed : g.Lists d.event) {after : Variables}
    (entries : after.entries = vars.entries.map fun entry =>
      (entry.1, (d.event.assigns? entry.1).getD entry.2)) :
    Accounted g after (.event d :: journal) where
  entries := by
    rw [entries, h.entries, List.map_map]
    refine List.map_congr_left fun declaration _ => ?_
    simp only [Function.comp, VariableDecl.valueAfter, Entry.lastAssigned?]
    cases d.event.assigns? declaration.name <;> rfl
  listed other mem := by
    rcases List.mem_cons.mp mem with here | before
    · cases here
      exact listed
    · exact h.listed other before

/-- An event that assigns nothing to what is declared leaves the account as it was. -/
theorem unassigned (h : Accounted g vars journal) (listed : g.Lists d.event)
    (none : ∀ name ∈ g.declaredNames, d.event.assigns? name = none) :
    Accounted g vars (.event d :: journal) := by
  refine h.event listed ?_
  calc vars.entries = vars.entries.map id := (List.map_id _).symm
    _ = _ := List.map_congr_left fun entry mem => by
      rw [none entry.1 (h.names ▸ List.mem_map_of_mem mem)]
      rfl

/-- An event that sets a variable which is declared goes into the account. -/
theorem assigned (h : Accounted g vars journal) {name : String} {value : Value} {after : Variables}
    (sets : d.event = .setVariable name value) (listed : g.Lists d.event)
    (set : vars.set name value = .ok after) : Accounted g after (.event d :: journal) := by
  refine h.event listed ((Variables.of_set set).2.trans ?_)
  refine List.map_congr_left fun entry _ => ?_
  rw [sets, Event.assigns?]
  by_cases here : entry.1 = name
  · simp [here]
  · simp [here, Ne.symm here]

end Accounted

/-- What is quiet changes neither the variables nor the journal. -/
theorem Deed.Quiet.apply_eq {d : Deed} (quiet : d.Quiet) (s : Session) :
    (d.apply s).vars = s.vars ∧ (d.apply s).journal = s.journal := by
  cases d with
  | record | request | register | assign => exact quiet.elim
  | _ => exact ⟨rfl, rfl⟩

/-- **The account is kept**, since any time of a game. -/
def Game.accounts (game : Game) (past : List Entry) : game.Invariant where
  holds s := Accounted game.graph s.vars s.journal ∧ Heeded game.graph past s.journal
  halted e s :=
    Accounted game.graph s.vars s.journal ∧ Play.Heeds game.graph past (.error e s)
  quiet {s _} quiet h := by
    obtain ⟨vars, journal⟩ := quiet.apply_eq s
    rwa [vars, journal]
  frame h := h
  halts other h := ⟨h.1, .other other h.2⟩
  records _ _ listed other h := by
    obtain ⟨nothing, stays⟩ := Event.of_ne_setVariable other game.graph
    refine ⟨h.1.unassigned listed fun name _ => nothing name, h.2.cons fun d is => ?_⟩
    cases is
    exact stays
  assigns {s name value vars} _ _ listed set h := by
    refine ⟨h.1.assigned rfl listed set, h.2.cons fun d is => ?_⟩
    cases is
    exact not_not_intro (h.1.has_iff.mp (Variables.of_set set).1)
  refuses {s name value error} _ _ listed set h := by
    obtain ⟨missing, rfl⟩ := Variables.set_eq_error_iff.mp set
    have undeclared : name ∉ game.graph.declaredNames := fun declared =>
      absurd (h.1.has_iff.mpr declared) (by simp [missing])
    -- The event is in the journal, but what it would assign belongs to no declaration.
    refine ⟨h.1.unassigned listed fun other declared => ?_, .refused rfl undeclared h.2 rfl rfl⟩
    exact if_neg fun (is : name = other) => undeclared (is ▸ declared)
  registers _ h := h
  asks _ h := h
  arrives a h := by cases a <;> exact h
  enters name h :=
    ⟨⟨h.1.entries, fun d mem => h.1.listed d (by simpa [Session.entering] using mem)⟩,
      h.2.cons fun _ is => nomatch is⟩
  stopped h := by
    cases h.2 with
    | other _ heeded => exact ⟨h.1, heeded⟩

/-! ### The law of variables -/

/-- A variable that has a value. All that is read from it is read from the text of that value. -/
structure Session.Gives (s : Session) (name : String) (value : Value) : Prop where
  stored : s.vars.get? name = some value
  int : Play.intOf (.variable name) s = .ok (Value.int ⟨value.text⟩) s
  text : Play.textOf (.variable name) s = .ok value.text s
  flag : Expression.flag s.vars (.variable name) = Value.flag ⟨value.text⟩

theorem Session.Gives.of_get? {s : Session} {name : String} {value : Value}
    (stored : s.vars.get? name = some value) : s.Gives name value := by
  have read : Expression.value? s.vars (.variable name) = some value := stored
  have found : Play.valueOf (.variable name) s = .ok (some value) s := by
    rw [Play.valueOf, Play.get_bind_apply]
    simp only [read]
    rfl
  refine ⟨stored, ?_, ?_, ?_⟩
  · rw [Play.intOf, Play.bind_apply, found]
    rfl
  · rw [Play.textOf, Play.bind_apply, found]
    rfl
  · rw [Expression.flag, read]
    rfl

/-- What a session knows about its variables, now and in whatever is asked of it next. -/
structure Session.KnowsVariables (game : Game) (s : Session) : Prop where
  /-- There is a variable for each declaration, and no other. -/
  names : s.vars.names = game.graph.declaredNames
  distinct : s.vars.names.Nodup
  /-- Each value was declared for that name, or is the literal of an event that sets it. -/
  sources : ∀ name value, s.vars.get? name = some value →
    ⟨name, value⟩ ∈ game.graph.declarations ∨ game.graph.Lists (.setVariable name value)
  /-- The last assignment counts. -/
  reads : ∀ d ∈ game.graph.declarations, s.Gives d.name (d.valueAfter s.journal)
  next : ∀ call : Call, Play.Heeds game.graph s.journal (call.perform game s)

/-- The account is kept by any number of calls, however they end. -/
theorem Session.accounted_after {game : Game} {s : Session} (listed : s.Listed game.graph)
    (accounted : Accounted game.graph s.vars s.journal) (calls : List Call) :
    (s.after game calls).Listed game.graph ∧
      Accounted game.graph (s.after game calls).vars (s.after game calls).journal := by
  induction calls generalizing s with
  | nil => exact ⟨listed, accounted⟩
  | cons call calls ih =>
    have ends := (game.accounts s.journal).perform listed ⟨accounted, .refl⟩ call
    rw [Session.after, List.foldl_cons]
    generalize call.perform game s = r at ends
    cases ends with
    | ok _ listed h => exact ih listed h.1
    | error listed h => exact ih listed h.1

/-- Whoever keeps the account knows the variables. -/
theorem Accounted.knowsVariables {game : Game} {s : Session} (listed : s.Listed game.graph)
    (h : Accounted game.graph s.vars s.journal) (distinct : game.graph.declaredNames.Nodup) :
    s.KnowsVariables game where
  names := h.names
  distinct := h.names ▸ distinct
  sources name value stored := by
    have mem := Variables.mem_of_get? stored
    rw [h.entries] at mem
    obtain ⟨d, declared, is⟩ := List.mem_map.mp mem
    cases is
    rw [VariableDecl.valueAfter]
    cases last : Entry.lastAssigned? d.name s.journal with
    | none => exact .inl declared
    | some value =>
      obtain ⟨ran, mem, sets⟩ := Entry.exists_of_lastAssigned? last
      exact .inr (sets ▸ h.listed ran mem)
  reads d declared := by
    refine .of_get? (Variables.get?_of_mem (h.names ▸ distinct) ?_)
    rw [h.entries]
    exact List.mem_map_of_mem declared
  next call := by
    have ends := (game.accounts s.journal).perform listed ⟨h, .refl⟩ call
    generalize call.perform game s = r at ends
    cases ends with
    | ok _ _ h => exact .ok h.2
    | error _ h => exact h.2

/-- **Variables stay accounted for.** At any time of a game, from its start on and whatever was
asked of it and came of that, there is a variable for each declaration of the graph and no other.
Its value is the literal of the event of the graph that set it last, or the declared one if there
was none, and all that is read from it is read from the text of that value. An event that sets any
other variable ends the call, which halts for that name, and leaves the variables as they were just
before it. -/
theorem knowsVariables_session {game : Game} {host : Host} {s : Session}
    (start : game.session host = .ok s) (calls : List Call) :
    (s.after game calls).KnowsVariables game := by
  obtain ⟨vars, fresh, rfl⟩ := Game.session_eq_ok_iff.mp start
  have distinct := SceneGraph.freshVariables_isOk_iff.mp ⟨vars, fresh⟩
  have accounted : Accounted game.graph vars [] := by
    refine ⟨?_, fun _ => nofun⟩
    rw [Variables.entries_of_declares fresh]
    rfl
  have after := Session.accounted_after (s := .start host vars (.bare .fallback))
    (List.forall_mem_nil _) accounted calls
  exact after.2.knowsVariables after.1 distinct

/-- A shop without coins, in which there are five once it was entered. The clerk would like to have
gems, but nobody has declared them. -/
def Game.shop : Game where
  graph :=
    { SceneGraph.empty with
      declarations := [⟨"coins", .ofInt 0⟩]
      lists := [[], [.setVariable "coins" ⟨"05"⟩], [.setVariable "gems" ⟨"1"⟩]]
      scenes :=
        [{ Scene.called "shop" with
            events := ⟨1⟩
            actors := [{ ActorDef.at "clerk" 0 0 with update := ⟨2⟩ }] }] }
  config := .standard

/-- The shop was entered and the clerk has failed: the coins are still there, and he will fail
again. -/
theorem knowsVariables_session_shop :
    Game.shop.graph.check = .ok () ∧
      ∃ s, Game.shop.session (.fresh .empty (some 3) false) = .ok s ∧
        (s.after Game.shop [.enter "shop", .frame]).KnowsVariables Game.shop ∧
        (s.after Game.shop [.enter "shop", .frame]).vars = ⟨[("coins", ⟨"05"⟩)]⟩ ∧
        ∃ t, Call.frame.perform Game.shop (s.after Game.shop [.enter "shop", .frame]) =
          .error (.variable (.undeclared "gems")) t :=
  ⟨by decide, _, rfl, knowsVariables_session rfl _, by decide +kernel, _, rfl⟩

end Overworld
